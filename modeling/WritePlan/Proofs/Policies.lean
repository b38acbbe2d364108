import WritePlan.Proofs.Batches
import WritePlan.Proofs.Chunks
import WritePlan.Proofs.KeyOrder

namespace WritePlan

namespace BatchPolicy

variable {policy : BatchPolicy}

theorem chunkSize_pos : ∀ most ∈ policy.chunkSize, 0 < most := by
  intro most limit
  unfold chunkSize at limit
  split at limit
  · obtain ⟨size, _, rfl⟩ := Option.map_eq_some_iff.mp limit
    omega
  · cases limit
    exact Nat.one_pos

theorem chunkSize_of_disabled (disabled : policy.enabled = false) : policy.chunkSize = some 1 := by
  simp [chunkSize, disabled]

theorem validate_eq_ok : policy.validate = .ok () ↔ policy.maxBatchSize ≠ some 0 := by
  unfold validate
  split <;> simp_all

theorem chunkSize_of_valid (valid : policy.validate = .ok ()) :
    policy.chunkSize = if policy.enabled then policy.maxBatchSize else some 1 := by
  have filled := validate_eq_ok.mp valid
  unfold chunkSize
  split
  · cases limit : policy.maxBatchSize with
    | none => rfl
    | some size =>
      have positive : 1 ≤ size := Nat.one_le_iff_ne_zero.mpr fun zero => filled (zero ▸ limit)
      rw [Option.map_some, Nat.max_eq_left positive]
  · rfl

end BatchPolicy

theorem Action.split_of_not_batch {action : Action} (single : action.isBatch = false) :
    action.split = [action] := by
  cases action with
  | root step => rfl
  | child step => rfl
  | batch path kind members => rw [isBatch_batch] at single; cases single

theorem split_eq_map_steps (actions : List Action) :
    actions.flatMap Action.split = (actions.flatMap Action.steps).map Action.ofStep :=
  (List.map_flatMap ..).symm

/-- Whatever the limit, the single actions of a stream are those of the schedule. -/
theorem split_stream (size : Option Nat) (steps : List Step) :
    (stream size steps).flatMap Action.split = (schedule steps).map Action.ofStep := by
  rw [split_eq_map_steps, steps_stream]

theorem not_batch_of_mem_plain {steps : List Step} {action : Action}
    (member : action ∈ stream (some 1) steps) : action.isBatch = false := by
  by_contra batch
  obtain ⟨path, kind, members, rfl⟩ := Action.exists_batch (Bool.eq_true_of_not_eq_false batch)
  obtain ⟨key, own⟩ := batch_mem_stream.mp member
  have short := (length_of_mem_chunksOf own.piece).2
  have long := own.several
  omega

/-- A stream without batches has the members of all batches in their places. -/
theorem stream_plain (size : Option Nat) (steps : List Step) :
    stream (some 1) steps = (stream size steps).flatMap Action.split := by
  have single : (stream (some 1) steps).flatMap Action.split = stream (some 1) steps := by
    rw [List.flatMap_congr fun action member =>
      Action.split_of_not_batch (not_batch_of_mem_plain member)]
    exact List.flatMap_singleton' _
  rw [← single, split_stream, split_stream]

private theorem GroupKey.actions_of_fits {size : Option Nat} {key : GroupKey} {own : List ChildStep}
    (fits : key.kind ≠ none → ∀ most ∈ size, own.length ≤ most) :
    key.actions size own = key.actions none own := by
  cases batched : key.kind with
  | none => rw [actions_of_none batched, actions_of_none batched]
  | some kind =>
    cases size with
    | none => rfl
    | some most =>
      have uncut := chunks_of_fits (fits (by simp [batched]) most rfl)
      simp only [actions, uncut]

theorem stream_of_fits {size : Option Nat} {steps : List Step}
    (fits : ∀ key : GroupKey, key.kind ≠ none →
      ∀ most ∈ size, (stepsOf key (childrenOf steps)).length ≤ most) :
    stream size steps = stream none steps := by
  rw [stream_eq_flatMap, stream_eq_flatMap]
  congr 1
  funext phase
  rw [streamIn_eq_keys, streamIn_eq_keys]
  congr 2
  funext key
  exact GroupKey.actions_of_fits (fits key)

namespace Accumulator

/-- No key that is put into batches has more steps than a batch of the policy may hold. -/
def Fits (accumulator : Accumulator) (policy : BatchPolicy) : Prop :=
  ∀ key : GroupKey, key.kind ≠ none →
    ∀ most ∈ policy.maxBatchSize, (accumulator.stepsOf key).length ≤ most

theorem Fits.stream_eq {accumulator : Accumulator} {policy : BatchPolicy}
    (fits : accumulator.Fits policy) (enabled : policy.enabled = true) :
    stream policy.chunkSize accumulator.steps = stream none accumulator.steps := by
  apply stream_of_fits
  intro key kinds most limit
  simp only [BatchPolicy.chunkSize, enabled, if_pos] at limit
  obtain ⟨size, own, rfl⟩ := Option.map_eq_some_iff.mp limit
  exact Nat.le_trans (fits key kinds size own) (Nat.le_max_left ..)

/-- Under any two policies, an accumulator carries out the same single actions in the same order;
where batches are not allowed, the stream is that list. Policies that both allow batches, or both
do not, and whose limits no key exceeds, give one stream. -/
theorem actions_withPolicy {accumulator : Accumulator} {policy other : BatchPolicy}
    (valid : policy.validate = .ok ()) (otherValid : other.validate = .ok ()) :
    ∃ first second,
      accumulator.withPolicy policy = .ok first ∧ accumulator.withPolicy other = .ok second ∧
      first.actions.flatMap Action.split = second.actions.flatMap Action.split ∧
      (policy.enabled = false → first.actions = second.actions.flatMap Action.split) ∧
      (policy.enabled = other.enabled → accumulator.Fits policy → accumulator.Fits other →
        first.actions = second.actions) := by
  refine ⟨_, _, withPolicy_eq_ok.mpr ⟨valid, rfl⟩, withPolicy_eq_ok.mpr ⟨otherValid, rfl⟩, ?_, ?_, ?_⟩
  · exact (split_stream ..).trans (split_stream ..).symm
  · intro disabled
    rw [actions, BatchPolicy.chunkSize_of_disabled disabled]
    exact stream_plain ..
  · intro alike fits otherFits
    cases enabled : policy.enabled with
    | false =>
      have limits : policy.chunkSize = other.chunkSize := by
        rw [BatchPolicy.chunkSize_of_disabled enabled,
          BatchPolicy.chunkSize_of_disabled (alike ▸ enabled)]
      exact congrArg (stream · accumulator.steps) limits
    | true => exact (fits.stream_eq enabled).trans (otherFits.stream_eq (alike ▸ enabled)).symm

private def tagRemoval (id : Int64) : ChildStep :=
  ⟨⟨.root ⟨"order"⟩, ⟨"tag", ⟨"order_tag"⟩, true, false, false⟩⟩, .delete (.integer id) none⟩

private def tagRemovals : Change :=
  ((Change.deleteByType ⟨"order"⟩ none).add (.child (tagRemoval 1))).add (.child (tagRemoval 2))

private def untagging : Accumulator := ⟨.delete, ⟨"order"⟩, .standard, [tagRemovals]⟩

/-- Two steps fit into batches of two, so that such batches are no different from batches without
a limit. -/
theorem untagging_withPolicy :
    BatchPolicy.validate ⟨true, some 2⟩ = .ok () ∧ BatchPolicy.standard.validate = .ok () ∧
    untagging.Fits ⟨true, some 2⟩ ∧ untagging.Fits .standard ∧
    ∃ first second,
      untagging.withPolicy ⟨true, some 2⟩ = .ok first ∧ untagging.withPolicy .standard = .ok second ∧
      first.actions.flatMap Action.split = second.actions.flatMap Action.split ∧
      first.actions = second.actions := by
  have fits : untagging.Fits ⟨true, some 2⟩ := by
    intro key _ most limit
    cases limit
    exact List.length_filter_le (fun step : ChildStep => step.groupKey = key)
      [tagRemoval 1, tagRemoval 2]
  have unlimited : untagging.Fits .standard := fun _ _ _ limit => by cases limit
  obtain ⟨first, second, left, right, split, _, same⟩ :=
    @actions_withPolicy untagging ⟨true, some 2⟩ .standard rfl rfl
  exact ⟨rfl, rfl, fits, unlimited, first, second, left, right, split, same rfl fits unlimited⟩

/-- Neither the standard policy nor the one that allows no batches sets a limit, but they give
different streams for two deletes at one path. -/
theorem actions_differ_without_limit :
    BatchPolicy.standard.validate = .ok () ∧ BatchPolicy.standard.maxBatchSize = none ∧
    BatchPolicy.disabled.validate = .ok () ∧ BatchPolicy.disabled.maxBatchSize = none ∧
    ∃ accumulator batched plain,
      (new .delete ⟨"order"⟩).addAll [tagRemovals] = .ok accumulator ∧
      accumulator.withPolicy .standard = .ok batched ∧
      accumulator.withPolicy .disabled = .ok plain ∧
      batched.actions ≠ plain.actions := by
  refine ⟨rfl, rfl, rfl, rfl, untagging, untagging, { untagging with policy := .disabled },
    rfl, rfl, rfl, fun same => ?_⟩
  have batch : Action.batch (tagRemoval 1).path .delete [tagRemoval 1, tagRemoval 2] ∈
      untagging.actions :=
    batch_mem_stream.mpr ⟨(tagRemoval 1).groupKey, rfl, rfl, .head _, by simp⟩
  rw [same] at batch
  cases not_batch_of_mem_plain batch

end Accumulator

end WritePlan
