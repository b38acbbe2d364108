import WritePlan.Proofs.Runs
import WritePlan.Proofs.Schedule

/-! Streams fed back. The steps of a stream are already in the order of execution, group by
group, so that planning them once more under any policy gives what planning the first steps
under that policy gives. -/
namespace WritePlan

private theorem GroupTable.groups_arranged (before : Nat → Nat → Bool) (steps : List ChildStep) :
    (GroupTable.ofSteps (arranged before steps)).groups.toList =
      (GroupTable.ofSteps steps).sorted before := by
  have gathers := (GroupTable.indexes_ofSteps steps).gathers
  have perm := GroupTable.sorted_perm (GroupTable.ofSteps steps) before
  have uniform : ∀ group ∈ (GroupTable.ofSteps steps).sorted before, group.Uniform :=
    fun group member => gathers.uniform (perm.mem_iff.mp member)
  have distinct := (perm.map Group.key).nodup_iff.mpr gathers.nodup
  exact (GroupTable.indexes_ofSteps (arranged before steps)).gathers.unique
    (gathers_flatMap uniform distinct)

/-- Steps that are in the order of execution already have their groups in that order. -/
private theorem GroupTable.sorted_arranged {before : Nat → Nat → Bool} (order : DepthOrder before)
    (steps : List ChildStep) :
    (GroupTable.ofSteps (arranged before steps)).sorted before =
      (GroupTable.ofSteps steps).sorted before := by
  have ordered := GroupTable.sorted_pairwise (GroupTable.ofSteps steps) order
  conv => lhs; rw [GroupTable.sorted, GroupTable.groups_arranged]
  exact List.mergeSort_of_pairwise ordered

private theorem GroupTable.actions_arranged {before : Nat → Nat → Bool} (order : DepthOrder before)
    (size : Option Nat) (steps : List ChildStep) :
    (GroupTable.ofSteps (arranged before steps)).actions before size =
      (GroupTable.ofSteps steps).actions before size := by
  rw [GroupTable.actions_eq, GroupTable.sorted_arranged order, ← GroupTable.actions_eq]

private theorem streamIn_schedule (size : Option Nat) (steps : List Step) (phase : Phase) :
    streamIn size (schedule steps) phase = streamIn size steps phase := by
  cases phase with
  | childDeletes =>
    simp only [streamIn, childrenIn_schedule_deletes, GroupTable.actions_arranged deeperFirst_order]
  | childWrites =>
    simp only [streamIn, childrenIn_schedule_writes, GroupTable.actions_arranged shallowerFirst_order]
  | _ => exact congrArg (List.map Action.root) (rootsIn_schedule ..)

theorem stream_schedule (size : Option Nat) (steps : List Step) :
    stream size (schedule steps) = stream size steps := by
  rw [stream_eq_flatMap, stream_eq_flatMap]
  congr 1
  funext phase
  exact streamIn_schedule size steps phase

/-- Under whatever policy a stream was made, its steps can be planned again under another. -/
theorem stream_steps_stream (size other : Option Nat) (steps : List Step) :
    stream size ((stream other steps).flatMap Action.steps) = stream size steps := by
  rw [steps_stream, stream_schedule]

namespace Accumulator

/-- The stream of an accumulator, cut into changes in any way and added to a fresh accumulator
under some policy, gives the stream that the first accumulator has under that policy; under its
own policy it gives itself. -/
theorem actions_of_refilled {accumulator : Accumulator} {policy : BatchPolicy} {changes : List Change}
    (taken : ∀ change ∈ changes, accumulator.Takes change)
    (cut : changes.flatMap Change.actions = accumulator.actions)
    (valid : policy.validate = .ok ()) :
    ∃ fresh refilled reconfigured,
      (new accumulator.kind accumulator.type).withPolicy policy = .ok fresh ∧
      fresh.addAll changes = .ok refilled ∧
      accumulator.withPolicy policy = .ok reconfigured ∧
      refilled.actions = reconfigured.actions ∧
      (policy = accumulator.policy → refilled.actions = accumulator.actions) := by
  have steps : changes.flatMap Change.steps = accumulator.actions.flatMap Action.steps := by
    rw [← cut, List.flatMap_assoc]
    rfl
  have streams : stream policy.chunkSize (changes.flatMap Change.steps) =
      stream policy.chunkSize accumulator.steps := by
    rw [steps]
    exact stream_steps_stream ..
  refine ⟨_, _, _, withPolicy_eq_ok.mpr ⟨valid, rfl⟩, addAll_eq_ok.mpr ⟨taken, rfl⟩,
    withPolicy_eq_ok.mpr ⟨valid, rfl⟩, streams, ?_⟩
  intro same
  subst same
  exact streams

private def linePath : Path := ⟨.root ⟨"order"⟩, ⟨"line", ⟨"order_line"⟩, true, true, false⟩⟩

private def lineRemoval (id : Int64) : ChildStep := ⟨linePath, .delete (.integer id) none⟩

private def orderLock : Action := .root (.lock (.integer 2) ⟨"order"⟩)

private def orderChange (actions : List Action) : Change :=
  actions.foldl Change.add (Change.deleteByType ⟨"order"⟩ none)

private def lineRemovals : Accumulator where
  kind := .delete
  type := ⟨"order"⟩
  policy := .standard
  changes :=
    [orderChange [.child (lineRemoval 1)], orderChange [orderLock, .child (lineRemoval 2)]]

private def lineRefills : List Change :=
  [orderChange [orderLock], orderChange [.batch linePath .delete [lineRemoval 1, lineRemoval 2]]]

/-- Two deletes that made a batch are planned again without batches. -/
theorem lineRemovals_refilled :
    (∀ change ∈ lineRefills, lineRemovals.Takes change) ∧
    lineRefills.flatMap Change.actions = lineRemovals.actions ∧
    BatchPolicy.disabled.validate = .ok () ∧
    ∃ fresh refilled reconfigured,
      (new .delete ⟨"order"⟩).withPolicy .disabled = .ok fresh ∧
      fresh.addAll lineRefills = .ok refilled ∧
      lineRemovals.withPolicy .disabled = .ok reconfigured ∧
      refilled.actions = reconfigured.actions ∧
      (BatchPolicy.disabled = lineRemovals.policy → refilled.actions = lineRemovals.actions) := by
  have taken : ∀ change ∈ lineRefills, lineRemovals.Takes change := by
    simp [lineRefills, lineRemovals, orderChange, Takes, Change.add, Change.deleteByType]
  have cut : lineRefills.flatMap Change.actions = lineRemovals.actions := by
    simp [lineRefills, lineRemovals, orderChange, orderLock, lineRemoval, Change.add,
      Change.deleteByType, Change.steps, Action.steps, actions, steps, BatchPolicy.standard,
      BatchPolicy.chunkSize, stream, rootActions, Step.rootIn, Step.childIn, RootStep.phase,
      RowWork.phase, RowWork.batchKind?, ChildStep.groupKey, GroupTable.ofSteps, GroupTable.add,
      GroupTable.empty, GroupTable.actions, Group.actions, chunks, Action.ofChunk,
      List.filterMap_cons]
  exact ⟨taken, cut, rfl, actions_of_refilled taken cut rfl⟩

end Accumulator

end WritePlan
