import WritePlan.Proofs.Conservation
import WritePlan.Proofs.Policies

/-! Coalescing: all steps of a key are carried out together, in as few actions as the limit on
batches allows, and keys of one depth take turns in the order in which they were first seen. -/
namespace WritePlan

def Action.Serves (action : Action) (key : GroupKey) : Prop :=
  ∃ step ∈ action.steps, step.lane = .rows key

/-- Actions that carry out the steps of a key: batches of its kind, filled up to the limit, a
single step where no more is left, or all steps as they are if they are never batched. -/
structure Coalesced (limit : Option Nat) (key : GroupKey) (own : List ChildStep)
    (block : List Action) : Prop where
  steps : block.flatMap Action.steps = own.map .child
  apart : key.kind = none → block = own.map .child
  packed : key.kind ≠ none → Packed limit own.length (block.map Action.memberCount)
  plain : ∀ action ∈ block, action.memberCount = 1 → ∃ step, action = .child step
  batches : ∀ action ∈ block, 2 ≤ action.memberCount → ∃ path kind members,
    own.head?.map ChildStep.path = some path ∧ key.kind = some kind ∧ action = .batch path kind members

theorem memberCount_ofChunk (path : Path) (kind : BatchKind) (piece : List ChildStep) :
    (Action.ofChunk path kind piece).memberCount = piece.length := by
  rw [Action.memberCount, Action.steps_ofChunk, List.length_map]

namespace GroupKey

variable {size : Option Nat} {key : GroupKey} {own : List ChildStep}

theorem packed_actions (positive : ∀ most ∈ size, 0 < most) {kind : BatchKind}
    (batched : key.kind = some kind) :
    Packed size own.length ((key.actions size own).map Action.memberCount) := by
  have packed := packed_chunks positive own
  cases own with
  | nil => simpa using packed
  | cons first rest =>
    rw [actions_of_some batched rfl, List.map_map]
    simpa only [Function.comp_def, memberCount_ofChunk] using packed

theorem mem_actions {action : Action} (member : action ∈ key.actions size own) :
    (key.kind = none ∧ ∃ step, action = .child step) ∨
      ∃ path kind piece, own.head?.map ChildStep.path = some path ∧ key.kind = some kind ∧
        action = Action.ofChunk path kind piece := by
  cases batched : key.kind with
  | none =>
    rw [actions_of_none batched] at member
    obtain ⟨step, _, rfl⟩ := List.mem_map.mp member
    exact .inl ⟨rfl, step, rfl⟩
  | some kind =>
    cases own with
    | nil => simp at member
    | cons first rest =>
      rw [actions_of_some batched rfl] at member
      obtain ⟨piece, _, rfl⟩ := List.mem_map.mp member
      exact .inr ⟨first.path, kind, piece, rfl, rfl, rfl⟩

theorem coalesced_actions (positive : ∀ most ∈ size, 0 < most) :
    Coalesced size key own (key.actions size own) where
  steps := steps_actions
  apart := actions_of_none
  packed batched := by
    obtain ⟨kind, own⟩ := Option.ne_none_iff_exists'.mp batched
    exact packed_actions positive own
  plain action member alone := by
    rcases mem_actions member with ⟨_, found⟩ | ⟨path, kind, piece, _, _, rfl⟩
    · exact found
    · rw [memberCount_ofChunk] at alone
      obtain ⟨step, rfl⟩ := List.length_eq_one_iff.mp alone
      exact ⟨step, rfl⟩
  batches action member several := by
    rcases mem_actions member with ⟨_, step, rfl⟩ | ⟨path, kind, piece, first, batched, rfl⟩
    · exact absurd several (by simp [Action.memberCount, Action.steps])
    · rw [memberCount_ofChunk] at several
      have filled : piece ≠ [] := List.ne_nil_of_length_pos (by omega)
      exact ⟨path, kind, piece, first, batched,
        (Action.ofChunk_eq_batch filled).mpr ⟨rfl, rfl, rfl, several⟩⟩

private theorem eq_of_serves {children : List ChildStep} {action : Action} {other : GroupKey}
    (member : action ∈ key.actions size (stepsOf key children)) (serves : action.Serves other) :
    other = key := by
  obtain ⟨step, held, lane⟩ := serves
  have all : step ∈ (key.actions size (stepsOf key children)).flatMap Action.steps :=
    List.mem_flatMap.mpr ⟨action, member, held⟩
  rw [steps_actions] at all
  obtain ⟨child, own, rfl⟩ := List.mem_map.mp all
  cases lane
  exact (mem_stepsOf.mp own).2

end GroupKey

private theorem infix_flatMap {items : List α} {item : α} (member : item ∈ items) (f : α → List β) :
    f item <:+: items.flatMap f :=
  List.infix_of_mem_flatten (List.mem_map_of_mem member)

theorem actions_infix_stream (size : Option Nat) (steps : List Step) (key : GroupKey) :
    key.actions size (stepsOf key (childrenOf steps)) <:+: stream size steps := by
  by_cases seen : key ∈ keysOf (childrenOf steps)
  · have listed : key.phase ∈ Phase.all := by cases key.phase <;> decide
    have below : key.actions size (stepsOf key (childrenOf steps)) <:+:
        streamIn size steps key.phase := by
      rw [streamIn_eq_keys]
      exact (infix_flatMap (Phase.mem_keys.mpr ⟨seen, rfl⟩)
        fun key => key.actions size (stepsOf key (childrenOf steps))).trans
        (List.suffix_append ..).isInfix
    rw [stream_eq_flatMap]
    exact below.trans (infix_flatMap listed (streamIn size steps))
  · rw [stepsOf_eq_nil.mpr seen, GroupKey.actions_nil]
    exact List.nil_infix

/-- Outside its block, a stream has no action for a key. -/
private theorem not_serves_outside {size : Option Nat} {steps : List Step} {key : GroupKey}
    {front block rest : List Action} (whole : stream size steps = front ++ block ++ rest)
    (own : block.flatMap Action.steps = (stepsOf key (childrenOf steps)).map .child) :
    ∀ action ∈ front ++ rest, ¬ action.Serves key := by
  -- The block alone fills the lane of the key, so that nothing of it is left on either side.
  have lane := filter_lane_schedule (.rows key) steps
  rw [← steps_stream size, whole, filter_lane_rows key steps, List.flatMap_append, List.flatMap_append,
    List.filter_append, List.filter_append, own] at lane
  have kept : ((stepsOf key (childrenOf steps)).map Step.child).filter
      (fun step => step.lane = .rows key) = (stepsOf key (childrenOf steps)).map .child := by
    rw [← filter_lane_rows, List.filter_filter]
    simp
  have counts := congrArg List.length lane
  simp only [kept, List.length_append] at counts
  have empty : ((front ++ rest).flatMap Action.steps).filter
      (fun step => step.lane = .rows key) = [] := by
    rw [List.flatMap_append, List.filter_append, ← List.length_eq_zero_iff, List.length_append]
    omega
  intro action member serves
  obtain ⟨step, held, same⟩ := serves
  have present : step ∈ (front ++ rest).flatMap Action.steps :=
    List.mem_flatMap.mpr ⟨action, member, held⟩
  simpa [same] using List.filter_eq_nil_iff.mp empty step present

theorem exists_coalesced {size : Option Nat} (positive : ∀ most ∈ size, 0 < most) (steps : List Step)
    (key : GroupKey) :
    ∃ front block rest, stream size steps = front ++ block ++ rest ∧
      (∀ action ∈ front ++ rest, ¬ action.Serves key) ∧
      Coalesced size key (stepsOf key (childrenOf steps)) block := by
  obtain ⟨front, rest, whole⟩ := actions_infix_stream size steps key
  exact ⟨front, _, rest, whole.symm, not_serves_outside whole.symm GroupKey.steps_actions,
    GroupKey.coalesced_actions positive⟩

/-- If the actions serve keys of one phase and depth, the key of the first was seen first. -/
def InTurn (children : List ChildStep) (first second : Action) : Prop :=
  ∀ key other, first.Serves key → second.Serves other → key.phase = other.phase →
    key.depth = other.depth → key.firstSight children ≤ other.firstSight children

variable {size : Option Nat} {steps : List Step} {phase : Phase} {action : Action} {key : GroupKey}

private theorem not_serves_of_mem_rootActions (member : action ∈ rootActions phase steps) :
    ¬ action.Serves key := by
  obtain ⟨step, _, rfl⟩ := List.mem_map.mp member
  intro serves
  obtain ⟨own, held, lane⟩ := serves
  obtain rfl := List.mem_singleton.mp held
  cases lane

private theorem phase_of_serves (member : action ∈ streamIn size steps phase)
    (serves : action.Serves key) :
    key.phase = phase := by
  rw [streamIn_eq_keys] at member
  rcases List.mem_append.mp member with root | child
  · exact absurd serves (not_serves_of_mem_rootActions root)
  · obtain ⟨own, listed, held⟩ := List.mem_flatMap.mp child
    obtain rfl := GroupKey.eq_of_serves held serves
    exact (Phase.mem_keys.mp listed).2

private theorem streamIn_inTurn (size : Option Nat) (steps : List Step) (phase : Phase) :
    (streamIn size steps phase).Pairwise (InTurn (childrenOf steps)) := by
  rw [streamIn_eq_keys, List.pairwise_append, List.pairwise_flatMap]
  refine ⟨?_, ⟨?_, ?_⟩, ?_⟩
  · apply List.pairwise_of_forall_mem_list
    intro first left second _ key other serves
    exact absurd serves (not_serves_of_mem_rootActions left)
  · intro own _
    apply List.pairwise_of_forall_mem_list
    intro first left second right key other serves others _ _
    obtain rfl := GroupKey.eq_of_serves left serves
    obtain rfl := GroupKey.eq_of_serves right others
    exact Nat.le_refl _
  · refine Phase.keys_pairwise_firstSight.imp ?_
    intro own next earlier first left second right key other serves others _ depths
    obtain rfl := GroupKey.eq_of_serves left serves
    obtain rfl := GroupKey.eq_of_serves right others
    exact Nat.le_of_lt (earlier depths)
  · intro first left second _ key other serves
    exact absurd serves (not_serves_of_mem_rootActions left)

theorem stream_inTurn (size : Option Nat) (steps : List Step) :
    (stream size steps).Pairwise (InTurn (childrenOf steps)) := by
  rw [stream_eq_flatMap, List.pairwise_flatMap]
  refine ⟨fun phase _ => streamIn_inTurn size steps phase, ?_⟩
  have different : Phase.all.Pairwise (· ≠ ·) := by decide
  refine different.imp fun apart first left second right key other serves others phases => ?_
  rw [phase_of_serves left serves, phase_of_serves right others] at phases
  exact absurd phases apart

namespace Accumulator

/-- What a stream makes of the steps below the roots that came with all changes. A valid policy
limits batches to its size, or to single steps where batches are not allowed. Under that limit
the stream has one block of actions for each key, with all steps of the key in as few actions as
can be. Blocks of one phase and one depth stand in the order in which their keys were first seen. -/
theorem actions_coalesce (accumulator : Accumulator) :
    let below := childrenOf ((accumulator.changes.flatMap Change.actions).flatMap Action.steps)
    (accumulator.policy.validate = .ok () → accumulator.policy.chunkSize =
      if accumulator.policy.enabled then accumulator.policy.maxBatchSize else some 1) ∧
    (∀ key : GroupKey, ∃ front block rest,
      accumulator.actions = front ++ block ++ rest ∧
      (∀ action ∈ front ++ rest, ¬ action.Serves key) ∧
      Coalesced accumulator.policy.chunkSize key (WritePlan.stepsOf key below) block) ∧
    accumulator.actions.Pairwise (InTurn below) := by
  intro below
  have steps : below = childrenOf accumulator.steps := congrArg childrenOf accumulator.steps_changes
  rw [steps]
  exact ⟨BatchPolicy.chunkSize_of_valid,
    exists_coalesced BatchPolicy.chunkSize_pos accumulator.steps, stream_inTurn ..⟩

end Accumulator

end WritePlan
