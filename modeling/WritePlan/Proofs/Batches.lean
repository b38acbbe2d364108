import WritePlan.Proofs.GroupActions
import WritePlan.Proofs.Runs
import WritePlan.Proofs.Schedule
import WritePlan.Schema

/-! The batches of a stream. Each is a piece of at least two steps of one key, cut from all
steps of that key, and takes its path from the first of these. Since the key of a step leaves
out the type at the end of its path, a batch may hold steps of other types than its own. -/
namespace WritePlan

private theorem GroupTable.mem_actions {children : List ChildStep} {before : Nat → Nat → Bool}
    {size : Option Nat} {action : Action} :
    action ∈ (GroupTable.ofSteps children).actions before size ↔
      ∃ group ∈ (GroupTable.ofSteps children).groups.toList, action ∈ group.actions size := by
  rw [actions_eq, List.mem_flatMap]
  simp only [(sorted_perm ..).mem_iff]

/-- A batch made of the steps of a key: a piece of at least two of them, with the path of the
first. -/
structure BatchOf (size : Option Nat) (children : List ChildStep) (key : GroupKey) (path : Path)
    (kind : BatchKind) (members : List ChildStep) : Prop where
  kinds : key.kind = some kind
  first : (stepsOf key children).head?.map ChildStep.path = some path
  piece : members ∈ chunks size (stepsOf key children)
  several : 2 ≤ members.length

variable {size : Option Nat} {path : Path} {kind : BatchKind} {members : List ChildStep}

theorem BatchOf.seen {children : List ChildStep} {key : GroupKey}
    (batch : BatchOf size children key path kind members) : key ∈ keysOf children := by
  by_contra absent
  have first := batch.first
  rw [stepsOf_eq_nil.mpr absent] at first
  cases first

theorem GroupTable.batch_mem_actions {children : List ChildStep} {before : Nat → Nat → Bool} :
    Action.batch path kind members ∈ (GroupTable.ofSteps children).actions before size ↔
      ∃ key, BatchOf size children key path kind members := by
  have gathers := (GroupTable.indexes_ofSteps children).gathers
  rw [GroupTable.mem_actions]
  constructor
  · intro present
    obtain ⟨group, member, own⟩ := present
    obtain ⟨kinds, rfl, piece, several⟩ := Group.batch_mem_actions.mp own
    have steps := gathers.members group member
    exact ⟨group.key, kinds, steps ▸ gathers.first group member, steps ▸ piece, several⟩
  · intro found
    obtain ⟨key, batch⟩ := found
    obtain ⟨group, member, rfl⟩ := gathers.exists_of_key batch.seen
    have steps := gathers.members group member
    have path : group.path = path :=
      Option.some.inj ((gathers.first group member).symm.trans (steps ▸ batch.first))
    have piece : members ∈ chunks size group.steps := steps ▸ batch.piece
    exact ⟨group, member, Group.batch_mem_actions.mpr ⟨batch.kinds, path, piece, batch.several⟩⟩

variable {steps : List Step}

private theorem batchOf_childrenIn {phase : Phase} {key : GroupKey} :
    BatchOf size (childrenIn phase steps) key path kind members ↔
      key.phase = phase ∧ BatchOf size (childrenOf steps) key path kind members := by
  constructor
  · intro batch
    obtain ⟨step, own, shared⟩ := mem_keysOf.mp batch.seen
    have phases : key.phase = phase := by
      rw [← shared, step.phase_groupKey, (mem_childrenIn.mp own).2]
    obtain ⟨kinds, first, piece, several⟩ := batch
    rw [← phases, stepsOf_childrenIn] at first piece
    exact ⟨phases, kinds, first, piece, several⟩
  · intro found
    obtain ⟨rfl, kinds, first, piece, several⟩ := found
    rw [← stepsOf_childrenIn] at first piece
    exact ⟨kinds, first, piece, several⟩

private theorem batch_mem_streamIn {phase : Phase} :
    Action.batch path kind members ∈ streamIn size steps phase ↔
      ∃ key : GroupKey, key.phase = phase ∧ BatchOf size (childrenOf steps) key path kind members := by
  cases phase with
  | childDeletes => simp only [streamIn, GroupTable.batch_mem_actions, batchOf_childrenIn]
  | childWrites => simp only [streamIn, GroupTable.batch_mem_actions, batchOf_childrenIn]
  | _ =>
    constructor
    · intro present
      simp [streamIn, rootActions] at present
    · intro found
      obtain ⟨key, own, _⟩ := found
      rcases key.phase_below with below | below <;> cases own.symm.trans below

theorem batch_mem_stream :
    Action.batch path kind members ∈ stream size steps ↔
      ∃ key, BatchOf size (childrenOf steps) key path kind members := by
  rw [stream_eq_flatMap, List.mem_flatMap]
  constructor
  · intro present
    obtain ⟨phase, _, own⟩ := present
    obtain ⟨key, _, batch⟩ := batch_mem_streamIn.mp own
    exact ⟨key, batch⟩
  · intro found
    obtain ⟨key, batch⟩ := found
    have listed : key.phase ∈ Phase.all := by cases key.phase <;> decide
    exact ⟨key.phase, listed, batch_mem_streamIn.mpr ⟨key, rfl, batch⟩⟩

/-- The steps of an action are of its type. -/
def Action.OneType (action : Action) : Prop := ∀ step ∈ action.split, step.type = action.type

theorem Action.oneType_batch :
    (Action.batch path kind members).OneType ↔ ∀ step ∈ members, step.path.type = path.type := by
  simp [OneType, split, steps, ofStep, type]

theorem Action.exists_batch {action : Action} (batch : action.isBatch = true) :
    ∃ path kind members, action = .batch path kind members := by
  cases action with
  | root step => cases step <;> cases batch
  | child step =>
    obtain ⟨path, work⟩ := step
    cases work <;> cases batch
  | batch path kind members => exact ⟨path, kind, members, rfl⟩

theorem Action.isBatch_batch (path : Path) (kind : BatchKind) (members : List ChildStep) :
    (Action.batch path kind members).isBatch = true := by
  cases kind <;> rfl

/-- The batches of a stream are of one type each if, of the steps of a key, those that are put
into batches have the type of the first. -/
theorem stream_oneType_iff :
    (∀ action ∈ stream size steps, action.isBatch → action.OneType) ↔
      ∀ key : GroupKey, key.kind ≠ none →
        ∀ piece ∈ chunks size (stepsOf key (childrenOf steps)), 2 ≤ piece.length →
          ∀ step ∈ piece, ∀ first ∈ (stepsOf key (childrenOf steps)).head?,
            step.path.type = first.path.type := by
  constructor
  · intro uniform key kinds piece cut several step member first head
    obtain ⟨kind, own⟩ := Option.ne_none_iff_exists'.mp kinds
    have present : Action.batch first.path kind piece ∈ stream size steps :=
      batch_mem_stream.mpr ⟨key, own, by rw [Option.mem_def.mp head]; rfl, cut, several⟩
    exact Action.oneType_batch.mp (uniform _ present (Action.isBatch_batch ..)) step member
  · intro uniform action present batch
    obtain ⟨path, kind, members, rfl⟩ := Action.exists_batch batch
    obtain ⟨key, own⟩ := batch_mem_stream.mp present
    obtain ⟨first, found, rfl⟩ := Option.map_eq_some_iff.mp own.first
    exact Action.oneType_batch.mpr fun step member =>
      uniform key (by simp [own.kinds]) members own.piece own.several step member first found

/-- Steps of one key have one type, unless their work is never batched. -/
def OneTypePerKey (steps : List Step) : Prop :=
  ∀ first second, Step.child first ∈ steps → Step.child second ∈ steps →
    first.groupKey = second.groupKey → first.work.batchKind? ≠ none →
      first.path.type = second.path.type

private theorem stream_oneType_of_keys (typed : OneTypePerKey steps) (size : Option Nat) :
    ∀ action ∈ stream size steps, action.isBatch → action.OneType := by
  apply stream_oneType_iff.mpr
  intro key kinds piece cut several step member first head
  obtain ⟨here, own⟩ := mem_stepsOf.mp (mem_of_mem_chunks cut member)
  obtain ⟨there, other⟩ := mem_stepsOf.mp (List.mem_of_head? head)
  subst own
  exact typed step first (mem_childrenOf.mp here) (mem_childrenOf.mp there) other.symm kinds

private theorem keys_of_stream_oneType
    (uniform : ∀ action ∈ stream none steps, action.isBatch → action.OneType) :
    OneTypePerKey steps := by
  intro first second left right same kinds
  have whole := stream_oneType_iff.mp uniform first.groupKey kinds
  have here : first ∈ stepsOf first.groupKey (childrenOf steps) :=
    mem_stepsOf.mpr ⟨mem_childrenOf.mpr left, rfl⟩
  have there : second ∈ stepsOf first.groupKey (childrenOf steps) :=
    mem_stepsOf.mpr ⟨mem_childrenOf.mpr right, same.symm⟩
  match found : stepsOf first.groupKey (childrenOf steps) with
  | [] => simp [found] at here
  | [only] =>
    rw [found, List.mem_singleton] at here there
    rw [here, there]
  | head :: other :: rest =>
    rw [found] at whole here there
    have typed := whole (head :: other :: rest) (by simp [chunks]) (by simp)
    rw [typed first here head rfl, typed second there head rfl]

namespace Accumulator

/-- The steps of a key among all accumulated steps. -/
def stepsOf (accumulator : Accumulator) (key : GroupKey) : List ChildStep :=
  WritePlan.stepsOf key (childrenOf accumulator.steps)

/-- When the batches of an accumulator are of one type each: under its policy, if the steps
that are put into batches have the type of the first step of their key; under every policy, if
the steps of each key have one type. -/
theorem batches_oneType_iff (accumulator : Accumulator) :
    ((∀ action ∈ accumulator.actions, action.isBatch → action.OneType) ↔
      ∀ key : GroupKey, key.kind ≠ none →
        ∀ piece ∈ chunks accumulator.policy.chunkSize (accumulator.stepsOf key), 2 ≤ piece.length →
          ∀ step ∈ piece, ∀ first ∈ (accumulator.stepsOf key).head?,
            step.path.type = first.path.type) ∧
    ((∀ policy other, accumulator.withPolicy policy = .ok other →
        ∀ action ∈ other.actions, action.isBatch → action.OneType) ↔
      OneTypePerKey accumulator.steps) := by
  refine ⟨stream_oneType_iff, ?_, ?_⟩
  · intro uniform
    exact keys_of_stream_oneType
      (uniform .standard _ (withPolicy_eq_ok.mpr ⟨by decide, rfl⟩))
  · intro typed policy other accepted
    obtain ⟨_, rfl⟩ := withPolicy_eq_ok.mp accepted
    exact stream_oneType_of_keys typed _

end Accumulator

/-- Orders and carts both have lines, but of different types. -/
private def lined (owner target : EntityType) : EntityMapping :=
  ⟨owner, owner.name, [⟨"line", owner, .entity target, "line", some "owner", none, false, false⟩]⟩

private def shop : Schema where
  naming := .snake
  mappings := [lined ⟨"order"⟩ ⟨"order_line"⟩, ⟨⟨"order_line"⟩, "order_line", []⟩,
    lined ⟨"cart"⟩ ⟨"cart_line"⟩, ⟨⟨"cart_line"⟩, "cart_line", []⟩]

private def lineOf (owner target : EntityType) : Path :=
  ⟨.root owner, ⟨"line", target, false, false, false⟩⟩

private def lineDeletes : Change :=
  ((Change.deleteByType ⟨"order"⟩ none).add
    (.child ⟨lineOf ⟨"order"⟩ ⟨"order_line"⟩, .delete (.integer 1) none⟩)).add
    (.child ⟨lineOf ⟨"cart"⟩ ⟨"cart_line"⟩, .delete (.integer 2) none⟩)

/-- A change to an order may delete lines of an order and of a cart. Both paths have the same
segments, and the stream deletes the two lines as one batch of order lines. -/
theorem batch_of_two_types :
    shop.resolve ⟨"order"⟩ "line" = .ok (lineOf ⟨"order"⟩ ⟨"order_line"⟩) ∧
    shop.resolve ⟨"cart"⟩ "line" = .ok (lineOf ⟨"cart"⟩ ⟨"cart_line"⟩) ∧
    ∃ accumulator, (Accumulator.new .delete ⟨"order"⟩).addAll [lineDeletes] = .ok accumulator ∧
      ¬ ∀ action ∈ accumulator.actions, action.isBatch → action.OneType := by
  refine ⟨rfl, rfl, _, Accumulator.addAll_eq_ok.mpr ⟨?_, rfl⟩, ?_⟩
  · intro change member
    obtain rfl := List.mem_singleton.mp member
    exact ⟨rfl, rfl⟩
  · intro uniform
    have typed := keys_of_stream_oneType uniform
    have same := typed ⟨lineOf ⟨"order"⟩ ⟨"order_line"⟩, .delete (.integer 1) none⟩
      ⟨lineOf ⟨"cart"⟩ ⟨"cart_line"⟩, .delete (.integer 2) none⟩ (.head _) (.tail _ (.head _)) rfl nofun
    revert same
    decide

end WritePlan
