import WritePlan.Proofs.GroupActions
import WritePlan.Proofs.Schedule

/-! The order of execution: phase by phase, deletes from the deepest paths up, and writes from
the shallowest paths down. No row is deleted before the rows below it, and none is written
before the rows above it. -/
namespace WritePlan

def Phase.rank : Phase → Nat
  | .locks => 0
  | .rootWrites => 1
  | .childDeletes => 2
  | .childWrites => 3
  | .rootDeletes => 4

def ActionKind.phase : ActionKind → Phase
  | .lockRoot => .locks
  | .lockAllRoot => .locks
  | .insertRoot => .rootWrites
  | .updateRoot => .rootWrites
  | .delete => .childDeletes
  | .deleteAll => .childDeletes
  | .batchDelete => .childDeletes
  | .insert => .childWrites
  | .update => .childWrites
  | .batchInsert => .childWrites
  | .batchUpdate => .childWrites
  | .deleteRoot => .rootDeletes
  | .deleteAllRoot => .rootDeletes

theorem RootStep.phase_kind (step : RootStep) : step.kind.phase = step.phase := by
  cases step <;> rfl

theorem ChildStep.phase_kind (step : ChildStep) : step.work.kind.phase = step.groupKey.phase := by
  obtain ⟨path, work⟩ := step
  cases work <;> rfl

private theorem Group.phase_kind {group : Group} {kind : BatchKind} (own : group.kind = some kind) :
    kind.kind.phase = group.key.phase := by
  cases kind <;> simp [GroupKey.phase, Group.key, own, BatchKind.kind, ActionKind.phase]

namespace Path

theorem depth_eq_length (path : Path) : path.depth = path.segments.length :=
  (length_segments path.place).symm

theorem depth_lt_of_isAncestorOf {above below : Path} (ancestor : above.isAncestorOf below = true) :
    above.depth < below.depth := by
  simp only [isAncestorOf, Bool.and_eq_true, decide_eq_true_eq] at ancestor
  exact ancestor.1

end Path

namespace Action

def phase (action : Action) : Phase := action.kind.phase

/-- How far below the root an action works; actions on roots have depth zero. -/
def depth (action : Action) : Nat := (action.path?.map Path.depth).getD 0

/-- The order in which two actions may stand in a stream. -/
structure InOrder (first second : Action) : Prop where
  phases : first.phase.rank ≤ second.phase.rank
  deletes : first.phase = .childDeletes → second.phase = .childDeletes → second.depth ≤ first.depth
  writes : first.phase = .childWrites → second.phase = .childWrites → first.depth ≤ second.depth

/-- What rows that refer to each other need of two actions, the first of which comes before
the second. -/
structure Safe (first second : Action) : Prop where
  locksFirst : second.phase = .locks → first.phase = .locks
  /-- Rows are not deleted before those below them. -/
  deletesUpward : first.phase = .childDeletes → second.phase = .childDeletes →
    ∀ above ∈ first.path?, ∀ below ∈ second.path?, ¬ above.isAncestorOf below
  /-- Rows are not written before those above them. -/
  writesDownward : first.phase = .childWrites → second.phase = .childWrites →
    ∀ below ∈ first.path?, ∀ above ∈ second.path?, ¬ above.isAncestorOf below
  deletesBeforeWrites : first.phase = .childWrites → second.phase ≠ .childDeletes
  rootDeletesLast : first.phase = .rootDeletes → second.phase = .rootDeletes

variable {first second : Action}

private theorem depth_of_mem_path? {path : Path}
    (member : path ∈ first.path?) : first.depth = path.depth := by
  rw [depth, Option.mem_def.mp member]
  rfl

theorem InOrder.safe (ordered : InOrder first second) : Safe first second where
  locksFirst own := by
    have phases := ordered.phases
    cases same : first.phase <;> simp_all [Phase.rank]
  deletesUpward left right above present below found ancestor := by
    have depths := ordered.deletes left right
    rw [depth_of_mem_path? present, depth_of_mem_path? found] at depths
    exact absurd (Path.depth_lt_of_isAncestorOf ancestor) (by omega)
  writesDownward left right below present above found ancestor := by
    have depths := ordered.writes left right
    rw [depth_of_mem_path? present, depth_of_mem_path? found] at depths
    exact absurd (Path.depth_lt_of_isAncestorOf ancestor) (by omega)
  deletesBeforeWrites own other := by
    have phases := ordered.phases
    simp [own, other, Phase.rank] at phases
  rootDeletesLast own := by
    have phases := ordered.phases
    cases same : second.phase <;> simp_all [Phase.rank]

private theorem InOrder.of_rank_lt
    (earlier : first.phase.rank < second.phase.rank) : InOrder first second where
  phases := by omega
  deletes left right := by simp [left, right] at earlier
  writes left right := by simp [left, right] at earlier

private theorem InOrder.of_phase_eq {phase : Phase} (left : first.phase = phase)
    (right : second.phase = phase) (deletes : phase = .childDeletes → second.depth ≤ first.depth)
    (writes : phase = .childWrites → first.depth ≤ second.depth) : InOrder first second where
  phases := Nat.le_of_eq (congrArg Phase.rank (left.trans right.symm))
  deletes own _ := deletes (left ▸ own)
  writes own _ := writes (left ▸ own)

end Action

private theorem phase_of_mem_rootActions {phase : Phase} {steps : List Step} {action : Action}
    (member : action ∈ rootActions phase steps) : action.phase = phase ∧ action.depth = 0 := by
  obtain ⟨step, own, rfl⟩ := List.mem_map.mp member
  exact ⟨step.phase_kind.trans (mem_rootsIn.mp own).2, rfl⟩

private theorem Group.Uniform.phase_depth {group : Group} (uniform : group.Uniform)
    {size : Option Nat} {action : Action} (member : action ∈ group.actions size) :
    action.phase = group.key.phase ∧ action.depth = group.path.depth := by
  cases action with
  | root step => exact absurd member root_not_mem_actions
  | child step =>
    have shared := uniform.shared step (mem_of_child_mem_actions member)
    have segments : step.path.segments = group.path.segments := congrArg GroupKey.segments shared
    refine ⟨shared ▸ step.phase_kind, ?_⟩
    rw [Path.depth_eq_length, ← segments, ← Path.depth_eq_length]
    rfl
  | batch path kind members =>
    obtain ⟨own, rfl, _⟩ := batch_mem_actions.mp member
    exact ⟨Group.phase_kind own, rfl⟩

private theorem key_phase_of_mem_sorted {phase : Phase} {steps : List Step}
    {before : Nat → Nat → Bool}
    {group : Group} (member : group ∈ (GroupTable.ofSteps (childrenIn phase steps)).sorted before) :
    group.Uniform ∧ group.key.phase = phase := by
  have gathers := (GroupTable.indexes_ofSteps (childrenIn phase steps)).gathers
  rw [(GroupTable.sorted_perm ..).mem_iff] at member
  have seen : group.key ∈ keysOf (childrenIn phase steps) :=
    gathers.keys ▸ List.mem_map_of_mem member
  obtain ⟨step, own, key⟩ := mem_keysOf.mp seen
  refine ⟨gathers.uniform member, ?_⟩
  rw [← key, step.phase_groupKey]
  exact (mem_childrenIn.mp own).2

/-- The actions of one phase below the roots are of that phase, and their depths follow the
order of the groups. -/
theorem childActions_ordered {before : Nat → Nat → Bool} (order : DepthOrder before) (phase : Phase)
    (size : Option Nat) (steps : List Step) :
    (∀ action ∈ (GroupTable.ofSteps (childrenIn phase steps)).actions before size,
      action.phase = phase) ∧
    ((GroupTable.ofSteps (childrenIn phase steps)).actions before size).Pairwise
      fun first second => before first.depth second.depth := by
  rw [GroupTable.actions_eq]
  constructor
  · intro action member
    obtain ⟨group, present, own⟩ := List.mem_flatMap.mp member
    obtain ⟨uniform, same⟩ := key_phase_of_mem_sorted present
    rw [(uniform.phase_depth own).1, same]
  · apply List.pairwise_flatMap.mpr
    constructor
    · intro group present
      obtain ⟨uniform, _⟩ := key_phase_of_mem_sorted present
      apply List.pairwise_of_forall_mem_list
      intro first left second right
      rw [(uniform.phase_depth left).2, (uniform.phase_depth right).2]
      simpa using order.total group.path.depth group.path.depth
    · refine (GroupTable.sorted_pairwise _ order).imp_of_mem ?_
      intro group other present found ordered first left second right
      rw [((key_phase_of_mem_sorted present).1.phase_depth left).2,
        ((key_phase_of_mem_sorted found).1.phase_depth right).2]
      exact ordered

theorem phase_of_mem_streamIn {size : Option Nat} {steps : List Step} {phase : Phase}
    {action : Action} (member : action ∈ streamIn size steps phase) : action.phase = phase := by
  cases phase with
  | childDeletes => exact (childActions_ordered deeperFirst_order _ size steps).1 action member
  | childWrites => exact (childActions_ordered shallowerFirst_order _ size steps).1 action member
  | _ => exact (phase_of_mem_rootActions member).1

theorem streamIn_ordered (size : Option Nat) (steps : List Step) (phase : Phase) :
    (streamIn size steps phase).Pairwise Action.InOrder := by
  have own {action : Action} (member : action ∈ streamIn size steps phase) : action.phase = phase :=
    phase_of_mem_streamIn member
  cases phase with
  | childDeletes =>
    refine (childActions_ordered deeperFirst_order _ size steps).2.imp_of_mem ?_
    intro first second left right deeper
    refine .of_phase_eq (own left) (own right) (fun _ => ?_) (fun other => by cases other)
    simpa [deeperFirst] using deeper
  | childWrites =>
    refine (childActions_ordered shallowerFirst_order _ size steps).2.imp_of_mem ?_
    intro first second left right shallower
    refine .of_phase_eq (own left) (own right) (fun other => by cases other) (fun _ => ?_)
    simpa [shallowerFirst] using shallower
  | _ =>
    refine List.pairwise_of_forall_mem_list fun first left second right => ?_
    exact .of_phase_eq (own left) (own right) (fun other => by cases other) (fun other => by cases other)

theorem stream_ordered (size : Option Nat) (steps : List Step) :
    (stream size steps).Pairwise Action.InOrder := by
  rw [stream_eq_flatMap, List.pairwise_flatMap]
  refine ⟨fun phase _ => streamIn_ordered size steps phase, ?_⟩
  have ranks : Phase.all.Pairwise fun first second => first.rank < second.rank := by decide
  refine ranks.imp fun earlier first left second right => .of_rank_lt ?_
  rwa [phase_of_mem_streamIn left, phase_of_mem_streamIn right]

namespace Accumulator

/-- Of any two actions of a stream, the first may come before the second: phases follow one
another, deletes go up and writes go down. So no row is deleted before the rows below it, and
none is written before the rows above it. -/
theorem actions_in_order (accumulator : Accumulator) :
    accumulator.actions.Pairwise fun first second => first.InOrder second ∧ first.Safe second :=
  (stream_ordered accumulator.policy.chunkSize accumulator.steps).imp fun ordered =>
    ⟨ordered, ordered.safe⟩

end Accumulator

end WritePlan
