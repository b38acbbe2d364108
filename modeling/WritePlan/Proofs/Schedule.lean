import WritePlan.Accumulator
import WritePlan.Proofs.GroupTable

namespace WritePlan

namespace GroupTable

def sorted (table : GroupTable) (before : Nat → Nat → Bool) : List Group :=
  table.groups.toList.mergeSort fun first second => before first.path.depth second.path.depth

theorem sorted_perm (table : GroupTable) (before : Nat → Nat → Bool) :
    (table.sorted before).Perm table.groups.toList := List.mergeSort_perm ..

theorem actions_eq (table : GroupTable) (before : Nat → Nat → Bool) (size : Option Nat) :
    table.actions before size = (table.sorted before).flatMap (Group.actions size) := rfl

theorem steps_actions (table : GroupTable) (before : Nat → Nat → Bool) (size : Option Nat) :
    (table.actions before size).flatMap Action.steps =
      ((table.sorted before).flatMap Group.steps).map Step.child := by
  rw [actions_eq, List.flatMap_assoc, List.map_flatMap]
  congr 1
  funext group
  exact Group.steps_actions size group

end GroupTable

def deeperFirst (first second : Nat) : Bool := second ≤ first

def shallowerFirst (first second : Nat) : Bool := first ≤ second

/-- Groups can be sorted by depth under such an order. -/
structure DepthOrder (before : Nat → Nat → Bool) : Prop where
  trans : ∀ a b c, before a b → before b c → before a c
  total : ∀ a b, before a b || before b a

theorem deeperFirst_order : DepthOrder deeperFirst := by
  constructor <;> simp only [deeperFirst, Bool.or_eq_true, decide_eq_true_eq] <;> omega

theorem shallowerFirst_order : DepthOrder shallowerFirst := by
  constructor <;> simp only [shallowerFirst, Bool.or_eq_true, decide_eq_true_eq] <;> omega

theorem DepthOrder.trans_by {before : Nat → Nat → Bool} (order : DepthOrder before) (depth : α → Nat)
    (first second third : α) : before (depth first) (depth second) →
      before (depth second) (depth third) → before (depth first) (depth third) :=
  order.trans (depth first) (depth second) (depth third)

theorem DepthOrder.total_by {before : Nat → Nat → Bool} (order : DepthOrder before) (depth : α → Nat)
    (first second : α) :
    before (depth first) (depth second) || before (depth second) (depth first) :=
  order.total (depth first) (depth second)

theorem GroupTable.sorted_pairwise (table : GroupTable) {before : Nat → Nat → Bool}
    (order : DepthOrder before) :
    (table.sorted before).Pairwise fun first second => before first.path.depth second.path.depth :=
  List.pairwise_mergeSort (order.trans_by fun group : Group => group.path.depth)
    (order.total_by fun group : Group => group.path.depth) _

/-- The steps at paths in the order of execution. -/
def arranged (before : Nat → Nat → Bool) (steps : List ChildStep) : List ChildStep :=
  ((GroupTable.ofSteps steps).sorted before).flatMap Group.steps

theorem stepsOf_arranged (before : Nat → Nat → Bool) (key : GroupKey) (steps : List ChildStep) :
    stepsOf key (arranged before steps) = stepsOf key steps :=
  (GroupTable.indexes_ofSteps steps).gathers.stepsOf_of_perm (GroupTable.sorted_perm ..) key

theorem mem_arranged {before : Nat → Nat → Bool} {steps : List ChildStep} {step : ChildStep} :
    step ∈ arranged before steps ↔ step ∈ steps := by
  have own : ∀ list : List ChildStep, step ∈ list ↔ step ∈ stepsOf step.groupKey list := by
    simp [mem_stepsOf]
  rw [own, stepsOf_arranged, ← own]

def rootsIn (phase : Phase) (steps : List Step) : List RootStep :=
  steps.filterMap (Step.rootIn phase)

def childrenIn (phase : Phase) (steps : List Step) : List ChildStep :=
  steps.filterMap (Step.childIn phase)

def childrenOf (steps : List Step) : List ChildStep :=
  steps.filterMap fun
    | .root _ => none
    | .child step => some step

/-- The part of a stream that belongs to a phase. -/
def streamIn (size : Option Nat) (steps : List Step) : Phase → List Action
  | .childDeletes => (GroupTable.ofSteps (childrenIn .childDeletes steps)).actions deeperFirst size
  | .childWrites => (GroupTable.ofSteps (childrenIn .childWrites steps)).actions shallowerFirst size
  | phase => rootActions phase steps

def Phase.all : List Phase := [.locks, .rootWrites, .childDeletes, .childWrites, .rootDeletes]

theorem stream_eq_flatMap (size : Option Nat) (steps : List Step) :
    stream size steps = Phase.all.flatMap (streamIn size steps) := by
  simp only [Phase.all, List.flatMap_cons, List.flatMap_nil, List.append_nil, streamIn]
  simp only [← List.append_assoc]
  rfl

def schedule (steps : List Step) : List Step :=
  (rootsIn .locks steps).map .root ++ (rootsIn .rootWrites steps).map .root ++
    (arranged deeperFirst (childrenIn .childDeletes steps)).map .child ++
    (arranged shallowerFirst (childrenIn .childWrites steps)).map .child ++
    (rootsIn .rootDeletes steps).map .root

private theorem steps_rootActions (phase : Phase) (steps : List Step) :
    (rootActions phase steps).flatMap Action.steps = (rootsIn phase steps).map .root := by
  rw [rootActions, List.flatMap_map]
  exact (List.map_eq_flatMap ..).symm

/-- Whatever the size of batches, a stream stands for the same steps in the same order. -/
theorem steps_stream (size : Option Nat) (steps : List Step) :
    (stream size steps).flatMap Action.steps = schedule steps := by
  simp only [stream, List.flatMap_append, steps_rootActions, GroupTable.steps_actions]
  rfl

def GroupKey.phase (key : GroupKey) : Phase :=
  match key.kind with
  | none => .childDeletes
  | some .delete => .childDeletes
  | some .update => .childWrites
  | some (.insert _) => .childWrites

/-- Keys are only of the phases below the roots. -/
theorem GroupKey.phase_below (key : GroupKey) :
    key.phase = .childDeletes ∨ key.phase = .childWrites := by
  unfold phase
  split <;> simp

theorem ChildStep.phase_groupKey (step : ChildStep) : step.groupKey.phase = step.work.phase := by
  obtain ⟨path, work⟩ := step
  cases work <;> rfl

variable {phase : Phase} {steps : List Step}

theorem mem_rootsIn {step : RootStep} :
    step ∈ rootsIn phase steps ↔ Step.root step ∈ steps ∧ step.phase = phase := by
  simp only [rootsIn, List.mem_filterMap]
  constructor
  · intro picked
    obtain ⟨other, member, found⟩ := picked
    cases other with
    | root own =>
      simp only [Step.rootIn, Option.ite_none_right_eq_some, Option.some.injEq] at found
      obtain ⟨same, rfl⟩ := found
      exact ⟨member, same⟩
    | child own => cases found
  · intro present
    obtain ⟨member, same⟩ := present
    exact ⟨.root step, member, by simp [Step.rootIn, same]⟩

theorem mem_childrenIn {step : ChildStep} :
    step ∈ childrenIn phase steps ↔ Step.child step ∈ steps ∧ step.work.phase = phase := by
  simp only [childrenIn, List.mem_filterMap]
  constructor
  · intro picked
    obtain ⟨other, member, found⟩ := picked
    cases other with
    | root own => cases found
    | child own =>
      simp only [Step.childIn, Option.ite_none_right_eq_some, Option.some.injEq] at found
      obtain ⟨same, rfl⟩ := found
      exact ⟨member, same⟩
  · intro present
    obtain ⟨member, same⟩ := present
    exact ⟨.child step, member, by simp [Step.childIn, same]⟩

theorem mem_childrenOf {step : ChildStep} : step ∈ childrenOf steps ↔ Step.child step ∈ steps := by
  simp only [childrenOf, List.mem_filterMap]
  constructor
  · intro picked
    obtain ⟨other, member, found⟩ := picked
    cases other with
    | root own => cases found
    | child own => exact Option.some.inj found ▸ member
  · exact fun member => ⟨.child step, member, rfl⟩

theorem childrenIn_eq_filter (phase : Phase) (steps : List Step) :
    childrenIn phase steps = (childrenOf steps).filter fun step => step.work.phase = phase := by
  rw [childrenIn, childrenOf, List.filter_filterMap]
  congr 1
  funext step
  cases step with
  | root => rfl
  | child step => by_cases own : step.work.phase = phase <;> simp [Step.childIn, Option.filter, own]

/-- All steps of a key are in the phase of the key. -/
theorem stepsOf_childrenIn (key : GroupKey) (steps : List Step) :
    stepsOf key (childrenIn key.phase steps) = stepsOf key (childrenOf steps) := by
  rw [childrenIn_eq_filter, stepsOf, List.filter_filter]
  apply List.filter_congr
  intro step _
  by_cases own : step.groupKey = key
  · simp [own, ← step.phase_groupKey]
  · simp [own]

/-- Picking from items of which either all or none are picked. -/
private theorem filterMap_map_of_all {inject : α → β} {pick : β → Option α} {items : List α}
    {kept : Prop} [Decidable kept]
    (picked : ∀ item ∈ items, pick (inject item) = if kept then some item else none) :
    (items.map inject).filterMap pick = if kept then items else [] := by
  rw [List.filterMap_map]
  refine (List.filterMap_congr picked).trans ?_
  by_cases all : kept
  · simp [all]
  · simp [all]

@[simp] theorem rootsIn_append (phase : Phase) (front rest : List Step) :
    rootsIn phase (front ++ rest) = rootsIn phase front ++ rootsIn phase rest :=
  List.filterMap_append

@[simp] theorem childrenIn_append (phase : Phase) (front rest : List Step) :
    childrenIn phase (front ++ rest) = childrenIn phase front ++ childrenIn phase rest :=
  List.filterMap_append

@[simp] theorem rootsIn_child (phase : Phase) (children : List ChildStep) :
    rootsIn phase (children.map .child) = [] := by
  simp [rootsIn, Step.rootIn]

@[simp] theorem childrenIn_root (phase : Phase) (roots : List RootStep) :
    childrenIn phase (roots.map .root) = [] := by
  simp [childrenIn, Step.childIn]

@[simp] theorem rootsIn_rootsIn (phase own : Phase) (steps : List Step) :
    rootsIn phase ((rootsIn own steps).map .root) = if own = phase then rootsIn own steps else [] :=
  filterMap_map_of_all fun step member => by simp [Step.rootIn, (mem_rootsIn.mp member).2]

@[simp] theorem childrenIn_arranged (phase own : Phase) (before : Nat → Nat → Bool) (steps : List Step) :
    childrenIn phase ((arranged before (childrenIn own steps)).map .child) =
      if own = phase then arranged before (childrenIn own steps) else [] :=
  filterMap_map_of_all fun step member => by
    simp [Step.childIn, (mem_childrenIn.mp (mem_arranged.mp member)).2]

/-- Steps at roots are never in the phases below the roots. -/
theorem rootsIn_eq_nil (below : phase = .childDeletes ∨ phase = .childWrites) :
    rootsIn phase steps = [] := by
  apply List.eq_nil_iff_forall_not_mem.mpr
  intro step member
  have same := (mem_rootsIn.mp member).2
  rcases below with rfl | rfl <;> cases step <;> cases same

theorem rootsIn_schedule (phase : Phase) (steps : List Step) :
    rootsIn phase (schedule steps) = rootsIn phase steps := by
  cases phase with
  | childDeletes => rw [rootsIn_eq_nil (.inl rfl), rootsIn_eq_nil (.inl rfl)]
  | childWrites => rw [rootsIn_eq_nil (.inr rfl), rootsIn_eq_nil (.inr rfl)]
  | _ => simp [schedule]

theorem childrenIn_schedule_deletes (steps : List Step) :
    childrenIn .childDeletes (schedule steps) =
      arranged deeperFirst (childrenIn .childDeletes steps) := by
  simp [schedule]

theorem childrenIn_schedule_writes (steps : List Step) :
    childrenIn .childWrites (schedule steps) =
      arranged shallowerFirst (childrenIn .childWrites steps) := by
  simp [schedule]

/-- A schedule keeps the steps of one key as they are. -/
theorem stepsOf_schedule (key : GroupKey) (steps : List Step) :
    stepsOf key (childrenOf (schedule steps)) = stepsOf key (childrenOf steps) := by
  rw [← stepsOf_childrenIn, ← stepsOf_childrenIn]
  rcases key.phase_below with deletes | writes
  · rw [deletes, childrenIn_schedule_deletes, stepsOf_arranged]
  · rw [writes, childrenIn_schedule_writes, stepsOf_arranged]

end WritePlan
