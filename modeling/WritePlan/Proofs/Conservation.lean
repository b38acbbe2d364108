import WritePlan.Proofs.Runs
import WritePlan.Proofs.Schedule
import Mathlib.Algebra.GroupWithZero.Nat

namespace WritePlan

/-- Where the order of steps counts: among the steps of one phase at the roots, and among steps
that do the same kind of work at the same path. -/
inductive Lane
  | root (phase : Phase)
  | rows (key : GroupKey)
deriving DecidableEq

def Step.lane : Step → Lane
  | .root step => .root step.phase
  | .child step => .rows step.groupKey

private theorem filter_lane_root (phase : Phase) (steps : List Step) :
    steps.filter (fun step => step.lane = .root phase) = (rootsIn phase steps).map .root := by
  induction steps with
  | nil => rfl
  | cons step rest ih =>
    cases step with
    | root step =>
      by_cases own : step.phase = phase
      · simpa [rootsIn, Step.lane, Step.rootIn, own] using ih
      · simpa [rootsIn, Step.lane, Step.rootIn, own] using ih
    | child step => simpa [rootsIn, Step.lane, Step.rootIn, List.filterMap_cons] using ih

theorem filter_lane_rows (key : GroupKey) (steps : List Step) :
    steps.filter (fun step => step.lane = .rows key) =
      (stepsOf key (childrenOf steps)).map .child := by
  induction steps with
  | nil => rfl
  | cons step rest ih =>
    cases step with
    | root step => simpa [childrenOf, Step.lane, List.filterMap_cons] using ih
    | child step =>
      by_cases own : step.groupKey = key
      · simpa [childrenOf, stepsOf, Step.lane, own] using ih
      · simpa [childrenOf, stepsOf, Step.lane, own] using ih

theorem filter_lane_schedule (lane : Lane) (steps : List Step) :
    (schedule steps).filter (fun step => step.lane = lane) =
      steps.filter (fun step => step.lane = lane) := by
  cases lane with
  | root phase => rw [filter_lane_root, filter_lane_root, rootsIn_schedule]
  | rows key => rw [filter_lane_rows, filter_lane_rows, stepsOf_schedule]

/-- Lists with the same items in every class have the same items. -/
private theorem perm_of_filter_eq [DecidableEq β] {left right : List α} (classOf : α → β)
    (same : ∀ own, left.filter (fun item => classOf item = own) =
      right.filter (fun item => classOf item = own)) : left.Perm right := by
  classical
  rw [List.perm_iff_count]
  intro item
  have counts := congrArg (List.count item) (same (classOf item))
  rwa [List.count_filter (by simp), List.count_filter (by simp)] at counts

theorem schedule_perm (steps : List Step) : (schedule steps).Perm steps :=
  perm_of_filter_eq Step.lane fun lane => filter_lane_schedule lane steps

theorem sum_memberCount (actions : List Action) :
    (actions.map Action.memberCount).sum = (actions.flatMap Action.steps).length := by
  rw [List.length_flatMap]
  rfl

namespace Accumulator

/-- The stream of an accumulator loses, repeats and changes no step of the actions that its changes
hold: in each lane it has these steps in the order in which they came, so that in all it has these
steps and nothing else. What accepted changes bring is behind what is there. -/
theorem actions_conserve_steps (accumulator : Accumulator) :
    let held := (accumulator.changes.flatMap Change.actions).flatMap Action.steps
    (∀ lane : Lane,
      (accumulator.actions.flatMap Action.steps).filter (fun step => step.lane = lane) =
        held.filter (fun step => step.lane = lane)) ∧
      (accumulator.actions.flatMap Action.steps).Perm held ∧
      (accumulator.actions.map Action.memberCount).sum = held.length ∧
      ∀ changes next, accumulator.addAll changes = .ok next →
        (next.changes.flatMap Change.actions).flatMap Action.steps =
          held ++ (changes.flatMap Change.actions).flatMap Action.steps := by
  intro held
  have steps : held = accumulator.steps := accumulator.steps_changes
  have schedules : accumulator.actions.flatMap Action.steps = schedule held := by
    rw [steps]
    exact steps_stream ..
  have perm := schedule_perm held
  rw [sum_memberCount, schedules]
  refine ⟨fun lane => filter_lane_schedule lane held, perm, perm.length_eq, ?_⟩
  intro changes next accepted
  obtain ⟨_, rfl⟩ := addAll_eq_ok.mp accepted
  rw [List.flatMap_append, List.flatMap_append]

end Accumulator

end WritePlan
