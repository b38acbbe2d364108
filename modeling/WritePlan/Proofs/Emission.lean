import WritePlan.Emission
import WritePlan.Proofs.Dispatch

namespace WritePlan

namespace Collected

def ofSteps (steps : List Step) : Collected where
  locks := (rootsIn .locks steps).toArray
  rootWrites := (rootsIn .rootWrites steps).toArray
  deletes := GroupTable.ofSteps (childrenIn .childDeletes steps)
  writes := GroupTable.ofSteps (childrenIn .childWrites steps)
  rootDeletes := (rootsIn .rootDeletes steps).toArray

private theorem take_ofSteps (steps : List Step) (step : Step) :
    (ofSteps steps).take step = ofSteps (steps ++ [step]) := by
  cases step with
  | root step =>
    cases step <;> simp [take, ofSteps, rootsIn, childrenIn, Step.rootIn, Step.childIn,
      RootStep.phase, List.filterMap_cons]
  | child step =>
    obtain ⟨path, work⟩ := step
    cases work <;> simp [take, ofSteps, rootsIn, childrenIn, Step.rootIn, Step.childIn,
      RowWork.phase, List.filterMap_cons, GroupTable.ofSteps]

private theorem foldl_take_ofSteps (steps more : List Step) :
    more.foldl take (ofSteps steps) = ofSteps (steps ++ more) := by
  induction more generalizing steps with
  | nil => simp
  | cons step rest ih =>
    rw [List.foldl_cons, take_ofSteps, ih, List.append_assoc]
    rfl

theorem push_eq_foldl_take (collected : Collected) (action : Action) :
    collected.push action = action.steps.foldl take collected := by
  cases action with
  | root step => rfl
  | child step => rfl
  | batch path kind members => exact List.foldl_map.symm

theorem forEach_ofSteps (steps : List Step) (size : Option Nat) (consume : σ → Action → σ) (state : σ) :
    (ofSteps steps).forEach size consume state = (stream size steps).foldl consume state := by
  simp only [forEach, ofSteps, stream, rootActions, List.foldl_append, List.foldl_map,
    List.foldl_toArray']
  rfl

end Collected

theorem Action.ofStep_injective : Function.Injective Action.ofStep := by
  intro first second same
  cases first <;> cases second <;> cases same <;> rfl

namespace Accumulator

variable (accumulator : Accumulator)

theorem collect_eq_ofSteps : accumulator.collect = .ofSteps accumulator.steps := by
  have taken := Collected.foldl_take_ofSteps [] accumulator.steps
  rw [List.nil_append] at taken
  rw [← taken, steps, List.foldl_flatMap, collect]
  congr 1
  funext collected change
  rw [Change.steps, List.foldl_flatMap]
  congr 1
  funext collected action
  exact collected.push_eq_foldl_take action

theorem forEachAction_eq_foldl (consume : σ → Action → σ) (state : σ) :
    accumulator.forEachAction consume state = accumulator.actions.foldl consume state := by
  rw [forEachAction, collect_eq_ofSteps, Collected.forEach_ofSteps]
  rfl

/-- The actions of all changes, batches taken apart, are the accumulated steps. -/
theorem split_changes :
    (accumulator.changes.flatMap Change.actions).flatMap Action.split =
      accumulator.steps.map Action.ofStep := by
  rw [← accumulator.steps_changes, List.map_flatMap]
  rfl

variable {first second : Accumulator}

/-- Two accumulators with pieces of one size hand the same actions on if their changes, batches taken
apart, have the same single actions in the same order. How these are cut into changes and
batches, and what else the changes and accumulators hold, makes no difference. Their streams are the
same too if the limits are, or if the single actions can be counted in a machine word, since no limit
then is no different from the largest size. -/
theorem forEachAction_eq_of_split (sizes : first.policy.pieceSize = second.policy.pieceSize)
    (work : (first.changes.flatMap Change.actions).flatMap Action.split =
      (second.changes.flatMap Change.actions).flatMap Action.split) :
    (∀ (σ : Type) (consume : σ → Action → σ) (state : σ),
      first.dispatch consume state = second.dispatch consume state) ∧
    (first.policy.chunkSize = second.policy.chunkSize ∨
        ((first.changes.flatMap Change.actions).flatMap Action.split).length < UInt64.size →
      first.actions = second.actions ∧
      ∀ (σ : Type) (consume : σ → Action → σ) (state : σ),
        first.forEachAction consume state = second.forEachAction consume state) := by
  have steps : first.steps = second.steps := by
    rw [split_changes, split_changes] at work
    exact Action.ofStep_injective.list_map work
  constructor
  · intro σ consume state
    rw [dispatch_eq, dispatch_eq, sizes, steps]
  · intro alike
    have actions : first.actions = second.actions := by
      rcases alike with limits | counted
      · rw [Accumulator.actions, limits, steps]
        rfl
      · rw [split_changes, List.length_map] at counted
        rw [first.actions_eq_stream counted, second.actions_eq_stream (steps ▸ counted), sizes, steps]
    refine ⟨actions, fun σ consume state => ?_⟩
    rw [forEachAction_eq_foldl, forEachAction_eq_foldl, actions]

private def itemPath : Path := ⟨.root ⟨"order"⟩, ⟨"item", ⟨"order_item"⟩, true, false, false⟩⟩

private def itemRemoval (id : Int64) : ChildStep := ⟨itemPath, .delete (.integer id) none⟩

private def savedAtOnce : Accumulator where
  kind := .save
  type := ⟨"order"⟩
  policy := .standard
  changes :=
    [(Change.save (.empty ⟨"order"⟩)).add (.batch itemPath .delete [itemRemoval 1, itemRemoval 2])]

private def deletedApart : Accumulator where
  kind := .delete
  type := ⟨"cart"⟩
  policy := ⟨true, some (UInt64.size - 1)⟩
  changes :=
    [(Change.deleteByType ⟨"cart"⟩ none).add (.child (itemRemoval 1)),
      Change.deleteByType ⟨"cart"⟩ (some (.integer 3)),
      (Change.deleteByType ⟨"cart"⟩ none).add (.child (itemRemoval 2))]

/-- A batch in one saving change is no different from its members in deleting changes, nor is no limit
from the largest. -/
theorem savedAtOnce_like_deletedApart :
    savedAtOnce.policy.pieceSize = deletedApart.policy.pieceSize ∧
    (savedAtOnce.changes.flatMap Change.actions).flatMap Action.split =
      (deletedApart.changes.flatMap Change.actions).flatMap Action.split ∧
    ((savedAtOnce.changes.flatMap Change.actions).flatMap Action.split).length < UInt64.size ∧
    (∀ (σ : Type) (consume : σ → Action → σ) (state : σ),
      savedAtOnce.dispatch consume state = deletedApart.dispatch consume state) ∧
    savedAtOnce.actions = deletedApart.actions ∧
    ∀ (σ : Type) (consume : σ → Action → σ) (state : σ),
      savedAtOnce.forEachAction consume state = deletedApart.forEachAction consume state := by
  have sizes : savedAtOnce.policy.pieceSize = deletedApart.policy.pieceSize := by decide
  have work : (savedAtOnce.changes.flatMap Change.actions).flatMap Action.split =
      (deletedApart.changes.flatMap Change.actions).flatMap Action.split := rfl
  have counted : ((savedAtOnce.changes.flatMap Change.actions).flatMap Action.split).length <
      UInt64.size := by decide
  obtain ⟨dispatched, emitted⟩ := forEachAction_eq_of_split sizes work
  exact ⟨sizes, work, counted, dispatched, emitted (.inr counted)⟩

end Accumulator

end WritePlan
