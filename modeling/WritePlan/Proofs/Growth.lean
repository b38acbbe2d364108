import WritePlan.Proofs.KeyOrder
import WritePlan.Proofs.Policies
import WritePlan.Proofs.Runs
import Mathlib.Data.List.Flatten

namespace WritePlan

private theorem arranged_sublist_append {before : Nat → Nat → Bool} (order : DepthOrder before)
    (steps more : List ChildStep) :
    (arranged before steps).Sublist (arranged before (steps ++ more)) := by
  have members : ∀ key ∈ keysInOrder before steps,
      (stepsOf key steps).Sublist (stepsOf key (steps ++ more)) := by
    intro key _
    rw [stepsOf_append]
    exact List.sublist_append_left ..
  rw [arranged_eq_keys, arranged_eq_keys]
  exact (List.Sublist.flatMap_right _ members).trans
    ((keysInOrder_sublist_append order steps more).flatMap _)

theorem schedule_sublist_append (steps more : List Step) :
    (schedule steps).Sublist (schedule (steps ++ more)) := by
  have roots (phase : Phase) :
      ((rootsIn phase steps).map Step.root).Sublist ((rootsIn phase (steps ++ more)).map Step.root) := by
    rw [rootsIn_append]
    exact (List.sublist_append_left ..).map _
  have children (phase : Phase) {before : Nat → Nat → Bool} (order : DepthOrder before) :
      ((arranged before (childrenIn phase steps)).map Step.child).Sublist
        ((arranged before (childrenIn phase (steps ++ more))).map Step.child) := by
    rw [childrenIn_append]
    exact (arranged_sublist_append order ..).map _
  exact ((((roots .locks).append (roots .rootWrites)).append
    (children .childDeletes deeperFirst_order)).append
    (children .childWrites shallowerFirst_order)).append (roots .rootDeletes)

namespace Accumulator

/-- Adding changes reorders nothing: the single actions of the stream before come in the same
order in the stream after. -/
theorem actions_sublist_addAll {accumulator next : Accumulator} {changes : List Change}
    (accepted : accumulator.addAll changes = .ok next) :
    (accumulator.actions.flatMap Action.split).Sublist (next.actions.flatMap Action.split) := by
  rw [actions, actions, split_stream, split_stream, steps_addAll accepted]
  exact (schedule_sublist_append ..).map _

private def photoPath : Path := ⟨.root ⟨"order"⟩, ⟨"photo", ⟨"order_photo"⟩, true, false, false⟩⟩

private def thumbnailPath : Path :=
  ⟨photoPath.place, ⟨"thumbnail", ⟨"photo_thumbnail"⟩, false, false, false⟩⟩

private def removal (path : Path) (id : Int64) : Action :=
  .child ⟨path, .delete (.integer id) none⟩

private def photosRemoved : Accumulator where
  kind := .delete
  type := ⟨"order"⟩
  policy := .standard
  changes :=
    [((Change.deleteByType ⟨"order"⟩ none).add (removal photoPath 1)).add
      (.root (.delete (.integer 1) ⟨"order"⟩ none))]

private def moreRemovals : Change :=
  (((Change.deleteByType ⟨"order"⟩ none).add (removal thumbnailPath 2)).add
    (removal photoPath 2)).add (.root (.lock (.integer 2) ⟨"order"⟩))

/-- A lock, deeper deletes and a further member of a batch come before and between a delete and
the delete of its root. -/
theorem photosRemoved_addAll :
    ∃ next, photosRemoved.addAll [moreRemovals] = .ok next ∧
      (photosRemoved.actions.flatMap Action.split).Sublist (next.actions.flatMap Action.split) :=
  have accepted : photosRemoved.addAll [moreRemovals] =
      .ok { photosRemoved with changes := photosRemoved.changes ++ [moreRemovals] } := rfl
  ⟨_, accepted, actions_sublist_addAll accepted⟩

end Accumulator

end WritePlan
