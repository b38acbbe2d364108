import WritePlan.Proofs.Schedule
import Mathlib.Data.List.Induction

/-! Streams told by keys. Below the roots, a phase carries out one key after the other: the keys
are sorted by depth, and those of one depth come in the order in which they were first seen. -/
namespace WritePlan

section Stable

variable {α : Type} {le : α → α → Bool} (trans : ∀ a b c, le a b → le b c → le a c)
  (total : ∀ a b, le a b || le b a)
include trans total

/-- Sorting one more item puts it in front of those that may follow it. -/
private theorem mergeSort_cons_eq (item : α) (items : List α) :
    (item :: items).mergeSort le =
      (items.mergeSort le).filter (fun other => !le item other) ++
        item :: (items.mergeSort le).filter (le item) := by
  obtain ⟨front, back, sorted, without, strict⟩ := List.mergeSort_cons trans total item items
  have ordered := List.pairwise_mergeSort trans total (item :: items)
  rw [sorted, List.pairwise_append, List.pairwise_cons] at ordered
  have behind : ∀ other ∈ back, le item other = true := ordered.2.1.1
  have noneAhead : back.filter (fun other => !le item other) = [] := by simpa using behind
  have noneBehind : front.filter (le item) = [] := by simpa using strict
  rw [sorted, without, List.filter_append, List.filter_append, noneAhead, noneBehind,
    List.filter_eq_self.mpr strict, List.filter_eq_self.mpr behind, List.append_nil, List.nil_append]

/-- Items that may stand either way keep their order. -/
theorem pairwise_mergeSort_of_tie {items : List α} {earlier : α → α → Prop}
    (ordered : items.Pairwise earlier) :
    (items.mergeSort le).Pairwise fun first second => le second first → earlier first second := by
  induction items with
  | nil => simp
  | cons item rest ih =>
    obtain ⟨own, tail⟩ := List.pairwise_cons.mp ordered
    -- Only items that must precede the new one stand ahead of it, and none of these can tie with
    -- it or with anything behind it.
    rw [mergeSort_cons_eq trans total, List.pairwise_append, List.pairwise_cons]
    refine ⟨(ih tail).filter _, ⟨?_, (ih tail).filter _⟩, ?_⟩
    · intro other behind _
      exact own other (List.mem_mergeSort.mp (List.mem_of_mem_filter behind))
    · intro first ahead second behind tie
      have strict : le item first = false := by simpa using (List.mem_filter.mp ahead).2
      have reached : le item first = true := by
        rcases List.mem_cons.mp behind with rfl | later
        · exact tie
        · exact trans item second first (List.mem_filter.mp later).2 tie
      rw [strict] at reached
      cases reached

/-- Sorting fewer items gives what is left of the sorted items. -/
theorem mergeSort_sublist {fewer items : List α} (included : fewer.Sublist items) :
    (fewer.mergeSort le).Sublist (items.mergeSort le) := by
  induction included with
  | slnil => simp
  | @cons _ rest item _ ih =>
    obtain ⟨front, back, sorted, without, _⟩ := List.mergeSort_cons trans total item rest
    rw [sorted]
    exact (without ▸ ih).middle item
  | cons_cons item _ ih =>
    rw [mergeSort_cons_eq trans total, mergeSort_cons_eq trans total]
    exact (ih.filter _).append ((ih.filter _).cons_cons item)

end Stable

def GroupKey.depth (key : GroupKey) : Nat := key.segments.length

theorem Group.depth_key (group : Group) : group.key.depth = group.path.depth :=
  Path.length_segments group.path.place

def keysInOrder (before : Nat → Nat → Bool) (steps : List ChildStep) : List GroupKey :=
  (keysOf steps).mergeSort fun first second => before first.depth second.depth

private theorem GroupTable.map_key_sorted (before : Nat → Nat → Bool) (steps : List ChildStep) :
    ((GroupTable.ofSteps steps).sorted before).map Group.key = keysInOrder before steps := by
  rw [keysInOrder, ← (GroupTable.indexes_ofSteps steps).gathers.keys, GroupTable.sorted]
  exact List.map_mergeSort fun first _ second _ => by rw [Group.depth_key, Group.depth_key]

theorem keysInOrder_pairwise {before : Nat → Nat → Bool} (order : DepthOrder before)
    {steps : List ChildStep} {earlier : GroupKey → GroupKey → Prop}
    (ordered : (keysOf steps).Pairwise earlier) :
    (keysInOrder before steps).Pairwise fun first second =>
      first.depth = second.depth → earlier first second := by
  refine (pairwise_mergeSort_of_tie (order.trans_by GroupKey.depth) (order.total_by GroupKey.depth)
    ordered).imp ?_
  intro first second tied same
  apply tied
  rw [same]
  simpa using order.total second.depth second.depth

/-- More steps put further keys between those that were there. -/
theorem keysInOrder_sublist_append {before : Nat → Nat → Bool} (order : DepthOrder before)
    (steps more : List ChildStep) :
    (keysInOrder before steps).Sublist (keysInOrder before (steps ++ more)) := by
  apply mergeSort_sublist (order.trans_by GroupKey.depth) (order.total_by GroupKey.depth)
  simp only [keysOf, List.map_append, List.eraseDups_append]
  exact List.sublist_append_left ..

/-- The actions for the steps of a key: batches with the path of the first step, or the steps
as they are where they are never batched. -/
def GroupKey.actions (size : Option Nat) (key : GroupKey) (own : List ChildStep) : List Action :=
  match key.kind, own.head? with
  | some kind, some first => (chunks size own).map (Action.ofChunk first.path kind)
  | _, _ => own.map .child

namespace GroupKey

variable {size : Option Nat} {key : GroupKey} {own : List ChildStep}

@[simp] theorem actions_nil : key.actions size [] = [] := by
  unfold actions
  split <;> simp_all

theorem actions_of_none (whole : key.kind = none) : key.actions size own = own.map .child := by
  simp [actions, whole]

theorem actions_of_some {kind : BatchKind} {first : ChildStep} (batched : key.kind = some kind)
    (head : own.head? = some first) :
    key.actions size own = (chunks size own).map (Action.ofChunk first.path kind) := by
  simp only [actions, batched, head]

/-- The actions of a key are those of a group that has its steps and the path of the first. -/
theorem actions_eq_group {first : ChildStep} (head : own.head? = some first) :
    key.actions size own = (Group.mk key.kind first.path own.toArray).actions size := by
  cases batched : key.kind with
  | none => rw [actions_of_none batched]; rfl
  | some kind => rw [actions_of_some batched head]; rfl

theorem steps_actions : (key.actions size own).flatMap Action.steps = own.map .child := by
  cases own with
  | nil => simp
  | cons first rest =>
    rw [actions_eq_group rfl]
    exact Group.steps_actions size _

end GroupKey

private theorem Gathers.actions_eq {steps : List ChildStep} {groups : List Group}
    (gathers : Gathers steps groups) {group : Group} (member : group ∈ groups) (size : Option Nat) :
    group.actions size = group.key.actions size (stepsOf group.key steps) := by
  obtain ⟨first, head, path⟩ := Option.map_eq_some_iff.mp (gathers.first group member)
  rw [← gathers.members group member, GroupKey.actions_eq_group head, path]
  rfl

theorem GroupTable.flatMap_sorted {produce : Group → List β} {tell : GroupKey → List β}
    {before : Nat → Nat → Bool} {steps : List ChildStep}
    (same : ∀ group ∈ (GroupTable.ofSteps steps).groups.toList, produce group = tell group.key) :
    ((GroupTable.ofSteps steps).sorted before).flatMap produce =
      (keysInOrder before steps).flatMap tell := by
  rw [← GroupTable.map_key_sorted, List.flatMap_map]
  exact List.flatMap_congr fun group member =>
    same group ((GroupTable.sorted_perm ..).mem_iff.mp member)

theorem GroupTable.actions_eq_keys (before : Nat → Nat → Bool) (size : Option Nat)
    (steps : List ChildStep) :
    (GroupTable.ofSteps steps).actions before size =
      (keysInOrder before steps).flatMap fun key => key.actions size (stepsOf key steps) :=
  GroupTable.flatMap_sorted fun _ member =>
    (GroupTable.indexes_ofSteps steps).gathers.actions_eq member size

theorem arranged_eq_keys (before : Nat → Nat → Bool) (steps : List ChildStep) :
    arranged before steps = (keysInOrder before steps).flatMap fun key => stepsOf key steps :=
  GroupTable.flatMap_sorted (GroupTable.indexes_ofSteps steps).gathers.members

/-- The position of the first step of a key. -/
def GroupKey.firstSight (key : GroupKey) (steps : List ChildStep) : Nat :=
  steps.findIdx fun step => step.groupKey = key

private theorem GroupKey.firstSight_lt {key : GroupKey} {steps : List ChildStep}
    (seen : key ∈ keysOf steps) :
    key.firstSight steps < steps.length := by
  obtain ⟨step, member, own⟩ := mem_keysOf.mp seen
  exact List.findIdx_lt_length_of_exists ⟨step, member, by simpa using own⟩

theorem GroupKey.firstSight_append {key : GroupKey} {steps : List ChildStep}
    (seen : key ∈ keysOf steps) (more : List ChildStep) :
    key.firstSight (steps ++ more) = key.firstSight steps := by
  have found := firstSight_lt seen
  unfold firstSight at found ⊢
  rw [List.findIdx_append, if_pos found]

private theorem GroupKey.firstSight_snoc {step : ChildStep} {steps : List ChildStep}
    (new : step.groupKey ∉ keysOf steps) :
    step.groupKey.firstSight (steps ++ [step]) = steps.length := by
  have missing : ∀ other ∈ steps, other.groupKey ≠ step.groupKey := fun other member own =>
    new (mem_keysOf.mpr ⟨other, member, own⟩)
  have front : steps.findIdx (fun other => other.groupKey = step.groupKey) = steps.length := by
    simpa using missing
  rw [firstSight, List.findIdx_append, front, if_neg (Nat.lt_irrefl _)]
  simp

theorem keysOf_pairwise_firstSight (steps : List ChildStep) :
    (keysOf steps).Pairwise fun first second => first.firstSight steps < second.firstSight steps := by
  -- From the end: a further step moves no earlier first sight, and a new key is seen last.
  induction steps using List.reverseRecOn with
  | nil => simp [keysOf]
  | append_singleton rest step ih =>
    have kept : (keysOf rest).Pairwise fun first second =>
        first.firstSight (rest ++ [step]) < second.firstSight (rest ++ [step]) := by
      refine ih.imp_of_mem fun left right earlier => ?_
      rwa [GroupKey.firstSight_append left, GroupKey.firstSight_append right]
    by_cases seen : step.groupKey ∈ keysOf rest
    · rwa [keysOf_snoc_of_mem seen]
    · rw [keysOf_snoc_of_not_mem seen, List.pairwise_append]
      refine ⟨kept, List.pairwise_singleton .., fun first old second new => ?_⟩
      obtain rfl := List.mem_singleton.mp new
      rw [GroupKey.firstSight_append old, GroupKey.firstSight_snoc seen]
      exact GroupKey.firstSight_lt old

theorem keysOf_filter (kept : GroupKey → Bool) (steps : List ChildStep) :
    keysOf (steps.filter fun step => kept step.groupKey) = (keysOf steps).filter kept := by
  induction steps using List.reverseRecOn with
  | nil => simp [keysOf]
  | append_singleton rest step ih =>
    have seenIff (own : kept step.groupKey = true) :
        step.groupKey ∈ keysOf (rest.filter fun step => kept step.groupKey) ↔
          step.groupKey ∈ keysOf rest := by
      rw [ih, List.mem_filter]
      exact and_iff_left own
    by_cases own : kept step.groupKey = true
    · have last : [step].filter (fun step => kept step.groupKey) = [step] := by simp [own]
      rw [List.filter_append, last]
      by_cases seen : step.groupKey ∈ keysOf rest
      · rw [keysOf_snoc_of_mem seen, keysOf_snoc_of_mem ((seenIff own).mpr seen), ih]
      · rw [keysOf_snoc_of_not_mem seen, keysOf_snoc_of_not_mem (mt (seenIff own).mp seen), ih,
          List.filter_append]
        simp [own]
    · have last : [step].filter (fun step => kept step.groupKey) = [] := by simp [own]
      rw [List.filter_append, last, List.append_nil, ih]
      by_cases seen : step.groupKey ∈ keysOf rest
      · rw [keysOf_snoc_of_mem seen]
      · rw [keysOf_snoc_of_not_mem seen, List.filter_append]
        simp [own]

namespace Phase

/-- The keys that a phase carries out, in order; work at roots has none. -/
def keys (phase : Phase) (steps : List Step) : List GroupKey :=
  match phase with
  | .childDeletes => keysInOrder deeperFirst (childrenIn .childDeletes steps)
  | .childWrites => keysInOrder shallowerFirst (childrenIn .childWrites steps)
  | _ => []

/-- The keys of the steps of a phase are those of the phase among all keys. -/
theorem keysOf_childrenIn (phase : Phase) (steps : List Step) :
    keysOf (childrenIn phase steps) =
      (keysOf (childrenOf steps)).filter fun key => key.phase = phase := by
  rw [← keysOf_filter, childrenIn_eq_filter]
  simp only [ChildStep.phase_groupKey]

variable {phase : Phase} {steps : List Step}

theorem mem_keys {key : GroupKey} :
    key ∈ phase.keys steps ↔ key ∈ keysOf (childrenOf steps) ∧ key.phase = phase := by
  have below := key.phase_below
  cases phase <;> simp [keys, keysInOrder, keysOf_childrenIn] <;> grind

/-- Keys of one depth follow one another as they were first seen. -/
theorem keys_pairwise_firstSight :
    (phase.keys steps).Pairwise fun first second => first.depth = second.depth →
      first.firstSight (childrenOf steps) < second.firstSight (childrenOf steps) := by
  have seen : (keysOf (childrenIn phase steps)).Pairwise fun first second =>
      first.firstSight (childrenOf steps) < second.firstSight (childrenOf steps) := by
    rw [keysOf_childrenIn]
    exact (keysOf_pairwise_firstSight _).filter _
  cases phase with
  | childDeletes => exact keysInOrder_pairwise deeperFirst_order seen
  | childWrites => exact keysInOrder_pairwise shallowerFirst_order seen
  | _ => exact .nil

end Phase

/-- In each phase, a stream carries out the steps at roots as they are, or one key after the
other. -/
theorem streamIn_eq_keys (size : Option Nat) (steps : List Step) (phase : Phase) :
    streamIn size steps phase = rootActions phase steps ++
      (phase.keys steps).flatMap fun key => key.actions size (stepsOf key (childrenOf steps)) := by
  have own : ∀ key ∈ phase.keys steps,
      stepsOf key (childrenIn phase steps) = stepsOf key (childrenOf steps) := by
    intro key member
    obtain ⟨_, rfl⟩ := Phase.mem_keys.mp member
    exact stepsOf_childrenIn key steps
  have told : (phase.keys steps).flatMap
        (fun key => key.actions size (stepsOf key (childrenIn phase steps))) =
      (phase.keys steps).flatMap fun key => key.actions size (stepsOf key (childrenOf steps)) :=
    List.flatMap_congr fun key member => by rw [own key member]
  rw [← told]
  -- One part is always empty: no root step is in a phase below the roots, and no key elsewhere.
  cases phase with
  | childDeletes =>
    rw [rootActions, ← rootsIn, rootsIn_eq_nil (.inl rfl)]
    exact GroupTable.actions_eq_keys ..
  | childWrites =>
    rw [rootActions, ← rootsIn, rootsIn_eq_nil (.inr rfl)]
    exact GroupTable.actions_eq_keys ..
  | _ => exact (List.append_nil _).symm

end WritePlan
