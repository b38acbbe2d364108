import WritePlan.Proofs.Grouping
import Std.Data.HashMap.Lemmas

namespace WritePlan.GroupTable

/-- The table has the groups of the steps, and its positions are those of their keys. -/
structure Indexes (table : GroupTable) (steps : List ChildStep) : Prop where
  gathers : Gathers steps table.groups.toList
  positions : ∀ (key : GroupKey) (position : Nat),
    table.positions[key]? = some position ↔ (keysOf steps)[position]? = some key

variable {table : GroupTable} {steps : List ChildStep}

theorem indexes_empty : Indexes empty [] where
  gathers := ⟨rfl, by simp [empty], by simp [empty]⟩
  positions key position := by simp [empty, keysOf]

theorem Indexes.size (indexes : Indexes table steps) : table.groups.size = (keysOf steps).length := by
  simpa using congrArg List.length indexes.gathers.keys

theorem add_of_seen {step : ChildStep} {position : Nat}
    (found : table.positions[step.groupKey]? = some position) :
    table.add step = { table with groups := table.groups.modify position (Group.push step) } := by
  unfold add
  rw [found]
  rfl

theorem add_of_new {step : ChildStep} (missing : table.positions[step.groupKey]? = none) :
    table.add step =
      ⟨table.groups.push (Group.single step),
        table.positions.insert step.groupKey table.groups.size⟩ := by
  unfold add
  rw [missing]
  rfl

theorem Indexes.add (indexes : Indexes table steps) (step : ChildStep) :
    Indexes (table.add step) (steps ++ [step]) := by
  cases place : table.positions[step.groupKey]? with
  | some position =>
    have found := (indexes.positions _ _).mp place
    rw [add_of_seen place]
    constructor
    · rw [Array.toList_modify]
      exact indexes.gathers.join found
    · rw [keysOf_snoc_of_mem (List.mem_of_getElem? found)]
      exact indexes.positions
  | none =>
    have new : step.groupKey ∉ keysOf steps := by
      intro seen
      obtain ⟨position, found⟩ := List.getElem?_of_mem seen
      rw [(indexes.positions _ _).mpr found] at place
      cases place
    rw [add_of_new place]
    constructor
    · rw [Array.toList_push]
      exact indexes.gathers.launch new
    · intro key position
      rw [keysOf_snoc_of_not_mem new, Std.HashMap.getElem?_insert, indexes.size]
      by_cases own : step.groupKey = key
      · subst own
        have absent : (keysOf steps)[position]? ≠ some step.groupKey := fun found =>
          new (List.mem_of_getElem? found)
        rw [List.getElem?_append]
        grind
      · have other : (step.groupKey == key) = false := by simpa using own
        rw [other, if_neg Bool.false_ne_true, indexes.positions, List.getElem?_append]
        grind

theorem Indexes.foldl_add (indexes : Indexes table steps) (more : List ChildStep) :
    Indexes (more.foldl GroupTable.add table) (steps ++ more) := by
  induction more generalizing table steps with
  | nil => simpa using indexes
  | cons step rest ih => simpa using ih (indexes.add step)

theorem indexes_ofSteps (steps : List ChildStep) : Indexes (ofSteps steps) steps := by
  simpa [ofSteps] using indexes_empty.foldl_add steps

end WritePlan.GroupTable
