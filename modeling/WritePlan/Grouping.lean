import WritePlan.Action
import Std.Data.HashMap

/-! Grouping the steps below the root. Steps with the same path segments and the same kind
of work belong together, whatever aggregates they come from. -/
namespace WritePlan

/-- What the steps of a group have in common: the segments of their paths and the kind of
their work; none stands for the deletion of all rows. -/
structure GroupKey where
  segments : List String
  kind : Option BatchKind
deriving DecidableEq, Hashable

def ChildStep.groupKey (step : ChildStep) : GroupKey := ⟨step.path.segments, step.work.batchKind?⟩

/-- Steps with one key in the order in which they came. The path is that of the first. -/
structure Group where
  kind : Option BatchKind
  path : Path
  members : Array ChildStep

/-- The groups in the order of their first steps, with the position of each key. -/
structure GroupTable where
  groups : Array Group
  positions : Std.HashMap GroupKey Nat

namespace GroupTable

def empty : GroupTable := ⟨#[], ∅⟩

def add (table : GroupTable) (step : ChildStep) : GroupTable :=
  match table.positions[step.groupKey]? with
  | some position =>
    { table with
      groups := table.groups.modify position fun group =>
        { group with members := group.members.push step } }
  | none =>
    { groups := table.groups.push ⟨step.work.batchKind?, step.path, #[step]⟩
      positions := table.positions.insert step.groupKey table.groups.size }

def ofSteps (steps : List ChildStep) : GroupTable := steps.foldl add empty

end GroupTable

/-- Cuts a list into pieces of `more + 1` elements; the last piece may be shorter. -/
def chunksOf (more : Nat) : List α → List (List α)
  | [] => []
  | first :: rest => (first :: rest.take more) :: chunksOf more (rest.drop more)
termination_by items => items.length

/-- Cuts a list into pieces of a size, or into one piece if there is no limit. A size of
zero counts as one. -/
def chunks (size : Option Nat) (items : List α) : List (List α) :=
  match size with
  | some size => chunksOf (size - 1) items
  | none => if items.isEmpty then [] else [items]

private theorem flatten_chunksOf (more : Nat) (items : List α) :
    (chunksOf more items).flatten = items := by
  fun_induction chunksOf more items with
  | case1 => rfl
  | case2 first rest ih => rw [List.flatten_cons, ih, List.cons_append, List.take_append_drop]

theorem flatten_chunks (size : Option Nat) (items : List α) : (chunks size items).flatten = items := by
  cases size with
  | some size => exact flatten_chunksOf (size - 1) items
  | none => cases items <;> simp [chunks]

theorem length_of_mem_chunksOf {more : Nat} {items piece : List α}
    (member : piece ∈ chunksOf more items) : 0 < piece.length ∧ piece.length ≤ more + 1 := by
  fun_induction chunksOf more items with
  | case1 => cases member
  | case2 first rest ih =>
    rcases List.mem_cons.mp member with same | later
    · subst same
      simp only [List.length_cons, List.length_take]
      omega
    · exact ih later

def Action.ofChunk (path : Path) (kind : BatchKind) : List ChildStep → Action
  | [step] => .child step
  | steps => .batch path kind steps

theorem Action.steps_ofChunk (path : Path) (kind : BatchKind) (piece : List ChildStep) :
    (Action.ofChunk path kind piece).steps = piece.map .child := by
  match piece with
  | [] => rfl
  | [_] => rfl
  | _ :: _ :: _ => rfl

namespace Group

/-- The actions of a group. Where one statement already deletes all rows at a path, there
is nothing to batch. -/
def actions (size : Option Nat) (group : Group) : List Action :=
  match group.kind with
  | none => group.members.toList.map .child
  | some kind => (chunks size group.members.toList).map (Action.ofChunk group.path kind)

theorem steps_actions (size : Option Nat) (group : Group) :
    (group.actions size).flatMap Action.steps = group.members.toList.map .child := by
  unfold actions
  split
  · rw [List.flatMap_map]
    exact (List.map_eq_flatMap ..).symm
  · rename_i kind _
    conv => rhs; rw [← flatten_chunks size group.members.toList]
    rw [List.flatMap_map, List.map_flatten, ← List.flatMap_def]
    simp only [Action.steps_ofChunk]

end Group

namespace GroupTable

/-- The actions of all groups, with groups sorted by the depth of their paths. Groups of
one depth keep their order. -/
def actions (table : GroupTable) (before : Nat → Nat → Bool) (size : Option Nat) : List Action :=
  (table.groups.toList.mergeSort fun a b => before a.path.depth b.path.depth).flatMap
    (Group.actions size)

end GroupTable

end WritePlan
