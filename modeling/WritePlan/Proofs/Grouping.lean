import WritePlan.Grouping
import Mathlib.Data.List.Nodup
import Mathlib.Data.List.Perm.Basic

namespace WritePlan

/-- The distinct keys of steps, in the order in which they are first seen. -/
def keysOf (steps : List ChildStep) : List GroupKey := (steps.map ChildStep.groupKey).eraseDups

def stepsOf (key : GroupKey) (steps : List ChildStep) : List ChildStep :=
  steps.filter fun step => step.groupKey = key

private theorem eraseDups_nodup [BEq α] [LawfulBEq α] : ∀ items : List α, items.eraseDups.Nodup
  | [] => by simp
  | head :: rest => by
    rw [List.eraseDups_cons, List.nodup_cons]
    exact ⟨by simp, eraseDups_nodup _⟩
termination_by items => items.length
decreasing_by exact Nat.lt_succ_of_le (List.length_filter_le ..)

theorem keysOf_nodup (steps : List ChildStep) : (keysOf steps).Nodup := eraseDups_nodup _

theorem mem_keysOf {key : GroupKey} {steps : List ChildStep} :
    key ∈ keysOf steps ↔ ∃ step ∈ steps, step.groupKey = key := by
  simp [keysOf]

theorem keysOf_snoc_of_mem {steps : List ChildStep} {step : ChildStep}
    (seen : step.groupKey ∈ keysOf steps) : keysOf (steps ++ [step]) = keysOf steps := by
  rw [keysOf, List.mem_eraseDups] at seen
  simp only [keysOf, List.map_append, List.eraseDups_append, List.map_cons, List.map_nil,
    List.removeAll, List.contains_iff_mem.mpr seen, List.filter_cons, Bool.not_true]
  simp

theorem keysOf_snoc_of_not_mem {steps : List ChildStep} {step : ChildStep}
    (new : step.groupKey ∉ keysOf steps) :
    keysOf (steps ++ [step]) = keysOf steps ++ [step.groupKey] := by
  rw [keysOf, List.mem_eraseDups, ← List.contains_iff_mem, Bool.not_eq_true] at new
  simp only [keysOf, List.map_append, List.eraseDups_append, List.map_cons, List.map_nil,
    List.removeAll, new, List.filter_cons, Bool.not_false]
  rfl

/-- Steps of one new key in front of others put that key in front of the other keys. -/
private theorem keysOf_block_append {key : GroupKey} {block rest : List ChildStep}
    (filled : block ≠ []) (pure : ∀ step ∈ block, step.groupKey = key) (new : key ∉ keysOf rest) :
    keysOf (block ++ rest) = key :: keysOf rest := by
  cases block with
  | nil => exact absurd rfl filled
  | cons step block =>
    have dropped : (block.map ChildStep.groupKey).filter (fun other => !other == key) = [] := by
      simpa using fun later member => pure later (List.mem_cons_of_mem step member)
    have kept : (rest.map ChildStep.groupKey).filter (fun other => !other == key) =
        rest.map ChildStep.groupKey := by
      simpa [mem_keysOf] using new
    simp only [keysOf, List.cons_append, List.map_cons, List.map_append, List.eraseDups_cons,
      pure step (by simp), List.filter_append, dropped, kept, List.nil_append]

theorem stepsOf_append (key : GroupKey) (front rest : List ChildStep) :
    stepsOf key (front ++ rest) = stepsOf key front ++ stepsOf key rest :=
  List.filter_append ..

theorem mem_stepsOf {key : GroupKey} {step : ChildStep} {steps : List ChildStep} :
    step ∈ stepsOf key steps ↔ step ∈ steps ∧ step.groupKey = key := by
  simp [stepsOf]

theorem stepsOf_eq_nil {key : GroupKey} {steps : List ChildStep} :
    stepsOf key steps = [] ↔ key ∉ keysOf steps := by
  simp [stepsOf, mem_keysOf]

theorem stepsOf_eq_self {key : GroupKey} {steps : List ChildStep}
    (pure : ∀ step ∈ steps, step.groupKey = key) : stepsOf key steps = steps := by
  simpa [stepsOf] using pure

theorem stepsOf_snoc_of_eq {key : GroupKey} {step : ChildStep} (own : step.groupKey = key)
    (steps : List ChildStep) : stepsOf key (steps ++ [step]) = stepsOf key steps ++ [step] := by
  rw [stepsOf_append]
  simp [stepsOf, own]

theorem stepsOf_snoc_of_ne {key : GroupKey} {step : ChildStep} (other : step.groupKey ≠ key)
    (steps : List ChildStep) : stepsOf key (steps ++ [step]) = stepsOf key steps := by
  rw [stepsOf_append]
  simp [stepsOf, other]

namespace Group

def key (group : Group) : GroupKey := ⟨group.path.segments, group.kind⟩

def steps (group : Group) : List ChildStep := group.members.toList

theorem eq_of_steps {first second : Group} (keys : first.key = second.key)
    (paths : first.path = second.path) (steps : first.steps = second.steps) : first = second := by
  have kinds : first.kind = second.kind := congrArg GroupKey.kind keys
  have members : first.members = second.members := Array.toList_inj.mp steps
  cases first
  simp_all

def single (step : ChildStep) : Group := ⟨step.work.batchKind?, step.path, #[step]⟩

@[simp] theorem key_single (step : ChildStep) : (single step).key = step.groupKey := rfl

@[simp] theorem steps_single (step : ChildStep) : (single step).steps = [step] := rfl

def push (step : ChildStep) (group : Group) : Group :=
  { group with members := group.members.push step }

@[simp] theorem key_push (step : ChildStep) (group : Group) : (group.push step).key = group.key := rfl

@[simp] theorem steps_push (step : ChildStep) (group : Group) :
    (group.push step).steps = group.steps ++ [step] := Array.toList_push

/-- The steps of a group have its key, and its path is that of the first step, so that it is
not empty. -/
structure Uniform (group : Group) : Prop where
  shared : ∀ step ∈ group.steps, step.groupKey = group.key
  first : group.steps.head?.map ChildStep.path = some group.path

private theorem head?_steps_push (step : ChildStep) {group : Group} {path : Path}
    (first : group.steps.head?.map ChildStep.path = some path) :
    (group.push step).steps.head?.map ChildStep.path = some path := by
  rw [steps_push]
  cases filled : group.steps with
  | nil => simp [filled] at first
  | cons => simpa [filled] using first

theorem Uniform.ne_nil {group : Group} (uniform : group.Uniform) : group.steps ≠ [] := by
  intro empty
  have first := uniform.first
  simp [empty] at first

end Group

/-- Groups are those of some steps: their keys are those of the steps in the order of first
sight, and each group has all steps of its key. -/
structure Gathers (steps : List ChildStep) (groups : List Group) : Prop where
  keys : groups.map Group.key = keysOf steps
  members : ∀ group ∈ groups, group.steps = stepsOf group.key steps
  first : ∀ group ∈ groups, group.steps.head?.map ChildStep.path = some group.path

namespace Gathers

variable {steps : List ChildStep} {groups : List Group}

theorem nodup (gathers : Gathers steps groups) : (groups.map Group.key).Nodup :=
  gathers.keys ▸ keysOf_nodup steps

theorem uniform (gathers : Gathers steps groups) {group : Group} (member : group ∈ groups) :
    group.Uniform where
  shared step present := by
    rw [gathers.members group member] at present
    exact (mem_stepsOf.mp present).2
  first := gathers.first group member

theorem exists_of_key (gathers : Gathers steps groups) {key : GroupKey} (seen : key ∈ keysOf steps) :
    ∃ group ∈ groups, group.key = key := by
  rw [← gathers.keys] at seen
  exact List.mem_map.mp seen

theorem unique (gathers : Gathers steps groups) {others : List Group} (same : Gathers steps others) :
    groups = others := by
  have keys : groups.map Group.key = others.map Group.key := gathers.keys.trans same.keys.symm
  apply List.ext_getElem (by simpa using congrArg List.length keys)
  intro position here there
  have key : groups[position].key = others[position].key := by
    have mapped := congrArg (·[position]?) keys
    simpa [here, there] using mapped
  have ours := List.getElem_mem here
  have theirs := List.getElem_mem there
  have steps : groups[position].steps = others[position].steps := by
    rw [gathers.members _ ours, same.members _ theirs, key]
  have path := (gathers.first _ ours).symm.trans (steps ▸ same.first _ theirs)
  exact Group.eq_of_steps key (Option.some.inj path) steps

theorem keysOf_getElem? (gathers : Gathers steps groups) (position : Nat) :
    (keysOf steps)[position]? = groups[position]?.map Group.key := by
  rw [← gathers.keys, List.getElem?_map]

private theorem mem_modify {items : List α} {change : α → α} {position : Nat} {item : α}
    (member : item ∈ items.modify position change) :
    (∃ index, items[index]? = some item ∧ index ≠ position) ∨
      ∃ old, items[position]? = some old ∧ item = change old := by
  obtain ⟨index, same⟩ := List.getElem?_of_mem member
  rw [List.getElem?_modify] at same
  split at same
  · rename_i here
    obtain ⟨old, present, changed⟩ := Option.map_eq_some_iff.mp same
    exact .inr ⟨old, here ▸ present, changed.symm⟩
  · rename_i elsewhere
    exact .inl ⟨index, by simpa using same, Ne.symm elsewhere⟩

/-- A step of a seen key goes to the end of the group at the position of the key. -/
theorem join (gathers : Gathers steps groups) {step : ChildStep} {position : Nat}
    (found : (keysOf steps)[position]? = some step.groupKey) :
    Gathers (steps ++ [step]) (groups.modify position (Group.push step)) := by
  constructor
  · rw [keysOf_snoc_of_mem (List.mem_of_getElem? found), ← gathers.keys]
    apply List.ext_getElem?
    intro index
    simp only [List.getElem?_map, List.getElem?_modify, Option.map_eq_map, Option.map_map]
    split <;> rfl
  · intro group member
    rcases mem_modify member with ⟨index, present, elsewhere⟩ | ⟨old, present, rfl⟩
    · have other : step.groupKey ≠ group.key := by
        intro own
        have bound := (List.getElem?_eq_some_iff.mp found).1
        refine elsewhere ((List.getElem?_inj bound (keysOf_nodup steps)).mp ?_).symm
        rw [found, gathers.keysOf_getElem?, present, own, Option.map_some]
      rw [stepsOf_snoc_of_ne other, gathers.members group (List.mem_of_getElem? present)]
    · have own : old.key = step.groupKey := by
        rw [gathers.keysOf_getElem?, present] at found
        exact Option.some.inj found
      rw [Group.steps_push, Group.key_push, stepsOf_snoc_of_eq own.symm,
        gathers.members old (List.mem_of_getElem? present)]
  · intro group member
    rcases mem_modify member with ⟨index, present, _⟩ | ⟨old, present, rfl⟩
    · exact gathers.first group (List.mem_of_getElem? present)
    · exact Group.head?_steps_push step (gathers.first old (List.mem_of_getElem? present))

/-- A step of a new key opens a group behind the others. -/
theorem launch (gathers : Gathers steps groups) {step : ChildStep} (new : step.groupKey ∉ keysOf steps) :
    Gathers (steps ++ [step]) (groups ++ [Group.single step]) := by
  have none : stepsOf step.groupKey steps = [] := stepsOf_eq_nil.mpr new
  constructor
  · rw [keysOf_snoc_of_not_mem new, List.map_append, gathers.keys]
    rfl
  · intro group member
    rcases List.mem_append.mp member with old | fresh
    · have other : step.groupKey ≠ group.key := by
        intro own
        exact new (own ▸ gathers.keys ▸ List.mem_map_of_mem old)
      rw [stepsOf_snoc_of_ne other, gathers.members group old]
    · obtain rfl := List.mem_singleton.mp fresh
      rw [Group.key_single, stepsOf_snoc_of_eq rfl, none, Group.steps_single, List.nil_append]
  · intro group member
    rcases List.mem_append.mp member with old | fresh
    · exact gathers.first group old
    · obtain rfl := List.mem_singleton.mp fresh
      rfl

end Gathers

variable {groups : List Group}

private theorem stepsOf_flatMap_of_not_mem (uniform : ∀ group ∈ groups, group.Uniform)
    {key : GroupKey}
    (absent : key ∉ groups.map Group.key) : stepsOf key (groups.flatMap Group.steps) = [] := by
  apply List.filter_eq_nil_iff.mpr
  intro step member
  obtain ⟨group, present, own⟩ := List.mem_flatMap.mp member
  have shared := (uniform group present).shared step own
  simpa [shared] using fun same => absent (List.mem_map.mpr ⟨group, present, same⟩)

/-- Where groups have different keys, the steps of one key are those of one group. -/
theorem stepsOf_flatMap (uniform : ∀ group ∈ groups, group.Uniform)
    (distinct : (groups.map Group.key).Nodup) {group : Group} (member : group ∈ groups) :
    stepsOf group.key (groups.flatMap Group.steps) = group.steps := by
  induction groups with
  | nil => cases member
  | cons head rest ih =>
    have others : ∀ other ∈ rest, other.Uniform := fun other later =>
      uniform other (List.mem_cons_of_mem head later)
    obtain ⟨alone, tail⟩ := List.nodup_cons.mp distinct
    rw [List.flatMap_cons, stepsOf_append]
    rcases List.mem_cons.mp member with same | later
    · subst same
      rw [stepsOf_eq_self (uniform group (by simp)).shared,
        stepsOf_flatMap_of_not_mem others alone, List.append_nil]
    · have different : head.key ≠ group.key := fun same =>
        alone (same ▸ List.mem_map_of_mem later)
      have none : stepsOf group.key head.steps = [] := by
        apply List.filter_eq_nil_iff.mpr
        intro step own
        simpa [(uniform head (by simp)).shared step own] using different
      rw [none, List.nil_append, ih others tail later]

/-- Groups in any order are the groups of their steps taken in that order. -/
theorem gathers_flatMap (uniform : ∀ group ∈ groups, group.Uniform)
    (distinct : (groups.map Group.key).Nodup) : Gathers (groups.flatMap Group.steps) groups where
  keys := by
    induction groups with
    | nil => rfl
    | cons head rest ih =>
      have own := uniform head (by simp)
      obtain ⟨alone, tail⟩ := List.nodup_cons.mp distinct
      have others := ih (fun other later => uniform other (List.mem_cons_of_mem head later)) tail
      rw [List.map_cons, List.flatMap_cons,
        keysOf_block_append own.ne_nil own.shared (others ▸ alone), others]
  members group member := (stepsOf_flatMap uniform distinct member).symm
  first group member := (uniform group member).first

theorem Gathers.stepsOf_of_perm {steps : List ChildStep} (gathers : Gathers steps groups)
    {others : List Group} (perm : others.Perm groups) (key : GroupKey) :
    stepsOf key (others.flatMap Group.steps) = stepsOf key steps := by
  have uniform : ∀ group ∈ others, group.Uniform := fun group member =>
    gathers.uniform (perm.mem_iff.mp member)
  by_cases seen : key ∈ keysOf steps
  · obtain ⟨group, member, rfl⟩ := gathers.exists_of_key seen
    rw [stepsOf_flatMap uniform ((perm.map Group.key).nodup_iff.mpr gathers.nodup)
      (perm.mem_iff.mpr member), gathers.members group member]
  · rw [stepsOf_eq_nil.mpr seen, stepsOf_flatMap_of_not_mem uniform]
    rwa [(perm.map Group.key).mem_iff, gathers.keys]

end WritePlan
