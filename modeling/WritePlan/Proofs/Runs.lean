import WritePlan.Accumulator

namespace WritePlan.Accumulator

/-- Adds changes one after the other, as long as they are accepted. -/
def addAll (accumulator : Accumulator) (changes : List Change) : Except Error Accumulator :=
  changes.foldlM add accumulator

def Takes (accumulator : Accumulator) (change : Change) : Prop :=
  change.kind = accumulator.kind ∧ change.type = accumulator.type

variable {accumulator next : Accumulator}

theorem add_eq_ok {change : Change} :
    accumulator.add change = .ok next ↔
      accumulator.Takes change ∧
        next = { accumulator with changes := accumulator.changes ++ [change] } := by
  unfold add Takes
  split
  · rename_i other
    simp [other]
  · rename_i kind
    split
    · rename_i other
      simp [other]
    · rename_i type
      simp only [ne_eq, Decidable.not_not] at kind type
      simp [kind, type, eq_comm]

/-- A run is accepted if each of its changes is, and it appends them all. -/
theorem addAll_eq_ok {changes : List Change} :
    accumulator.addAll changes = .ok next ↔
      (∀ change ∈ changes, accumulator.Takes change) ∧
        next = { accumulator with changes := accumulator.changes ++ changes } := by
  induction changes generalizing accumulator with
  | nil => simp [addAll, pure, Except.pure, eq_comm]
  | cons change rest ih =>
    rw [addAll, List.foldlM_cons]
    cases given : accumulator.add change with
    | error error =>
      have refused : ¬ accumulator.Takes change := by
        intro taken
        rw [add_eq_ok.mpr ⟨taken, rfl⟩] at given
        cases given
      simp [bind, Except.bind, refused]
    | ok middle =>
      obtain ⟨taken, rfl⟩ := add_eq_ok.mp given
      refine ih.trans ?_
      simp only [List.forall_mem_cons, taken, true_and, List.append_assoc, List.singleton_append]
      rfl

theorem steps_addAll {changes : List Change} (accepted : accumulator.addAll changes = .ok next) :
    next.steps = accumulator.steps ++ changes.flatMap Change.steps := by
  obtain ⟨_, rfl⟩ := addAll_eq_ok.mp accepted
  exact List.flatMap_append

/-- The accumulated steps are those of the actions of all changes, one change after the other. -/
theorem steps_changes (accumulator : Accumulator) :
    (accumulator.changes.flatMap Change.actions).flatMap Action.steps = accumulator.steps :=
  List.flatMap_assoc

theorem withPolicy_eq_ok {policy : BatchPolicy} :
    accumulator.withPolicy policy = .ok next ↔
      policy.validate = .ok () ∧ next = { accumulator with policy := policy } := by
  unfold withPolicy
  cases checked : policy.validate with
  | error error => simp [bind, Except.bind]
  | ok => simp [bind, Except.bind, pure, Except.pure, eq_comm]

end WritePlan.Accumulator
