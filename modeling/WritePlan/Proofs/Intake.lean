import WritePlan.Emission
import WritePlan.Intake
import WritePlan.Proofs.Runs
import Mathlib.Data.List.Forall2

namespace WritePlan

/-- How an accumulator of a kind and a type answers a change. A refusal names what was declared and
what was offered; the kind is looked at first. -/
inductive Judges (kind : ChangeKind) (type : EntityType) (change : Change) : Except Error Unit → Prop
  | taken (ownKind : change.kind = kind) (ownType : change.type = type) :
      Judges kind type change (.ok ())
  | otherKind (differs : change.kind ≠ kind) :
      Judges kind type change (.error (.changeKindMismatch kind change.kind))
  | otherType (ownKind : change.kind = kind) (differs : change.type ≠ type) :
      Judges kind type change (.error (.entityTypeMismatch type change.type))

def changesOf (kind : ChangeKind) (type : EntityType) (changes : List Change) : List Change :=
  changes.filter fun change => change.kind = kind ∧ change.type = type

/-- The changes that were taken in, told by the answers. -/
def takenOf : List Change → List (Except Error Unit) → List Change
  | change :: changes, .ok _ :: answers => change :: takenOf changes answers
  | _ :: changes, .error _ :: answers => takenOf changes answers
  | _, _ => []

section

variable {kind : ChangeKind} {type : EntityType} {changes : List Change}

private theorem changesOf_cons_of_own {change : Change} (kinds : change.kind = kind)
    (types : change.type = type) :
    changesOf kind type (change :: changes) = change :: changesOf kind type changes :=
  List.filter_cons_of_pos (decide_eq_true ⟨kinds, types⟩)

private theorem changesOf_cons_of_other {change : Change}
    (other : ¬ (change.kind = kind ∧ change.type = type)) :
    changesOf kind type (change :: changes) = changesOf kind type changes :=
  List.filter_cons_of_neg fun own => other (of_decide_eq_true own)

theorem mem_changesOf {change : Change} :
    change ∈ changesOf kind type changes ↔
      change ∈ changes ∧ change.kind = kind ∧ change.type = type := by
  simp [changesOf]

/-- The answers tell which changes are of the declared kind and type. -/
theorem takenOf_eq_changesOf {answers : List (Except Error Unit)}
    (judged : List.Forall₂ (Judges kind type) changes answers) :
    takenOf changes answers = changesOf kind type changes := by
  induction judged with
  | nil => rfl
  | cons judges _ ih =>
    cases judges with
    | taken kinds types => rw [takenOf, ih, changesOf_cons_of_own kinds types]
    | otherKind differs => rw [takenOf, ih, changesOf_cons_of_other fun own => differs own.1]
    | otherType _ differs => rw [takenOf, ih, changesOf_cons_of_other fun own => differs own.2]

end

namespace Accumulator

def append (accumulator : Accumulator) (changes : List Change) : Accumulator :=
  { accumulator with changes := accumulator.changes ++ changes }

variable {accumulator : Accumulator} {change : Change}

theorem append_append (first second : List Change) :
    (accumulator.append first).append second = accumulator.append (first ++ second) := by
  simp only [append, List.append_assoc]

/-- To offer a change is to add it in place. Where it is refused, the accumulator stays as it is. -/
theorem run_offer (accumulator : Accumulator) (change : Change) :
    (offer change).run accumulator =
      match accumulator.add change with
      | .ok next => .ok () next
      | .error error => .error error accumulator := by
  unfold offer add
  simp only [EStateM.run_bind, EStateM.run_get]
  split
  · simp
  · split <;> simp

private theorem offer_of_takes (takes : accumulator.Takes change) :
    (offer change).run accumulator = .ok () (accumulator.append [change]) := by
  rw [run_offer, add_eq_ok.mpr ⟨takes, rfl⟩]
  rfl

private theorem offer_of_not_takes (refused : ¬ accumulator.Takes change) :
    ∃ error, (offer change).run accumulator = .error error accumulator ∧
      Judges accumulator.kind accumulator.type change (.error error) := by
  by_cases kinds : change.kind = accumulator.kind
  · have types : change.type ≠ accumulator.type := fun types => refused ⟨kinds, types⟩
    exact ⟨_, by simp [run_offer, add, kinds, types], .otherType kinds types⟩
  · exact ⟨_, by simp [run_offer, add, kinds], .otherKind kinds⟩

/-- However many changes are offered, those of the declared kind and type are put behind what is
held, and nothing else is altered. -/
theorem offerAll_judged (accumulator : Accumulator) (changes : List Change) :
    ∃ answers, List.Forall₂ (Judges accumulator.kind accumulator.type) changes answers ∧
      accumulator.offerAll changes =
        (answers, accumulator.append (changesOf accumulator.kind accumulator.type changes)) := by
  induction changes generalizing accumulator with
  | nil => exact ⟨[], .nil, by simp [offerAll, append, changesOf]⟩
  | cons change rest ih =>
    by_cases takes : accumulator.Takes change
    · obtain ⟨answers, judged, run⟩ := ih (accumulator.append [change])
      refine ⟨.ok () :: answers, .cons (.taken takes.1 takes.2) judged, ?_⟩
      rw [offerAll, offer_of_takes takes, changesOf_cons_of_own takes.1 takes.2]
      simp only [run, append_append]
      rfl
    · obtain ⟨error, refused, judges⟩ := offer_of_not_takes takes
      obtain ⟨answers, judged, run⟩ := ih accumulator
      refine ⟨.error error :: answers, .cons judges judged, ?_⟩
      rw [offerAll, refused, changesOf_cons_of_other takes]
      simp only [run]

theorem offerAll_of_takes {changes : List Change} (own : ∀ change ∈ changes, accumulator.Takes change) :
    accumulator.offerAll changes = (changes.map fun _ => .ok (), accumulator.append changes) := by
  induction changes generalizing accumulator with
  | nil => simp [offerAll, append]
  | cons change rest ih =>
    obtain ⟨takes, others⟩ := List.forall_mem_cons.mp own
    have run := @ih (accumulator.append [change]) others
    rw [append_append] at run
    rw [offerAll, offer_of_takes takes]
    simp only [run]
    rfl

/-- Of the changes offered in a run, an accumulator holds those of its kind and type, in order and
behind what it held before; every change is answered for itself, whatever came before it. The run
without the refused changes has no refusal and leads to the same stream. A run up to any of its
points is such a run. -/
theorem refusals_leave_no_trace (accumulator : Accumulator) (changes : List Change) :
    ∃ answers held, accumulator.offerAll changes = (answers, held) ∧
      List.Forall₂ (Judges accumulator.kind accumulator.type) changes answers ∧
      held = { accumulator with
        changes := accumulator.changes ++ changesOf accumulator.kind accumulator.type changes } ∧
      ∃ alike, accumulator.offerAll (takenOf changes answers) =
          ((takenOf changes answers).map fun _ => .ok (), alike) ∧
        alike.actions = held.actions ∧
        ∀ (σ : Type) (consume : σ → Action → σ) (state : σ),
          alike.forEachAction consume state = held.forEachAction consume state := by
  obtain ⟨answers, judged, run⟩ := accumulator.offerAll_judged changes
  have taken := takenOf_eq_changesOf judged
  have own : ∀ change ∈ takenOf changes answers, accumulator.Takes change := fun change member =>
    (mem_changesOf.mp (taken ▸ member)).2
  refine ⟨answers, _, run, judged, rfl, _, offerAll_of_takes own, ?_⟩
  rw [taken]
  exact ⟨rfl, fun _ _ _ => rfl⟩

end Accumulator

end WritePlan
