import WritePlan.Error
import Mathlib.Data.List.Basic
import Mathlib.Data.List.Forall2

namespace WritePlan

variable {α β γ : Type}

theorem bind_eq_ok {first : Except Error α} {next : α → Except Error β} {result : β} :
    (first >>= next) = .ok result ↔ ∃ value, first = .ok value ∧ next value = .ok result := by
  cases first with
  | error fault => simp [bind, Except.bind]
  | ok value => simp [bind, Except.bind]

theorem bind_eq_error {first : Except Error α} {next : α → Except Error β} {fault : Error} :
    (first >>= next) = .error fault ↔
      first = .error fault ∨ ∃ value, first = .ok value ∧ next value = .error fault := by
  cases first with
  | error own => simp [bind, Except.bind]
  | ok value => simp [bind, Except.bind]

private theorem mapM_cons_eq_ok {item : α} {items : List α} {f : α → Except Error β}
    {results : List β} :
    (item :: items).mapM f = .ok results ↔
      ∃ first rest, f item = .ok first ∧ items.mapM f = .ok rest ∧ results = first :: rest := by
  rw [List.mapM_cons, bind_eq_ok]
  constructor
  · intro succeeded
    obtain ⟨first, head, later⟩ := succeeded
    obtain ⟨rest, tail, same⟩ := bind_eq_ok.mp later
    cases same
    exact ⟨first, rest, head, tail, rfl⟩
  · intro found
    obtain ⟨first, rest, head, tail, rfl⟩ := found
    exact ⟨first, head, bind_eq_ok.mpr ⟨rest, tail, rfl⟩⟩

variable {items : List α} {f : α → Except Error β} {results : List β}

theorem mem_mapM (succeeded : items.mapM f = .ok results) {result : β} :
    result ∈ results ↔ ∃ item ∈ items, f item = .ok result := by
  induction items generalizing results with
  | nil =>
    cases succeeded
    simp
  | cons item rest ih =>
    obtain ⟨first, others, head, tail, rfl⟩ := mapM_cons_eq_ok.mp succeeded
    rw [List.mem_cons, ih tail, List.exists_mem_cons_iff, head, Except.ok.injEq]
    exact or_congr_left eq_comm

theorem ok_of_mapM (succeeded : items.mapM f = .ok results) {item : α} (member : item ∈ items) :
    ∃ result, f item = .ok result := by
  induction items generalizing results with
  | nil => cases member
  | cons other rest ih =>
    obtain ⟨first, others, head, tail, _⟩ := mapM_cons_eq_ok.mp succeeded
    rcases List.mem_cons.mp member with rfl | later
    · exact ⟨first, head⟩
    · exact ih tail later

/-- What is told of each item and of its result in the same way is told of the lists. -/
theorem map_mapM (succeeded : items.mapM f = .ok results) {ofResult : β → γ} {ofItem : α → γ}
    (agree : ∀ item ∈ items, ∀ result, f item = .ok result → ofResult result = ofItem item) :
    results.map ofResult = items.map ofItem := by
  induction items generalizing results with
  | nil =>
    cases succeeded
    rfl
  | cons item rest ih =>
    obtain ⟨first, others, head, tail, rfl⟩ := mapM_cons_eq_ok.mp succeeded
    have here : ofResult first = ofItem item := agree item (by simp) first head
    have there := ih tail fun other later => agree other (List.mem_cons_of_mem item later)
    rw [List.map_cons, List.map_cons, here, there]

/-- A list of computations fails as its first failing one does. -/
theorem exists_of_mapM_eq_error {fault : Error} (failed : items.mapM f = .error fault) :
    ∃ front item rest, items = front ++ item :: rest ∧
      (∀ earlier ∈ front, ∃ result, f earlier = .ok result) ∧ f item = .error fault := by
  induction items with
  | nil => cases failed
  | cons item rest ih =>
    rw [List.mapM_cons] at failed
    cases first : f item with
    | error own =>
      rw [first] at failed
      cases failed
      exact ⟨[], item, rest, rfl, by simp, first⟩
    | ok result =>
      rw [first] at failed
      cases later : rest.mapM f with
      | error own =>
        rw [later] at failed
        cases failed
        obtain ⟨front, next, others, rfl, succeeded, fails⟩ := ih later
        refine ⟨item :: front, next, others, rfl, ?_, fails⟩
        exact List.forall_mem_cons.mpr ⟨⟨result, first⟩, succeeded⟩
      | ok results =>
        rw [later] at failed
        cases failed

theorem foldlM_eq_error {step : γ → α → Except Error γ} {state : γ} {fault : Error} :
    items.foldlM step state = .error fault ↔
      ∃ front item rest middle, items = front ++ item :: rest ∧
        front.foldlM step state = .ok middle ∧ step middle item = .error fault := by
  constructor
  · intro failed
    induction items generalizing state with
    | nil => cases failed
    | cons item rest ih =>
      rw [List.foldlM_cons] at failed
      cases first : step state item with
      | error own =>
        rw [first] at failed
        cases failed
        exact ⟨[], item, rest, state, rfl, rfl, first⟩
      | ok next =>
        rw [first] at failed
        obtain ⟨front, other, later, middle, rfl, passed, fails⟩ := ih failed
        refine ⟨item :: front, other, later, middle, rfl, ?_, fails⟩
        rw [List.foldlM_cons, first]
        exact passed
  · intro found
    obtain ⟨front, item, rest, middle, rfl, passed, fails⟩ := found
    rw [List.foldlM_append, passed]
    change (item :: rest).foldlM step middle = _
    rw [List.foldlM_cons, fails]
    rfl

theorem mapM_congr_of_mem {g : α → Except Error β} (same : ∀ item ∈ items, f item = g item) :
    items.mapM f = items.mapM g := by
  induction items with
  | nil => rfl
  | cons item rest ih =>
    rw [List.mapM_cons, List.mapM_cons, same item (by simp),
      ih fun other later => same other (List.mem_cons_of_mem item later)]

/-- What is done to each result may be done to all of them in the end. -/
theorem mapM_map_result (k : β → γ) :
    items.mapM (fun item => (f item).map k) = (items.mapM f).map (List.map k) := by
  induction items with
  | nil => rfl
  | cons item rest ih =>
    rw [List.mapM_cons, List.mapM_cons, ih]
    cases f item with
    | error fault => rfl
    | ok result =>
      cases rest.mapM f with
      | error fault => rfl
      | ok results => rfl

/-- Lists of computations may be run one after the other as one list. -/
theorem mapM_flatMap (g : γ → List α) (lists : List γ) :
    (lists.flatMap g).mapM f = (lists.mapM fun list => (g list).mapM f).map List.flatten := by
  induction lists with
  | nil => rfl
  | cons list rest ih =>
    rw [List.flatMap_cons, List.mapM_append, List.mapM_cons, ih]
    cases (g list).mapM f with
    | error fault => rfl
    | ok results =>
      cases rest.mapM fun list => (g list).mapM f with
      | error fault => rfl
      | ok others => rfl

section Partial

variable {items : List α} {f : α → Option β}

theorem mapM_eq_some {results : List β} : items.mapM f = some results ↔
    List.Forall₂ (fun item result => f item = some result) items results := by
  induction items generalizing results with
  | nil => simp [eq_comm]
  | cons item rest ih =>
    cases results with
    | nil => simp [List.mapM_cons, Option.bind_eq_some_iff]
    | cons first others =>
      rw [List.mapM_cons, List.forall₂_cons, ← ih]
      simp [Option.bind_eq_some_iff]

theorem mapM_map_self {write : β → α} {written : List β}
    (back : ∀ item ∈ written, f (write item) = some item) :
    (written.map write).mapM f = some written := by
  rw [mapM_eq_some, List.forall₂_map_left_iff, List.forall₂_same]
  exact back

theorem mapM_eq_none : items.mapM f = none ↔ ∃ item ∈ items, f item = none := by
  induction items with
  | nil => simp
  | cons item rest ih =>
    rw [List.mapM_cons, List.exists_mem_cons_iff, ← ih]
    cases f item with
    | none => simp
    | some result => cases rest.mapM f <;> simp

end Partial

/-- The outcome is no complaint about a type that is not registered. -/
def Settled (outcome : Except Error α) : Prop := ∀ type, outcome ≠ .error (.unknownEntity type)

/-- If the first outcome is settled, then the second is the same. -/
def Kept (before after : Except Error α) : Prop := Settled before → after = before

namespace Kept

theorem refl (outcome : Except Error α) : Kept outcome outcome := fun _ => rfl

/-- Parts that are kept make up a whole that is kept. -/
theorem bind {before after : Except Error α} {next later : α → Except Error β}
    (kept : Kept before after)
    (continued : ∀ value, before = .ok value → Kept (next value) (later value)) :
    Kept (before >>= next) (after >>= later) := by
  intro settled
  cases first : before with
  | error fault =>
    have same : after = .error fault := first ▸ kept (by
      intro type missing
      exact settled type (by rw [missing]; rfl))
    rw [same]
    rfl
  | ok value =>
    have same : after = .ok value := first ▸ kept (by
      intro type missing
      rw [first] at missing
      cases missing)
    rw [same]
    rw [first] at settled
    exact continued value first settled

theorem mapM {f g : α → Except Error β} (kept : ∀ item ∈ items, Kept (f item) (g item)) :
    Kept (items.mapM f) (items.mapM g) := by
  induction items with
  | nil => exact .refl _
  | cons item rest ih =>
    have others := ih fun other later => kept other (List.mem_cons_of_mem item later)
    rw [List.mapM_cons, List.mapM_cons]
    exact (kept item (by simp)).bind fun _ _ => others.bind fun _ _ => .refl _

end Kept

end WritePlan
