import WritePlan.Grouping
import Mathlib.Algebra.Order.Floor.Div

namespace WritePlan

variable {α : Type}

@[simp] theorem chunks_nil (limit : Option Nat) : chunks limit ([] : List α) = [] := by
  cases limit with
  | none => rfl
  | some most => rw [chunks, chunksOf]

theorem chunksOf_map {β : Type} (f : α → β) (more : Nat) (items : List α) :
    chunksOf more (items.map f) = (chunksOf more items).map (List.map f) := by
  fun_induction chunksOf more items with
  | case1 => rw [List.map_nil, chunksOf, List.map_nil]
  | case2 first rest ih =>
    rw [List.map_cons, chunksOf, ← List.map_take, ← List.map_drop, ih]
    rfl

theorem length_chunksOf (more : Nat) (items : List α) :
    (chunksOf more items).length = (items.length + more) / (more + 1) := by
  fun_induction chunksOf more items with
  | case1 =>
    rw [List.length_nil, List.length_nil, Nat.zero_add, Nat.div_eq_of_lt (Nat.lt_succ_self more)]
  | case2 first rest ih =>
    have step : rest.length + 1 + more = rest.length + (more + 1) := by omega
    rw [List.length_cons, ih, List.length_drop, List.length_cons, step,
      Nat.add_div_right _ (Nat.succ_pos more)]
    by_cases full : more ≤ rest.length
    · rw [Nat.sub_add_cancel full]
    · rw [Nat.div_eq_of_lt (by omega), Nat.div_eq_of_lt (by omega)]

private theorem length_of_mem_dropLast_chunksOf {more : Nat} {items piece : List α}
    (member : piece ∈ (chunksOf more items).dropLast) : piece.length = more + 1 := by
  fun_induction chunksOf more items with
  | case1 => cases member
  | case2 first rest ih =>
    by_cases last : chunksOf more (rest.drop more) = []
    · simp [last] at member
    · rw [List.dropLast_cons_of_ne_nil last] at member
      rcases List.mem_cons.mp member with rfl | later
      · have left : rest.drop more ≠ [] := fun none => last (by rw [none, chunksOf])
        have enough : more ≤ rest.length := by
          rw [ne_eq, List.drop_eq_nil_iff] at left
          omega
        rw [List.length_cons, List.length_take, Nat.min_eq_left enough]
      · exact ih later

/-- The sizes of pieces of a whole: as few pieces as a limit allows, all full but the last, or one
piece if there is no limit. -/
structure Packed (limit : Option Nat) (total : Nat) (sizes : List Nat) : Prop where
  few : ∀ most ∈ limit, sizes.length = total ⌈/⌉ most
  full : ∀ most ∈ limit, ∀ size ∈ sizes.dropLast, size = most
  filled : ∀ size ∈ sizes.getLast?, 1 ≤ size ∧ ∀ most ∈ limit, size ≤ most
  whole : limit = none → sizes = if total = 0 then [] else [total]

theorem packed_chunks {limit : Option Nat} (positive : ∀ most ∈ limit, 0 < most) (items : List α) :
    Packed limit items.length ((chunks limit items).map List.length) := by
  cases limit with
  | none =>
    cases items with
    | nil => constructor <;> simp [chunks]
    | cons first rest => constructor <;> simp [chunks]
  | some most =>
    obtain ⟨more, rfl⟩ := Nat.exists_eq_succ_of_ne_zero (positive most rfl).ne'
    constructor
    · intro other same
      cases same
      rw [List.length_map, Nat.ceilDiv_eq_add_pred_div]
      exact length_chunksOf more items
    · intro other same size member
      cases same
      rw [← List.map_dropLast] at member
      obtain ⟨piece, cut, rfl⟩ := List.mem_map.mp member
      exact length_of_mem_dropLast_chunksOf cut
    · intro size last
      obtain ⟨piece, cut, rfl⟩ := List.mem_map.mp (List.mem_of_getLast? last)
      obtain ⟨least, bound⟩ := length_of_mem_chunksOf cut
      exact ⟨least, fun other same => by cases same; exact bound⟩
    · intro unlimited
      cases unlimited

/-- The first piece holds as many of the first items as the limit allows. -/
theorem head?_chunks {limit : Option Nat} (positive : ∀ most ∈ limit, 0 < most) {items : List α}
    (filled : items ≠ []) :
    (chunks limit items).head? = some (items.take (limit.getD items.length)) := by
  obtain ⟨first, rest, rfl⟩ := List.exists_cons_of_ne_nil filled
  cases limit with
  | none =>
    rw [Option.getD_none, List.take_length]
    rfl
  | some most =>
    obtain ⟨more, rfl⟩ := Nat.exists_eq_succ_of_ne_zero (positive most rfl).ne'
    rw [chunks, chunksOf]
    rfl

theorem chunks_of_fits {most : Nat} {items : List α} (fits : items.length ≤ most) :
    chunks (some most) items = chunks none items := by
  cases items with
  | nil => rw [chunks_nil, chunks_nil]
  | cons first rest =>
    have all : rest.length ≤ most - 1 := by
      rw [List.length_cons] at fits
      omega
    rw [chunks, chunksOf, List.take_of_length_le all, List.drop_of_length_le all, chunksOf]
    rfl

end WritePlan
