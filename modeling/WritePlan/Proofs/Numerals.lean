import WritePlan.Numeral
import Mathlib.Data.List.TakeDrop
import Mathlib.Tactic.Ring

namespace WritePlan

open Text

namespace Text

variable {n width : Nat}

@[simp]
theorem readDigits_toDigits (n : Nat) : readDigits (Nat.toDigits 10 n) = n :=
  Nat.ofDigitChars_toDigits (by decide) (by decide)

theorem isDigit_of_mem_toDigits {c : Char} (member : c ∈ Nat.toDigits 10 n) : c.isDigit = true :=
  Nat.isDigit_of_mem_toDigits (by decide) (by decide) member

theorem head?_toDigits (positive : 0 < n) : (Nat.toDigits 10 n).head? ≠ some '0' := by
  induction n using Nat.strongRecOn with
  | ind n ih =>
    by_cases single : n < 10
    · rw [Nat.toDigits_of_lt_base single]
      have digits : ∀ d, d < 10 → 0 < d → [Nat.digitChar d].head? ≠ some '0' := by decide
      exact digits n single positive
    · have front := ih (n / 10) (by omega) (by omega)
      rw [Nat.toDigits_of_base_le (by decide) (by omega)]
      cases digits : Nat.toDigits 10 (n / 10) with
      | nil => exact absurd digits Nat.toDigits_ne_nil
      | cons first others =>
        rw [digits] at front
        exact front

theorem readDigits_zeros (count : Nat) (digits : List Char) :
    readDigits (List.replicate count '0' ++ digits) = readDigits digits := by
  induction count with
  | zero => rfl
  | succ count ih => exact ih

theorem readDigits_append (front back : List Char) :
    readDigits (front ++ back) = readDigits front * 10 ^ back.length + readDigits back := by
  have later (digits : List Char) (start : Nat) :
      digits.foldl (fun value c => 10 * value + (c.toNat - 0x30)) start =
        start * 10 ^ digits.length + readDigits digits := by
    induction digits generalizing start with
    | nil => simp [readDigits]
    | cons c rest ih =>
      rw [readDigits, List.foldl_cons, List.foldl_cons, ih, ih (10 * 0 + _), List.length_cons,
        Nat.pow_succ]
      ring
  rw [readDigits, List.foldl_append, later, ← readDigits]

@[simp]
theorem readDigits_padded (width n : Nat) : readDigits (padded width n) = n := by
  rw [padded, readDigits_zeros, readDigits_toDigits]

theorem isDigit_of_mem_padded {c : Char} (member : c ∈ padded width n) : c.isDigit = true := by
  rcases List.mem_append.mp member with zero | digit
  · obtain rfl := List.eq_of_mem_replicate zero
    rfl
  · exact isDigit_of_mem_toDigits digit

theorem length_padded (positive : 0 < width) (fits : n < 10 ^ width) :
    (padded width n).length = width := by
  have short := (Nat.length_toDigits_le_iff (by decide) positive).mpr fits
  rw [padded, List.length_append, List.length_replicate]
  omega

theorem padded_ne_nil : padded width n ≠ [] :=
  List.append_ne_nil_of_right_ne_nil _ Nat.toDigits_ne_nil

/-- Digits are taken up to the first character that is none. -/
theorem takeWhile_isDigit {digits rest : List Char} (all : ∀ c ∈ digits, c.isDigit = true)
    (stop : ∀ c, rest.head? = some c → c.isDigit = false) :
    (digits ++ rest).takeWhile Char.isDigit = digits := by
  rw [List.takeWhile_append_of_pos all]
  cases rest with
  | nil => simp
  | cons c rest => simp [stop c rfl]

end Text

namespace Numeral

variable {n : Numeral}

/-- The whole part has digits, the first of which is zero only if it stands alone, and the fraction
consists of digits. -/
structure Canonical (n : Numeral) : Prop where
  filled : n.whole ≠ []
  whole : ∀ c ∈ n.whole, c.isDigit = true
  leading : n.whole.head? = some '0' → n.whole.length ≤ 1
  fraction : ∀ c ∈ n.fraction, c.isDigit = true

/-- The digits of a numeral, read as one number. -/
def coefficient (n : Numeral) : Nat := readDigits (n.whole ++ n.fraction)

/-- The power of ten at which the last digit stands. -/
def lastPower (n : Numeral) : Int := n.exponent.getD 0 - n.fraction.length

theorem canonical_ofInt (value : Int) : (ofInt value).Canonical where
  filled := Nat.toDigits_ne_nil
  whole _ member := isDigit_of_mem_toDigits member
  leading zero := by
    by_cases none : value.natAbs = 0
    · simp [ofInt, none]
    · exact absurd zero (head?_toDigits (Nat.pos_of_ne_zero none))
  fraction _ member := by cases member

theorem toInt?_ofInt (value : Int) : (ofInt value).toInt? = some value := by
  simp only [toInt?, ofInt, List.isEmpty_nil, Option.isNone_none, Bool.and_self, ↓reduceIte,
    readDigits_toDigits, decide_eq_true_eq]
  by_cases below : value < 0
  · rw [if_pos below, if_neg (by omega)]
    congr 1
    omega
  · rw [if_neg below]
    congr 1
    omega

def fractionText (fraction : List Char) : List Char :=
  if fraction.isEmpty then [] else '.' :: fraction

theorem text_eq (n : Numeral) :
    n.text = (if n.negative then ['-'] else []) ++
      (n.whole ++ (fractionText n.fraction ++ exponentText n.exponent)) := by
  cases negative : n.negative with
  | false => simp [text, fractionText, negative]
  | true => simp [text, fractionText, negative]

private theorem head?_exponentText (exponent : Option Int) {c : Char}
    (first : (exponentText exponent).head? = some c) : c = 'e' := by
  cases exponent with
  | none => cases first
  | some power => exact (Option.some.inj first).symm

private theorem takeExponent?_exponentText (exponent : Option Int) :
    takeExponent? (exponentText exponent) = some exponent := by
  cases exponent with
  | none => rfl
  | some power =>
    have digits : (Nat.toDigits 10 power.natAbs).all Char.isDigit = true :=
      List.all_eq_true.mpr fun c member => isDigit_of_mem_toDigits member
    have filled : (Nat.toDigits 10 power.natAbs).isEmpty = false := by
      simp
    by_cases below : power < 0
    · have size : -(power.natAbs : Int) = power := by omega
      simp only [exponentText, below, ↓reduceIte, takeExponent?, digits, filled,
        readDigits_toDigits, size]
      rfl
    · have size : (power.natAbs : Int) = power := by omega
      simp only [exponentText, below, ↓reduceIte, takeExponent?, digits, filled,
        readDigits_toDigits, size]
      rfl

private theorem takeFraction?_fractionText {fraction : List Char}
    (digits : ∀ c ∈ fraction, c.isDigit = true) (exponent : Option Int) :
    takeFraction? (fractionText fraction ++ exponentText exponent) =
      some (fraction, exponentText exponent) := by
  have stop : ∀ c, (exponentText exponent).head? = some c → c.isDigit = false := by
    intro c first
    rw [head?_exponentText exponent first]
    rfl
  cases fraction with
  | nil =>
    cases exponent with
    | none => rfl
    | some power => rfl
  | cons digit more =>
    have taken := takeWhile_isDigit digits stop
    simp only [fractionText, List.isEmpty_cons, Bool.false_eq_true, ↓reduceIte, List.cons_append,
      takeFraction?] at taken ⊢
    simp [taken]

/-- The end of a whole part is seen from what follows it. -/
private theorem head?_fractionText (fraction : List Char) (exponent : Option Int) {c : Char}
    (first : (fractionText fraction ++ exponentText exponent).head? = some c) :
    c.isDigit = false := by
  cases fraction with
  | nil =>
    rw [head?_exponentText exponent first]
    rfl
  | cons digit more =>
    obtain rfl := Option.some.inj first
    rfl

theorem ofText?_text (canonical : n.Canonical) : ofText? n.text = some n := by
  obtain ⟨negative, whole, fraction, exponent⟩ := n
  obtain ⟨filled, wholeDigits, leading, fractionDigits⟩ := canonical
  have fractionRead := takeFraction?_fractionText fractionDigits exponent
  have exponentRead := takeExponent?_exponentText exponent
  have stop := fun c => head?_fractionText fraction exponent (c := c)
  rw [text_eq]
  dsimp only at fractionRead ⊢
  generalize fractionText fraction ++ exponentText exponent = rest at fractionRead stop ⊢
  have taken := takeWhile_isDigit wholeDigits stop
  cases negative with
  | true => simpa [ofText?, taken, fractionRead, exponentRead] using And.intro filled leading
  | false =>
    cases whole with
    | nil => exact absurd rfl filled
    | cons digit more =>
      -- A digit is no sign, so the whole text is read as the unsigned part.
      have noSign : digit ≠ '-' := by
        rintro rfl
        exact absurd (wholeDigits '-' List.mem_cons_self) (by decide)
      have alone : digit = '0' → more = [] := by
        rintro rfl
        exact List.length_eq_zero_iff.mp (Nat.le_zero.mp (Nat.le_of_succ_le_succ (leading rfl)))
      rw [List.cons_append] at taken
      simpa [ofText?, noSign, taken, fractionRead, exponentRead] using alone

end Numeral

end WritePlan
