import WritePlan.Binary64.Layout
import WritePlan.Proofs.Numerals
import WritePlan.Proofs.QuickReading
import Mathlib.Data.List.DropRight

/-! The shortest decimal of a double lies in the interval of the double, and its layout as a numeral
keeps its value; so a numeral of few digits is read back. Main statements: `rounds_shortest`,
`rounds_numeral` and `ofNumeral?_numeral`. -/
namespace WritePlan

open Text

namespace Binary64

variable {x : Binary64}

theorem significand_pos (nonzero : x.isZero = false) : 0 < x.significand := by
  unfold significand
  by_cases small : x.biasedExponent = 0
  · have filled : x.fraction ≠ 0 := by simpa [isZero, small] using nonzero
    rw [if_pos (by simpa using small)]
    exact Nat.pos_of_ne_zero filled
  · rw [if_neg (by simpa using small)]
    exact Nat.add_pos_left (by decide) _

/-- A power with an exponent of either sign, as a quotient of two that have none. -/
private theorem pow_toNat {base : ℚ} (nonzero : base ≠ 0) (exponent : Int) :
    base ^ exponent.toNat = base ^ exponent * base ^ (-exponent).toNat := by
  rw [← zpow_natCast, ← zpow_natCast, ← zpow_add₀ nonzero]
  congr 1
  omega

/-- What a count of quarters of the last binary place is multiplied by on a decimal grid. -/
def spanFactor (x : Binary64) (place : Int) : Nat :=
  Nat.pow 2 (x.scale - 2).toNat * Nat.pow 10 (-place).toNat

/-- Quarters of the last binary place and multiples of a power of ten have one measure. -/
private theorem spanFactor_mul (x : Binary64) (place : Int) :
    (x.spanFactor place : ℚ) * 10 ^ place = 2 ^ (x.scale - 2) * (x.span place).unit := by
  have factor : (x.spanFactor place : ℚ) = 2 ^ (x.scale - 2).toNat * 10 ^ (-place).toNat := by
    exact_mod_cast rfl
  have unit : ((x.span place).unit : ℚ) = 2 ^ (-(x.scale - 2)).toNat * 10 ^ place.toNat := by
    exact_mod_cast rfl
  rw [factor, unit, pow_toNat two_ne_zero, pow_toNat (by norm_num : (10 : ℚ) ≠ 0) place]
  ring

theorem unit_pos (x : Binary64) (place : Int) : 0 < (x.span place).unit :=
  Nat.mul_pos (Nat.pow_pos (by decide)) (Nat.pow_pos (by decide))

private theorem quarters_mul_unit (x : Binary64) (place : Int) (quarters : Nat) :
    (quarters * 2 ^ (x.scale - 2) : ℚ) * (x.span place).unit =
      ((quarters * x.spanFactor place : Nat) : ℚ) * 10 ^ place := by
  rw [mul_assoc, ← spanFactor_mul, ← mul_assoc]
  push_cast
  rfl

private theorem quarters_le_iff (x : Binary64) (place : Int) (quarters coefficient : Nat) :
    quarters * x.spanFactor place ≤ coefficient * (x.span place).unit ↔
      (quarters * 2 ^ (x.scale - 2) : ℚ) ≤ coefficient * 10 ^ place := by
  have unit : (0 : ℚ) < (x.span place).unit := by exact_mod_cast x.unit_pos place
  have ten : (0 : ℚ) < 10 ^ place := by positivity
  rw [← mul_le_mul_iff_left₀ unit, quarters_mul_unit, mul_right_comm (coefficient : ℚ),
    mul_le_mul_iff_left₀ ten]
  exact_mod_cast Iff.rfl

private theorem le_quarters_iff (x : Binary64) (place : Int) (quarters coefficient : Nat) :
    coefficient * (x.span place).unit ≤ quarters * x.spanFactor place ↔
      (coefficient * 10 ^ place : ℚ) ≤ quarters * 2 ^ (x.scale - 2) := by
  have unit : (0 : ℚ) < (x.span place).unit := by exact_mod_cast x.unit_pos place
  have ten : (0 : ℚ) < 10 ^ place := by positivity
  rw [← mul_le_mul_iff_left₀ unit, quarters_mul_unit, mul_right_comm (coefficient : ℚ),
    mul_le_mul_iff_left₀ ten]
  exact_mod_cast Iff.rfl

theorem low_span (x : Binary64) (place : Int) :
    (x.span place).low = (4 * x.significand - x.gap) * x.spanFactor place := rfl

theorem high_span (x : Binary64) (place : Int) :
    (x.span place).high = (4 * x.significand + 2) * x.spanFactor place := rfl

/-- The grid points in the interval are those that round to the double. -/
theorem rounds_of_holds (nonzero : x.isZero = false) {place : Int} {coefficient : Nat}
    (held : (x.span place).holds coefficient = true) : x.Rounds (coefficient * 10 ^ place) := by
  have positive := significand_pos nonzero
  have small := x.gap_le
  have low := x.quarters_le_iff place (4 * x.significand - x.gap) coefficient
  have high := x.le_quarters_iff place (4 * x.significand + 2) coefficient
  have above := x.le_quarters_iff place (4 * x.significand - x.gap) coefficient
  have below := x.quarters_le_iff place (4 * x.significand + 2) coefficient
  have ends : ((4 * x.significand - x.gap : Nat) : ℚ) = 4 * x.significand - x.gap := by
    rw [Nat.cast_sub (by omega)]
    push_cast
    rfl
  have closed : (x.span place).closed = (x.significand % 2 == 0) := rfl
  push_cast [ends] at low high above below
  rw [Span.holds, low_span, high_span, closed] at held
  by_cases even : x.significand % 2 = 0
  · simp only [even, beq_self_eq_true, ↓reduceIte, Bool.and_eq_true, decide_eq_true_eq] at held
    exact ⟨low.mp held.1, high.mp held.2, fun odd => absurd odd (by omega)⟩
  · simp only [beq_false_of_ne even, Bool.false_eq_true, ↓reduceIte, Bool.and_eq_true,
      decide_eq_true_eq] at held
    have inside := And.intro (lt_of_not_ge (mt above.mpr (Nat.not_le.mpr held.1)))
      (lt_of_not_ge (mt below.mpr (Nat.not_le.mpr held.2)))
    exact ⟨inside.1.le, inside.2.le, fun _ => inside⟩

/-- An interval that is longer than the unit of the grid holds one of the two grid points around
the value. -/
theorem Span.exists_pick? {s : Span} (unit : 0 < s.unit) (low : s.low ≤ s.value)
    (high : s.value < s.high) (long : s.low + s.unit < s.high) (tie : Tie) :
    ∃ coefficient, s.pick? tie = some coefficient := by
  have below : s.value / s.unit * s.unit ≤ s.value := Nat.div_mul_le_self ..
  have above : s.value < (s.value / s.unit + 1) * s.unit := by
    rw [Nat.mul_comm]
    exact Nat.lt_mul_div_succ s.value unit
  have held : s.holds (s.value / s.unit) = true ∨ s.holds (s.value / s.unit + 1) = true := by
    unfold holds
    rw [Nat.add_one_mul] at above ⊢
    cases s.closed with
    | true =>
      simp only [↓reduceIte, Bool.and_eq_true, decide_eq_true_eq]
      omega
    | false =>
      simp only [Bool.false_eq_true, ↓reduceIte, Bool.and_eq_true, decide_eq_true_eq]
      omega
  unfold pick?
  dsimp only
  split
  · rename_i outBelow outAbove
    simp [outBelow, outAbove] at held
  · exact ⟨_, rfl⟩
  · exact ⟨_, rfl⟩
  · split
    · exact ⟨_, rfl⟩
    · split
      · exact ⟨_, rfl⟩
      · cases tie <;> exact ⟨_, rfl⟩

/-- The grid point that is picked lies in the interval. -/
theorem Span.holds_of_pick? {s : Span} {tie : Tie} {coefficient : Nat}
    (picked : s.pick? tie = some coefficient) : s.holds coefficient = true := by
  unfold pick? at picked
  dsimp only at picked
  split at picked
  · cases picked
  · cases picked
    assumption
  · cases picked
    assumption
  · split at picked
    · cases picked
      assumption
    · split at picked
      · cases picked
        assumption
      · cases tie with
        | upward =>
          cases picked
          assumption
        | toEven =>
          -- The even one of two neighbours is one of the two.
          cases picked
          rcases Nat.mod_two_eq_zero_or_one (s.value / s.unit) with even | odd
          · rw [even]
            assumption
          · rw [odd]
            assumption

private theorem pow_le_of_length {n more : Nat} (positive : 0 < n)
    (digits : (Nat.toDigits 10 n).length = more + 1) : 10 ^ more ≤ n := by
  by_contra less
  cases more with
  | zero => omega
  | succ before =>
    have short := (Nat.length_toDigits_le_iff (by decide) (Nat.succ_pos before)).mpr (not_le.mp less)
    omega

/-- The place of its first digit tells the size of a value. -/
theorem zpow_leading_le {a : Magnitude} (filled : 0 < a.num) (positive : 0 < a.den) :
    (10 : ℚ) ^ a.leading ≤ a.value := by
  have den : (0 : ℚ) < a.den := by exact_mod_cast positive
  unfold Magnitude.leading
  by_cases large : a.den ≤ a.num
  · obtain ⟨more, digits⟩ : ∃ more, (Nat.toDigits 10 (a.num / a.den)).length = more + 1 :=
      Nat.exists_eq_add_one_of_ne_zero (by simp)
    have reached := pow_le_of_length (Nat.div_pos large positive) digits
    have bound : 10 ^ more * a.den ≤ a.num := (Nat.le_div_iff_mul_le positive).mp reached
    have exponent : ((more + 1 : Nat) : Int) - 1 = more := by omega
    rw [if_pos large, digits, exponent, zpow_natCast, Magnitude.value, le_div_iff₀ den]
    exact_mod_cast bound
  · have digits : (a.den - 1) / a.num < 10 ^ (Nat.toDigits 10 ((a.den - 1) / a.num)).length :=
      (Nat.length_toDigits_le_iff (by decide) Nat.length_toDigits_pos).mp le_rfl
    have bound : a.den ≤ 10 ^ (Nat.toDigits 10 ((a.den - 1) / a.num)).length * a.num := by
      have := (Nat.div_lt_iff_lt_mul filled).mp digits
      omega
    rw [if_neg large, zpow_neg, zpow_natCast, Magnitude.value, le_div_iff₀ den,
      inv_mul_le_iff₀ (by positivity)]
    exact_mod_cast bound

/-- The interval of a double is longer than its value divided by ten to the 16. -/
theorem significand_lt_width (x : Binary64) : 4 * x.significand < (x.gap + 2) * 10 ^ 16 := by
  by_cases narrow : (x.fraction == 0 && 1 < x.biasedExponent) = true
  · obtain ⟨none, large⟩ : x.fraction = 0 ∧ 1 < x.biasedExponent := by simpa using narrow
    have power : x.significand = exponentUnit := by
      rw [significand, if_neg (by simp; omega), none, Nat.add_zero]
    rw [gap, if_pos narrow, power, exponentUnit]
    norm_num
  · have bounded := x.significand_lt
    rw [gap, if_neg narrow]
    omega

/-- On the grid of seventeen digits the interval of a double is longer than the unit. -/
theorem long_span (nonzero : x.isZero = false) :
    (x.span (x.magnitude.leading - 16)).low + (x.span (x.magnitude.leading - 16)).unit <
      (x.span (x.magnitude.leading - 16)).high := by
  have positive := significand_pos nonzero
  have small := x.gap_le
  have filled : 0 < x.magnitude.num := Nat.mul_pos positive (Nat.pow_pos (by decide))
  have leading := zpow_leading_le filled x.magnitude_den_pos
  have width : (4 * x.significand : ℚ) < (x.gap + 2) * 10 ^ 16 := by
    exact_mod_cast x.significand_lt_width
  have quarter : (0 : ℚ) < 2 ^ (x.scale - 2) := by positivity
  have whole : x.magnitude.value = 4 * x.significand * 2 ^ (x.scale - 2) := by
    rw [value_magnitude, size_quarters]
  have short : (1 : ℚ) * 10 ^ (x.magnitude.leading - 16) < (x.gap + 2) * 2 ^ (x.scale - 2) := by
    rw [one_mul, zpow_sub₀ (by norm_num), div_lt_iff₀ (by positivity)]
    calc (10 : ℚ) ^ x.magnitude.leading ≤ 4 * x.significand * 2 ^ (x.scale - 2) := whole ▸ leading
      _ < (x.gap + 2) * 10 ^ 16 * 2 ^ (x.scale - 2) := by gcongr
      _ = (x.gap + 2) * 2 ^ (x.scale - 2) * 10 ^ (16 : Int) := by
          have power : (10 : ℚ) ^ (16 : Int) = 10 ^ 16 := by norm_num
          rw [power]
          ring
  have compared := x.quarters_le_iff (x.magnitude.leading - 16) (x.gap + 2) 1
  push_cast at compared
  have room := Nat.not_le.mp (mt compared.mp (not_le.mpr short))
  have ends : (4 * x.significand + 2) = (4 * x.significand - x.gap) + (x.gap + 2) := by omega
  rw [low_span, high_span, ends, Nat.add_mul]
  omega

theorem rounds_shortest (nonzero : x.isZero = false) (tie : Tie) :
    x.Rounds ((x.shortest tie).coefficient * 10 ^ (x.shortest tie).place) := by
  have factor : 0 < x.spanFactor (x.magnitude.leading - 16) :=
    Nat.mul_pos (Nat.pow_pos (by decide)) (Nat.pow_pos (by decide))
  obtain ⟨last, picked⟩ := Span.exists_pick? (x.unit_pos (x.magnitude.leading - 16))
    (Nat.mul_le_mul_right _ (Nat.sub_le ..)) (Nat.mul_lt_mul_of_pos_right (by omega) factor)
    (long_span nonzero) tie
  rw [shortest]
  cases found : (List.range 17).findSome? fun (more : Nat) =>
      ((x.span (x.magnitude.leading - more)).pick? tie).map fun coefficient =>
        Decimal.mk coefficient (x.magnitude.leading - more) with
  | none =>
    have refused := List.findSome?_eq_none_iff.mp found 16 (by simp)
    simp [picked] at refused
  | some decimal =>
    obtain ⟨more, _, tried⟩ := List.exists_of_findSome?_eq_some found
    obtain ⟨coefficient, inside, rfl⟩ := Option.map_eq_some_iff.mp tried
    exact rounds_of_holds nonzero (Span.holds_of_pick? inside)

theorem Rounds.pos {value : ℚ} (rounds : x.Rounds value) (nonzero : x.isZero = false) : 0 < value := by
  have some : (1 : ℚ) ≤ x.significand := by exact_mod_cast significand_pos nonzero
  have gap : (x.gap : ℚ) ≤ 2 := by exact_mod_cast x.gap_le
  have quarters : (0 : ℚ) < 4 * x.significand - x.gap := by linarith
  exact lt_of_lt_of_le (by positivity) rounds.low

theorem shortest_pos (nonzero : x.isZero = false) (tie : Tie) : 0 < (x.shortest tie).coefficient := by
  have positive := (rounds_shortest nonzero tie).pos nonzero
  have ten : (0 : ℚ) < 10 ^ (x.shortest tie).place := by positivity
  exact_mod_cast pos_of_mul_pos_left positive ten.le

end Binary64

namespace NumberLayout

variable {layout : NumberLayout} {digits : List Char} {x : Binary64}

theorem readDigits_replicate (digits : List Char) (zeros : Nat) :
    readDigits (digits ++ List.replicate zeros '0') = readDigits digits * 10 ^ zeros := by
  have none : readDigits (List.replicate zeros '0') = 0 := by
    simpa [readDigits] using readDigits_zeros zeros []
  rw [readDigits_append, none, List.length_replicate, Nat.add_zero]

private theorem size_plain (places : readDigits layout.wholeFraction = 0) (negative : Bool)
    (digits : List Char) (leading : Int) :
    ((layout.plain negative digits leading).coefficient : ℚ) *
        10 ^ (layout.plain negative digits leading).lastPower =
      readDigits digits * 10 ^ (leading + 1 - digits.length) := by
  unfold plain
  split
  · have coefficient : readDigits (['0'] ++ (List.replicate (-leading - 1).toNat '0' ++ digits)) =
        readDigits digits := readDigits_zeros ((-leading - 1).toNat + 1) digits
    have power : (0 : Int) - ((List.replicate (-leading - 1).toNat '0' ++ digits).length : Int) =
        leading + 1 - digits.length := by
      rw [List.length_append, List.length_replicate]
      omega
    rw [Numeral.coefficient, Numeral.lastPower, coefficient, Option.getD_none, power]
  · dsimp only
    split
    · obtain ⟨zeros, counted⟩ : ∃ zeros, leading.toNat + 1 - digits.length = zeros := ⟨_, rfl⟩
      have coefficient : readDigits (digits ++ List.replicate zeros '0' ++ layout.wholeFraction) =
          readDigits digits * 10 ^ (zeros + layout.wholeFraction.length) := by
        rw [readDigits_append, places, readDigits_replicate, Nat.add_zero, pow_add, mul_assoc]
      have power : leading + 1 - digits.length = zeros := by omega
      rw [Numeral.coefficient, Numeral.lastPower, counted, coefficient, Option.getD_none, power]
      push_cast
      rw [mul_assoc, ← zpow_natCast, ← zpow_add₀ (by norm_num)]
      congr 2
      omega
    · have power : (0 : Int) - ((digits.drop (leading.toNat + 1)).length : Int) =
          leading + 1 - digits.length := by
        rw [List.length_drop]
        omega
      rw [Numeral.coefficient, Numeral.lastPower, List.take_append_drop, Option.getD_none, power]

private theorem size_scientific (filled : digits ≠ []) (negative : Bool) (leading : Int) :
    ((scientific negative digits leading).coefficient : ℚ) *
        10 ^ (scientific negative digits leading).lastPower =
      readDigits digits * 10 ^ (leading + 1 - digits.length) := by
  have some := List.length_pos_of_ne_nil filled
  have power : leading - ((digits.drop 1).length : Int) = leading + 1 - digits.length := by
    rw [List.length_drop]
    omega
  rw [Numeral.coefficient, Numeral.lastPower, scientific, List.take_append_drop, Option.getD_some,
    power]

/-- The digits that are not significant are zeros at the end. -/
private theorem exists_zeros (digits : List Char) :
    ∃ zeros, digits.rdropWhile (· == '0') ++ List.replicate zeros '0' = digits := by
  refine ⟨(digits.rtakeWhile (· == '0')).length, ?_⟩
  have all : digits.rtakeWhile (· == '0') =
      List.replicate (digits.rtakeWhile (· == '0')).length '0' := by
    apply List.eq_replicate_of_mem
    intro c member
    simpa using List.mem_rtakeWhile_imp member
  rw [← all]
  exact List.rdropWhile_append_rtakeWhile

theorem size_significant (decimal : Decimal) :
    (readDigits (decimal.digits.rdropWhile (· == '0')) : ℚ) *
        10 ^ (decimal.leading + 1 - (decimal.digits.rdropWhile (· == '0')).length) =
      decimal.coefficient * 10 ^ decimal.place := by
  obtain ⟨zeros, split⟩ := exists_zeros decimal.digits
  have coefficient : decimal.coefficient = readDigits decimal.digits :=
    (readDigits_toDigits decimal.coefficient).symm
  have length : (decimal.digits.length : Int) =
      (decimal.digits.rdropWhile (· == '0')).length + zeros := by
    conv_lhs => rw [← split]
    simp
  have power : decimal.leading + 1 - (decimal.digits.rdropWhile (· == '0')).length =
      decimal.place + zeros := by
    rw [Decimal.leading]
    omega
  rw [coefficient, power]
  conv_rhs => rw [← split, readDigits_replicate]
  push_cast
  rw [zpow_add₀ (by norm_num), zpow_natCast]
  ring

/-- The digits without the zeros at their end still begin with the first one. -/
theorem significant_spec {decimal : Decimal} (positive : 0 < decimal.coefficient) :
    decimal.digits.rdropWhile (· == '0') ≠ [] ∧
      (∀ c ∈ decimal.digits.rdropWhile (· == '0'), c.isDigit = true) ∧
      (decimal.digits.rdropWhile (· == '0')).head? ≠ some '0' := by
  have leads : decimal.digits.head? ≠ some '0' := head?_toDigits positive
  have digits : ∀ c ∈ decimal.digits, c.isDigit = true := fun _ => isDigit_of_mem_toDigits
  obtain ⟨dropped, whole⟩ := List.rdropWhile_prefix (· == '0') decimal.digits
  cases kept : decimal.digits.rdropWhile (· == '0') with
  | nil =>
    have zero := List.rdropWhile_eq_nil_iff.mp kept
    cases all : decimal.digits with
    | nil => exact absurd all Nat.toDigits_ne_nil
    | cons first more =>
      rw [all] at leads zero
      exact absurd (zero first List.mem_cons_self) (by simpa using leads)
  | cons first more =>
    rw [kept] at whole
    rw [← whole] at leads digits
    exact ⟨by simp, fun c member => digits c (List.mem_append_left dropped member),
      by simpa using leads⟩

/-- Digits that do not begin with a zero can be laid out around any decimal point. -/
theorem canonical_plain (places : ∀ c ∈ layout.wholeFraction, c.isDigit = true)
    (filled : digits ≠ []) (all : ∀ c ∈ digits, c.isDigit = true)
    (leads : digits.head? ≠ some '0') (negative : Bool) (leading : Int) :
    (layout.plain negative digits leading).Canonical := by
  have zeros (count : Nat) : ∀ c ∈ List.replicate count '0', c.isDigit = true := by
    intro c member
    rw [List.eq_of_mem_replicate member]
    rfl
  cases digits with
  | nil => exact absurd rfl filled
  | cons first more =>
    unfold plain
    split
    · exact ⟨by simp, by simp, by simp, List.forall_mem_append.mpr ⟨zeros _, all⟩⟩
    · dsimp only
      split
      · exact ⟨by simp, List.forall_mem_append.mpr ⟨all, zeros _⟩, fun zero => absurd zero leads,
          places⟩
      · exact ⟨by simp, fun c member => all c (List.mem_of_mem_take member),
          fun zero => absurd zero leads, fun c member => all c (List.mem_of_mem_drop member)⟩

theorem canonical_scientific (filled : digits ≠ []) (all : ∀ c ∈ digits, c.isDigit = true)
    (negative : Bool) (leading : Int) : (scientific negative digits leading).Canonical where
  filled := by simpa [scientific] using filled
  whole c member := all c (List.mem_of_mem_take member)
  leading _ := List.length_take_le 1 digits
  fraction c member := all c (List.mem_of_mem_drop member)

theorem numeral_of_zero (zero : x.isZero = true) :
    layout.numeral x = ⟨x.isNegative, ['0'], layout.wholeFraction, none⟩ := if_pos zero

/-- Other numbers are laid out around their significant digits in one of two ways. -/
theorem numeral_cases (layout : NumberLayout) (nonzero : x.isZero = false) :
    layout.numeral x = layout.plain x.isNegative
        ((x.shortest layout.tie).digits.rdropWhile (· == '0')) (x.shortest layout.tie).leading ∨
      layout.numeral x = scientific x.isNegative
        ((x.shortest layout.tie).digits.rdropWhile (· == '0')) (x.shortest layout.tie).leading := by
  rw [numeral, if_neg (by simp [nonzero])]
  dsimp only
  split
  · exact .inl rfl
  · exact .inr rfl

theorem canonical_numeral (places : ∀ c ∈ layout.wholeFraction, c.isDigit = true) (x : Binary64) :
    (layout.numeral x).Canonical := by
  by_cases zero : x.isZero = true
  · rw [numeral_of_zero zero]
    exact ⟨by simp, by simp, by simp, places⟩
  · have nonzero := Bool.eq_false_iff.mpr zero
    obtain ⟨filled, all, leads⟩ := significant_spec (Binary64.shortest_pos nonzero layout.tie)
    rcases layout.numeral_cases nonzero with plain | scientific
    · rw [plain]
      exact canonical_plain places filled all leads x.isNegative _
    · rw [scientific]
      exact canonical_scientific filled all x.isNegative _

theorem negative_numeral (x : Binary64) : (layout.numeral x).negative = x.isNegative := by
  by_cases zero : x.isZero = true
  · rw [numeral_of_zero zero]
  · rcases layout.numeral_cases (Bool.eq_false_iff.mpr zero) with plain | scientific
    · rw [plain]
      unfold NumberLayout.plain
      split
      · rfl
      · dsimp only
        split <;> rfl
    · rw [scientific]
      rfl

/-- The value that the numeral of a double tells lies around the double. -/
theorem rounds_numeral (places : readDigits layout.wholeFraction = 0) (nonzero : x.isZero = false) :
    x.Rounds ((layout.numeral x).coefficient * 10 ^ (layout.numeral x).lastPower) := by
  have rounds := Binary64.rounds_shortest nonzero layout.tie
  rw [← size_significant] at rounds
  rcases layout.numeral_cases nonzero with plain | scientific
  · rw [plain, size_plain places]
    exact rounds
  · have filled := (significant_spec (Binary64.shortest_pos nonzero layout.tie)).1
    rw [scientific, size_scientific filled]
    exact rounds

/-- The numeral of a zero is read as the zero of its sign. -/
theorem ofNumeral?_zero (places : readDigits layout.wholeFraction = 0) (zero : x.isZero = true)
    (small : (layout.numeral x).lastPower.natAbs ≤ 308) :
    Binary64.ofNumeral? (layout.numeral x) = some x := by
  have none : (layout.numeral x).coefficient = 0 := by
    rw [numeral_of_zero zero, Numeral.coefficient, readDigits_append, places]
    simp [readDigits]
  obtain ⟨biased, fraction⟩ : x.biasedExponent = 0 ∧ x.fraction = 0 := by
    simpa [Binary64.isZero] using zero
  have bits : Binary64.zero.bits.toNat = x.bits.toNat % 2 ^ 63 := by
    rw [Binary64.bits_mod_eq, Binary64.scale, Binary64.significand, biased, fraction]
    rfl
  rw [Binary64.ofNumeral?_of_fits (none ▸ by decide), none, Binary64.timesPowerOfTen?_zero small,
    Option.map_some, negative_numeral, Binary64.signed_eq bits]

/-- The numeral of a double is read as the double if it has few digits and a small power of ten. -/
theorem ofNumeral?_numeral (places : readDigits layout.wholeFraction = 0) (finite : x.isFinite = true)
    (few : (layout.numeral x).coefficient < 2 ^ 53)
    (small : (layout.numeral x).lastPower.natAbs ≤ 22) :
    Binary64.ofNumeral? (layout.numeral x) = some x := by
  by_cases zero : x.isZero = true
  · exact ofNumeral?_zero places zero (by omega)
  · have nonzero := Bool.eq_false_iff.mpr zero
    have rounds := rounds_numeral places nonzero
    have positive : 0 < (layout.numeral x).coefficient := by
      have ten : (0 : ℚ) < 10 ^ (layout.numeral x).lastPower := by positivity
      exact_mod_cast pos_of_mul_pos_left (rounds.pos nonzero) ten.le
    obtain ⟨size, bits, read⟩ := Binary64.ofNumeral?_of_short finite positive few small rounds
    rw [read, negative_numeral, Binary64.signed_eq bits]

end NumberLayout

end WritePlan
