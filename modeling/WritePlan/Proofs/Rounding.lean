import WritePlan.Binary64.Rounding
import Mathlib.Algebra.Order.Field.Power
import Mathlib.Data.Nat.Log
import Mathlib.Tactic.FieldSimp
import Mathlib.Tactic.Linarith
import Mathlib.Tactic.Positivity
import Mathlib.Tactic.Ring

/-! Rounding to double precision finds the double around which a value lies. The values that belong
to a double fill an interval around it, which ends half way to its neighbours. Main statement:
`ofMagnitude_of_rounds`. -/
namespace WritePlan

namespace Magnitude

variable {a b : Magnitude}

def value (a : Magnitude) : ℚ := a.num / a.den

theorem value_scaled (coefficient base : Nat) (exponent : Int) :
    (scaled coefficient base exponent).value = coefficient * (base : ℚ) ^ exponent := by
  obtain ⟨n, rfl | rfl⟩ := exponent.eq_nat_or_neg
  · simp [value, scaled]
  · have none : (-(n : Int)).toNat = 0 := by omega
    simp [value, scaled, none, div_eq_mul_inv]

@[simp]
theorem value_mul (a b : Magnitude) : (a.mul b).value = a.value * b.value := by
  simp [value, mul, mul_div_mul_comm]

@[simp]
theorem value_div (a b : Magnitude) : (a.div b).value = a.value / b.value := by
  simp [value, div, div_div_div_eq]

theorem value_inUnits (a : Magnitude) (place : Int) :
    (a.inUnits place).value = a.value * 2 ^ (-place) := by
  simp [inUnits, value_scaled]

theorem num_eq (positive : 0 < a.den) : (a.num : ℚ) = a.value * a.den := by
  have filled : (a.den : ℚ) ≠ 0 := by exact_mod_cast positive.ne'
  rw [value, div_mul_cancel₀ _ filled]

theorem value_near (positive : 0 < a.den) :
    (a.roundHalfEven : ℚ) - 1 / 2 ≤ a.value ∧ a.value ≤ a.roundHalfEven + 1 / 2 := by
  have den : (0 : ℚ) < a.den := by exact_mod_cast positive
  have near := a.roundHalfEven_near positive
  have upper : 2 * (a.num : ℚ) ≤ 2 * (a.den * a.roundHalfEven) + a.den := by exact_mod_cast near.1
  have lower : 2 * (a.den * a.roundHalfEven : ℚ) ≤ 2 * a.num + a.den := by exact_mod_cast near.2
  rw [num_eq positive] at upper lower
  constructor
  · apply le_of_mul_le_mul_right _ den
    linarith
  · apply le_of_mul_le_mul_right _ den
    linarith

/-- Of a value half way between two numbers the even one is taken. -/
theorem roundHalfEven_even (positive : 0 < a.den)
    (half : a.value = a.roundHalfEven + 1 / 2 ∨ a.value = a.roundHalfEven - 1 / 2) :
    a.roundHalfEven % 2 = 0 := by
  have den : (0 : ℚ) < a.den := by exact_mod_cast positive
  have number : (2 * a.num : ℚ) = 2 * (a.den * a.roundHalfEven) + a.den ∨
      (2 * (a.den * a.roundHalfEven) : ℚ) = 2 * a.num + a.den := by
    rw [num_eq positive]
    rcases half with above | below
    · left
      rw [above]
      ring
    · right
      rw [below]
      ring
  have number : 2 * a.num = 2 * (a.den * a.roundHalfEven) + a.den ∨
      2 * (a.den * a.roundHalfEven) = 2 * a.num + a.den := by exact_mod_cast number
  have whole := Nat.div_add_mod a.num a.den
  have small := Nat.mod_lt a.num positive
  unfold roundHalfEven at number ⊢
  generalize a.num / a.den = low at whole number ⊢
  dsimp only at number ⊢
  split at number
  · omega
  · split at number
    · rw [Nat.mul_add, Nat.mul_one] at number
      omega
    · rw [if_neg (by assumption), if_neg (by assumption)]
      omega

/-- A value is rounded to the number it is nearest to, or to the even one of two. -/
theorem roundHalfEven_eq (positive : 0 < a.den) {n : Nat} (low : (n : ℚ) - 1 / 2 ≤ a.value)
    (high : a.value ≤ n + 1 / 2)
    (inside : n % 2 = 1 → (n : ℚ) - 1 / 2 < a.value ∧ a.value < n + 1 / 2) :
    a.roundHalfEven = n := by
  obtain ⟨lower, upper⟩ := value_near positive
  have even := roundHalfEven_even positive
  generalize a.roundHalfEven = r at lower upper even ⊢
  have below : r ≤ n + 1 := by
    have : (r : ℚ) ≤ n + 1 := by linarith
    exact_mod_cast this
  have above : n ≤ r + 1 := by
    have : (n : ℚ) ≤ r + 1 := by linarith
    exact_mod_cast this
  rcases Nat.lt_trichotomy r n with less | same | more
  · -- Half way between two neighbours both would have to be even.
    obtain rfl : n = r + 1 := by omega
    push_cast at low inside
    have parity := even (.inl (by linarith))
    have strict := (inside (by omega)).1
    linarith
  · exact same
  · obtain rfl : r = n + 1 := by omega
    push_cast at lower even
    have parity := even (.inr (by linarith))
    have strict := (inside (by omega)).2
    linarith

/-- At this binary place a value has 53 digits, or fewer if the place is the last of all. -/
structure IsPlace (value : ℚ) (place : Int) : Prop where
  atLeast : -1074 ≤ place
  below : value * 2 ^ (-place) < 2 ^ 53
  full : place = -1074 ∨ 2 ^ 52 ≤ value * 2 ^ (-place)

theorem IsPlace.le {value : ℚ} {first second : Int} (one : IsPlace value first)
    (other : IsPlace value second) : second ≤ first := by
  by_contra less
  have full : 2 ^ 52 ≤ value * 2 ^ (-second) := other.full.resolve_left (by have := one.atLeast; omega)
  have split : value * 2 ^ (-first) = value * 2 ^ (-second) * 2 ^ (second - first) := by
    rw [mul_assoc, ← zpow_add₀ (by norm_num)]
    congr 2
    omega
  have twice : (2 : ℚ) ≤ 2 ^ (second - first) := by
    calc (2 : ℚ) = 2 ^ (1 : Int) := by norm_num
      _ ≤ 2 ^ (second - first) := zpow_le_zpow_right₀ (by norm_num) (by omega)
  have below := one.below
  rw [split] at below
  nlinarith

theorem IsPlace.unique {value : ℚ} {first second : Int} (one : IsPlace value first)
    (other : IsPlace value second) : first = second :=
  le_antisymm (other.le one) (one.le other)

theorem inUnits_den_pos (positive : 0 < a.den) (place : Int) : 0 < (a.inUnits place).den :=
  Nat.mul_pos positive (Nat.pow_pos (by decide))

private theorem div_lt_iff_value (positive : 0 < a.den) (bound : Nat) :
    a.num / a.den < bound ↔ a.value < bound := by
  have den : (0 : ℚ) < a.den := by exact_mod_cast positive
  rw [Nat.div_lt_iff_lt_mul positive, value, div_lt_iff₀ den]
  exact_mod_cast Iff.rfl

/-- The lengths of numerator and denominator tell a value up to a factor of two. -/
private theorem value_log2 (filled : 0 < a.num) (positive : 0 < a.den) :
    (2 : ℚ) ^ ((a.num.log2 : Int) - a.den.log2 - 1) < a.value ∧
      a.value < 2 ^ ((a.num.log2 : Int) - a.den.log2 + 1) := by
  have num : (2 : ℚ) ^ a.num.log2 ≤ a.num ∧ (a.num : ℚ) < 2 ^ (a.num.log2 + 1) :=
    ⟨by exact_mod_cast Nat.log2_self_le filled.ne', by exact_mod_cast Nat.lt_log2_self⟩
  have den : (2 : ℚ) ^ a.den.log2 ≤ a.den ∧ (a.den : ℚ) < 2 ^ (a.den.log2 + 1) :=
    ⟨by exact_mod_cast Nat.log2_self_le positive.ne', by exact_mod_cast Nat.lt_log2_self⟩
  have some : (0 : ℚ) < a.den := by exact_mod_cast positive
  have lower : (2 : ℚ) ^ ((a.num.log2 : Int) - a.den.log2 - 1) =
      2 ^ a.num.log2 / 2 ^ (a.den.log2 + 1) := by
    rw [sub_sub, zpow_sub₀ (by norm_num)]
    exact_mod_cast rfl
  have upper : (2 : ℚ) ^ ((a.num.log2 : Int) - a.den.log2 + 1) =
      2 ^ (a.num.log2 + 1) / 2 ^ a.den.log2 := by
    rw [sub_add_eq_add_sub, zpow_sub₀ (by norm_num)]
    exact_mod_cast rfl
  rw [lower, upper, value]
  constructor
  · calc (2 : ℚ) ^ a.num.log2 / 2 ^ (a.den.log2 + 1) ≤ a.num / 2 ^ (a.den.log2 + 1) := by
          gcongr
          exact num.1
      _ < a.num / a.den := by
          have : (0 : ℚ) < a.num := by exact_mod_cast filled
          gcongr
          exact den.2
  · calc (a.num : ℚ) / a.den < 2 ^ (a.num.log2 + 1) / a.den := by
          gcongr
          exact num.2
      _ ≤ 2 ^ (a.num.log2 + 1) / 2 ^ a.den.log2 := by
          gcongr
          exact den.1

private theorem zpow_mul_zpow_neg (exponent place : Int) :
    (2 : ℚ) ^ exponent * 2 ^ (-place) = 2 ^ (exponent - place) := by
  rw [← zpow_add₀ (by norm_num), ← sub_eq_add_neg]

theorem isPlace_lastPlace (filled : 0 < a.num) (positive : 0 < a.den) :
    IsPlace a.value a.lastPlace := by
  have fits (place : Int) : (a.inUnits place).num / (a.inUnits place).den < 2 * Binary64.exponentUnit ↔
      a.value * 2 ^ (-place) < 2 ^ 53 := by
    rw [div_lt_iff_value (inUnits_den_pos positive place), value_inUnits]
    norm_num [Binary64.exponentUnit]
  obtain ⟨lower, upper⟩ := value_log2 filled positive
  unfold lastPlace
  dsimp only
  generalize (a.num.log2 : Int) - a.den.log2 = length at lower upper ⊢
  have above (place : Int) : 2 ^ (length - 1 - place) < a.value * 2 ^ (-place) := by
    rw [← zpow_mul_zpow_neg]
    gcongr
  have below (place : Int) : a.value * 2 ^ (-place) < 2 ^ (length + 1 - place) := by
    rw [← zpow_mul_zpow_neg]
    gcongr
  have power (exponent bound : Int) (order : exponent ≤ bound) : (2 : ℚ) ^ exponent ≤ 2 ^ bound :=
    zpow_le_zpow_right₀ (by norm_num) order
  generalize isGuess : max (length - 53) (-1074) = guess
  have atLeast : -1074 ≤ guess := isGuess ▸ le_max_right ..
  by_cases small : a.value * 2 ^ (-guess) < 2 ^ 53
  · rw [if_pos ((fits guess).mpr small)]
    refine ⟨atLeast, small, ?_⟩
    by_cases last : guess = -1074
    · exact .inl last
    · right
      have exact52 : (2 : ℚ) ^ 52 ≤ 2 ^ (length - 1 - guess) := power 52 _ (by omega)
      exact exact52.trans (above guess).le
  · rw [if_neg (mt (fits guess).mp small)]
    have halved : a.value * 2 ^ (-(guess + 1)) = a.value * 2 ^ (-guess) / 2 := by
      rw [neg_add, zpow_add₀ (by norm_num)]
      ring
    have wide : 53 < length + 1 - guess := by
      by_contra narrow
      have := power (length + 1 - guess) 53 (by omega)
      exact small ((below guess).trans_le this)
    refine ⟨by omega, ?_, .inr ?_⟩
    · exact (below (guess + 1)).trans_le (power _ 53 (by omega))
    · rw [halved]
      linarith

end Magnitude

namespace Binary64

variable {x y : Binary64} {a : Magnitude}

theorem scale_ge (x : Binary64) : -1074 ≤ x.scale := by
  unfold scale
  omega

theorem significand_lt (x : Binary64) : x.significand < 2 ^ 53 := by
  have small : x.fraction < exponentUnit := Nat.mod_lt _ (by decide)
  unfold significand exponentUnit at *
  split <;> omega

/-- All significands have 53 digits but those of the last binary place. -/
theorem full_significand (wide : x.scale ≠ -1074) : 2 ^ 52 ≤ x.significand := by
  have large : ¬(x.biasedExponent == 0) = true := by
    intro zero
    apply wide
    rw [scale, beq_iff_eq.mp zero]
    rfl
  rw [significand, if_neg large, exponentUnit]
  omega

/-- The bits but the sign, by scale and significand. -/
theorem bits_mod_eq (x : Binary64) : x.bits.toNat % 2 ^ 63 =
    (x.scale + 1074).toNat * exponentUnit + x.significand := by
  have parts : x.bits.toNat % 2 ^ 63 = x.biasedExponent * exponentUnit + x.fraction := by
    unfold biasedExponent fraction exponentUnit
    omega
  rw [parts, significand, scale]
  by_cases small : x.biasedExponent = 0
  · rw [if_pos (by simpa using small), small]
    rfl
  · obtain ⟨earlier, isBiased⟩ := Nat.exists_eq_succ_of_ne_zero small
    have counted : (((max 1 x.biasedExponent : Nat) : Int) - 1075 + 1074).toNat = earlier := by omega
    rw [if_neg (by simpa using small), counted, isBiased, Nat.succ_mul, Nat.add_assoc]

theorem bits_mod_lt (finite : x.isFinite = true) : x.bits.toNat % 2 ^ 63 < infinity.bits.toNat := by
  have biased : x.biasedExponent < 2047 := by simpa [isFinite] using finite
  have limit : infinity.bits.toNat = 2047 * exponentUnit := rfl
  unfold biasedExponent exponentUnit at *
  omega

/-- The number with the sign of another one and its other bits is that number. -/
theorem signed_eq (same : y.bits.toNat = x.bits.toNat % 2 ^ 63) :
    (if x.isNegative then y.negative else y) = x := by
  have range := x.bits.toNat_lt
  obtain ⟨bits⟩ := x
  obtain ⟨others⟩ := y
  dsimp only at same range
  by_cases below : 0x8000000000000000 ≤ bits.toNat
  · rw [if_pos (by simpa [isNegative] using below), negative]
    congr 1
    apply UInt64.toNat.inj
    have high : others.toNat < 2 ^ 63 := by omega
    have joined := Nat.two_pow_add_eq_or_of_lt high 1
    rw [UInt64.toNat_or, Nat.or_comm]
    have sign : (0x8000000000000000 : UInt64).toNat = 2 ^ 63 * 1 := rfl
    rw [sign, ← joined]
    omega
  · rw [if_neg (by simpa [isNegative] using below)]
    congr 1
    apply UInt64.toNat.inj
    omega

/-- The distance to the lower end of the interval of a double, in quarters of its last binary
place: below a power of two only half as long. -/
def gap (x : Binary64) : Nat := if x.fraction == 0 && 1 < x.biasedExponent then 1 else 2

/-- The value lies between the ends of the interval that belongs to the absolute value of the
double; the ends count if the significand is even. -/
structure Rounds (x : Binary64) (value : ℚ) : Prop where
  low : (4 * x.significand - x.gap : ℚ) * 2 ^ (x.scale - 2) ≤ value
  high : value ≤ (4 * x.significand + 2) * 2 ^ (x.scale - 2)
  inside : x.significand % 2 = 1 →
    (4 * x.significand - x.gap : ℚ) * 2 ^ (x.scale - 2) < value ∧
      value < (4 * x.significand + 2) * 2 ^ (x.scale - 2)

theorem size_quarters (x : Binary64) :
    (x.significand * 2 ^ x.scale : ℚ) = 4 * x.significand * 2 ^ (x.scale - 2) := by
  rw [zpow_sub₀ (by norm_num)]
  ring

private theorem quarters_mul (x : Binary64) (count : ℚ) :
    count * 2 ^ (x.scale - 2) * 2 ^ (-x.scale) = count / 4 := by
  rw [mul_assoc, Magnitude.zpow_mul_zpow_neg]
  have exponent : x.scale - 2 - x.scale = -2 := by omega
  rw [exponent]
  norm_num
  ring

/-- The value at the last binary place of the double: it is off by half a unit at most. -/
theorem Rounds.near {value : ℚ} (rounds : x.Rounds value) :
    (x.significand : ℚ) - x.gap / 4 ≤ value * 2 ^ (-x.scale) ∧
      value * 2 ^ (-x.scale) ≤ x.significand + 1 / 2 ∧
      (x.significand % 2 = 1 → (x.significand : ℚ) - x.gap / 4 < value * 2 ^ (-x.scale) ∧
        value * 2 ^ (-x.scale) < x.significand + 1 / 2) := by
  have unit : (0 : ℚ) < 2 ^ (-x.scale) := by positivity
  have low := mul_le_mul_of_nonneg_right rounds.low unit.le
  have high := mul_le_mul_of_nonneg_right rounds.high unit.le
  rw [quarters_mul] at low high
  refine ⟨by linarith, by linarith, fun odd => ?_⟩
  have lower := mul_lt_mul_of_pos_right (rounds.inside odd).1 unit
  have upper := mul_lt_mul_of_pos_right (rounds.inside odd).2 unit
  rw [quarters_mul] at lower upper
  constructor <;> linarith

theorem gap_pos (x : Binary64) : 0 < x.gap := by
  unfold gap
  split <;> decide

theorem gap_le (x : Binary64) : x.gap ≤ 2 := by
  unfold gap
  split <;> decide

/-- Only below a power of two does an interval reach under the significands of its place. -/
private theorem gap_eq_one (wide : x.scale ≠ -1074) (least : x.significand = 2 ^ 52) : x.gap = 1 := by
  have large : 1 < x.biasedExponent := by
    unfold scale at wide
    omega
  have fraction : x.fraction = 0 := by
    rw [significand, if_neg (by simp; omega), exponentUnit] at least
    omega
  simp [gap, large, fraction]

/-- At the place of a double the values around it are rounded to its significand. -/
theorem Rounds.roundHalfEven (positive : 0 < a.den) (rounds : x.Rounds a.value) :
    (a.inUnits x.scale).roundHalfEven = x.significand := by
  obtain ⟨low, high, inside⟩ := rounds.near
  have gap : (x.gap : ℚ) ≤ 2 := by exact_mod_cast x.gap_le
  apply Magnitude.roundHalfEven_eq (Magnitude.inUnits_den_pos positive _)
  · rw [Magnitude.value_inUnits]
    linarith
  · rw [Magnitude.value_inUnits]
    exact high
  · rw [Magnitude.value_inUnits]
    intro odd
    exact ⟨by linarith [(inside odd).1], (inside odd).2⟩

/-- A value just below the least significand of a place has its last digit at the place before, and
is rounded up to one more digit than there are. -/
private theorem rounded_below_power (filled : 0 < a.num) (positive : 0 < a.den) {place : Int}
    (wide : -1074 < place) (low : 2 ^ 52 - 1 / 4 ≤ a.value * 2 ^ (-place))
    (short : a.value * 2 ^ (-place) < 2 ^ 52) :
    a.lastPlace = place - 1 ∧ (a.inUnits (place - 1)).roundHalfEven = 2 ^ 53 := by
  have doubled : a.value * 2 ^ (-(place - 1)) = 2 * (a.value * 2 ^ (-place)) := by
    rw [neg_sub, sub_eq_add_neg, zpow_add₀ (by norm_num)]
    ring
  constructor
  · apply (Magnitude.isPlace_lastPlace filled positive).unique
    refine ⟨by omega, ?_, .inr ?_⟩
    · rw [doubled]
      linarith
    · rw [doubled]
      norm_num at low ⊢
      linarith
  · apply Magnitude.roundHalfEven_eq (Magnitude.inUnits_den_pos positive _)
    · rw [Magnitude.value_inUnits, doubled]
      norm_num at low ⊢
      linarith
    · rw [Magnitude.value_inUnits, doubled]
      norm_num at short ⊢
      linarith
    · intro odd
      exact absurd odd (by decide)

/-- The bits that rounding puts together are those of the double around which the value lies. -/
private theorem rounded_bits (filled : 0 < a.num) (positive : 0 < a.den) (rounds : x.Rounds a.value) :
    (a.lastPlace + 1074).toNat * exponentUnit + (a.inUnits a.lastPlace).roundHalfEven =
      x.bits.toNat % 2 ^ 63 := by
  obtain ⟨low, high, _⟩ := rounds.near
  have bounded : (x.significand : ℚ) + 1 ≤ 2 ^ 53 := by exact_mod_cast x.significand_lt
  have atLeast := x.scale_ge
  rw [bits_mod_eq]
  by_cases full : x.scale = -1074 ∨ 2 ^ 52 ≤ a.value * 2 ^ (-x.scale)
  · have place : a.lastPlace = x.scale :=
      (Magnitude.isPlace_lastPlace filled positive).unique ⟨atLeast, by linarith, full⟩
    rw [place, rounds.roundHalfEven positive]
  · -- Below all significands of this place the double can only be the power of two above.
    obtain ⟨wide, short⟩ := not_or.mp full
    rw [not_le] at short
    have gap : (x.gap : ℚ) ≤ 2 := by exact_mod_cast x.gap_le
    have least : x.significand = 2 ^ 52 := by
      have most : (x.significand : ℚ) < 2 ^ 52 + 1 := by linarith
      have most : x.significand < 2 ^ 52 + 1 := by exact_mod_cast most
      have filled := full_significand wide
      omega
    have first : (x.significand : ℚ) = 2 ^ 52 := by exact_mod_cast least
    rw [gap_eq_one wide least, first, Nat.cast_one] at low
    obtain ⟨place, rounded⟩ :=
      rounded_below_power filled positive (lt_of_le_of_ne atLeast (Ne.symm wide)) low short
    rw [place, rounded, least, exponentUnit]
    omega

private theorem ofMagnitude_of_bits (filled : 0 < a.num) {bits : Nat}
    (isBits : (a.lastPlace + 1074).toNat * exponentUnit + (a.inUnits a.lastPlace).roundHalfEven = bits)
    (finite : bits < infinity.bits.toNat) : ofMagnitude a = ⟨bits.toUInt64⟩ := by
  subst isBits
  rw [ofMagnitude, if_neg (by simpa using filled.ne')]
  exact if_neg (Nat.not_le.mpr finite)

/-- A value is rounded to the double around which it lies, the sign left aside. -/
theorem ofMagnitude_of_rounds (finite : x.isFinite = true) (filled : 0 < a.num)
    (positive : 0 < a.den) (rounds : x.Rounds a.value) :
    (ofMagnitude a).bits.toNat = x.bits.toNat % 2 ^ 63 := by
  have bits := rounded_bits filled positive rounds
  have range : x.bits.toNat % 2 ^ 63 < UInt64.size := by
    rw [UInt64.size]
    omega
  rw [ofMagnitude_of_bits filled bits (bits_mod_lt finite), Nat.toUInt64_eq,
    UInt64.toNat_ofNat_of_lt' range]

end Binary64

end WritePlan
