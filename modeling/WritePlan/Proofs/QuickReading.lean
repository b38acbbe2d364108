import WritePlan.Binary64.Reading
import WritePlan.Proofs.Numerals
import WritePlan.Proofs.Rounding

namespace WritePlan

open Text

namespace Binary64

variable {x : Binary64}

theorem value_magnitude (x : Binary64) : x.magnitude.value = x.significand * 2 ^ x.scale :=
  Magnitude.value_scaled _ _ _

theorem magnitude_den_pos (x : Binary64) : 0 < x.magnitude.den := Nat.pow_pos (by decide)

/-- The double of an exponent and a fraction, as its parts tell. -/
private theorem parts_of_bits {exponent fraction : Nat} (ordinary : 0 < exponent ∧ exponent < 2047)
    (fits : fraction < exponentUnit) :
    ∃ x : Binary64, x.isFinite = true ∧ x.bits.toNat < 2 ^ 63 ∧
      x.significand = exponentUnit + fraction ∧ x.scale = exponent - 1075 := by
  obtain ⟨bits, isBits⟩ : ∃ bits : UInt64, bits.toNat = exponent * exponentUnit + fraction := by
    refine ⟨UInt64.ofNat (exponent * exponentUnit + fraction), UInt64.toNat_ofNat_of_lt' ?_⟩
    rw [UInt64.size]
    unfold exponentUnit at *
    omega
  have biased : biasedExponent ⟨bits⟩ = exponent := by
    rw [biasedExponent, isBits]
    unfold exponentUnit at *
    omega
  have rest : Binary64.fraction ⟨bits⟩ = fraction := by
    rw [Binary64.fraction, isBits]
    unfold exponentUnit at *
    omega
  refine ⟨⟨bits⟩, ?_, ?_, ?_, ?_⟩
  · simpa [isFinite, biased] using ordinary.2
  · rw [isBits]
    unfold exponentUnit at *
    omega
  · rw [significand, biased, rest, if_neg (by simpa using ordinary.1.ne')]
  · rw [scale, biased]
    omega

theorem rounds_of_eq {value : ℚ} (exact : value = x.significand * 2 ^ x.scale) : x.Rounds value := by
  have quarter : (0 : ℚ) < 2 ^ (x.scale - 2) := by positivity
  have gap : (0 : ℚ) < x.gap := by exact_mod_cast x.gap_pos
  rw [exact, size_quarters]
  refine ⟨?_, ?_, fun _ => ⟨?_, ?_⟩⟩
  · gcongr
    linarith
  · gcongr
    linarith
  · gcongr
    linarith
  · gcongr
    linarith

/-- A number of at most 53 binary digits has its value with the leading digit in the first place. -/
private theorem exists_significand {digits : Nat} (positive : 0 < digits) (few : digits < 2 ^ 53) :
    ∃ shift fraction, shift ≤ 52 ∧ digits * 2 ^ shift = exponentUnit + fraction ∧
      fraction < exponentUnit := by
  have short : digits.log2 ≤ 52 := by
    by_contra long
    have := Nat.pow_le_pow_right (n := 2) (by decide) (show 53 ≤ digits.log2 by omega)
    have := Nat.log2_self_le positive.ne'
    omega
  have lower : 2 ^ 52 ≤ digits * 2 ^ (52 - digits.log2) := by
    calc 2 ^ 52 = 2 ^ digits.log2 * 2 ^ (52 - digits.log2) := by
          rw [← pow_add, Nat.add_sub_cancel' short]
      _ ≤ digits * 2 ^ (52 - digits.log2) := by
          gcongr
          exact Nat.log2_self_le positive.ne'
  have upper : digits * 2 ^ (52 - digits.log2) < 2 ^ 53 := by
    calc digits * 2 ^ (52 - digits.log2) < 2 ^ (digits.log2 + 1) * 2 ^ (52 - digits.log2) := by
          gcongr
          exact Nat.lt_log2_self
      _ = 2 ^ 53 := by
          rw [← pow_add]
          congr 1
          omega
  refine ⟨52 - digits.log2, digits * 2 ^ (52 - digits.log2) - exponentUnit, Nat.sub_le .., ?_, ?_⟩
  · unfold exponentUnit
    omega
  · unfold exponentUnit
    omega

/-- A number of at most 53 binary digits, with zeros behind them, is exact as a double. -/
theorem value_ofNat {digits zeros : Nat} (few : digits < 2 ^ 53) (ordinary : zeros ≤ 900) :
    (ofNat (digits * 2 ^ zeros)).magnitude.value = digits * 2 ^ zeros := by
  by_cases none : digits = 0
  · subst none
    rw [Nat.zero_mul, value_magnitude]
    have nothing : (ofNat 0).significand = 0 := rfl
    simp [nothing]
  · have positive := Nat.pos_of_ne_zero none
    obtain ⟨shift, fraction, short, shifted, fits⟩ := exists_significand positive few
    have exponent : 0 < zeros + 1075 - shift ∧ zeros + 1075 - shift < 2047 := by omega
    obtain ⟨x, finite, plain, significand, scale⟩ := parts_of_bits exponent fits
    have exact : (digits * 2 ^ zeros : ℚ) = x.significand * 2 ^ x.scale := by
      have power : (2 : ℚ) ^ x.scale = 2 ^ zeros / 2 ^ shift := by
        have exponent : x.scale = (zeros : Int) - shift := by omega
        rw [exponent, zpow_sub₀ (by norm_num), zpow_natCast, zpow_natCast]
      rw [significand, ← shifted, power]
      push_cast
      field_simp
    have rounded := ofMagnitude_of_rounds (a := ⟨digits * 2 ^ zeros, 1⟩) finite
      (Nat.mul_pos positive (Nat.pow_pos (by decide))) Nat.one_pos
      (rounds_of_eq (by simpa [Magnitude.value] using exact))
    rw [Nat.mod_eq_of_lt plain] at rounded
    have same : ofNat (digits * 2 ^ zeros) = x := congrArg Binary64.mk (UInt64.toNat.inj rounded)
    rw [same, value_magnitude, exact]

private theorem le_foldl_digits (digits : List Char) (start : Nat) :
    start ≤ digits.foldl (fun value c => 10 * value + (c.toNat - 0x30)) start := by
  induction digits generalizing start with
  | nil => exact le_rfl
  | cons c rest ih => exact le_trans (by omega) (ih (10 * start + (c.toNat - 0x30)))

/-- All digits are taken if together they stay below two to the 64. -/
private theorem takeDigits_eq {digits : List Char} {start : Nat}
    (fits : digits.foldl (fun value c => 10 * value + (c.toNat - 0x30)) start < UInt64.size) :
    takeDigits start digits =
      (digits.foldl (fun value c => 10 * value + (c.toNat - 0x30)) start, 0) := by
  induction digits generalizing start with
  | nil => rfl
  | cons c rest ih =>
    rw [List.foldl_cons] at fits ⊢
    rw [takeDigits, if_pos ((le_foldl_digits rest _).trans_lt fits), ih fits]

/-- A numeral whose digits fit is read from its digits and the power of ten of the last one. -/
theorem ofNumeral?_of_fits {n : Numeral} (fits : n.coefficient < UInt64.size) :
    ofNumeral? n =
      (timesPowerOfTen? (ofNat n.coefficient) n.lastPower).map fun size =>
        if n.negative then size.negative else size := by
  rw [Numeral.coefficient, readDigits, List.foldl_append] at fits ⊢
  have whole : takeDigits 0 n.whole = _ :=
    takeDigits_eq ((le_foldl_digits n.fraction _).trans_lt fits)
  have all := takeDigits_eq fits
  have power : n.exponent.getD 0 + ((0 : Nat) : Int) - (n.fraction.length - (0 : Nat)) =
      n.lastPower := by
    simp [Numeral.lastPower]
  rw [ofNumeral?, whole]
  dsimp only
  rw [all, power]

theorem value_powerOfTen {exponent : Nat} (small : exponent ≤ 22) :
    (powerOfTen exponent).magnitude.value = 10 ^ exponent := by
  have few : 5 ^ exponent < 2 ^ 53 :=
    (Nat.pow_le_pow_right (by decide) small).trans_lt (by norm_num)
  have split : Nat.pow 10 exponent = 5 ^ exponent * 2 ^ exponent := by
    rw [← mul_pow]
    rfl
  rw [powerOfTen, split, value_ofNat few (by omega)]
  push_cast
  rw [← mul_pow]
  norm_num

private theorem timesPowerOfTen?_of_nonneg (x : Binary64) {power : Int} (small : power.natAbs ≤ 308)
    (up : 0 ≤ power) (finite : (x.mulMagnitude (powerOfTen power.natAbs)).isFinite = true) :
    x.timesPowerOfTen? power = some (x.mulMagnitude (powerOfTen power.natAbs)) := by
  rw [timesPowerOfTen?, if_pos small, if_pos up]
  exact if_pos finite

theorem timesPowerOfTen?_of_neg (x : Binary64) {power : Int} (small : power.natAbs ≤ 308)
    (down : power < 0) : x.timesPowerOfTen? power = some (x.divMagnitude (powerOfTen power.natAbs)) := by
  rw [timesPowerOfTen?, if_pos small, if_neg (not_le.mpr down)]

private theorem num_pos_of_value {a : Magnitude} (positive : 0 < a.value) : 0 < a.num := by
  apply Nat.pos_of_ne_zero
  intro none
  rw [Magnitude.value, none] at positive
  simp at positive

private theorem isFinite_of_bits {y : Binary64} (finite : x.isFinite = true)
    (same : y.bits.toNat = x.bits.toNat % 2 ^ 63) : y.isFinite = true := by
  have below := bits_mod_lt finite
  have limit : infinity.bits.toNat = 2047 * exponentUnit := rfl
  rw [isFinite, decide_eq_true_eq, biasedExponent, same]
  unfold exponentUnit at *
  omega

/-- A numeral with few digits and a small power of ten is read as the double around which its value
lies, the sign left aside. -/
theorem ofNumeral?_of_short {n : Numeral} (finite : x.isFinite = true)
    (positive : 0 < n.coefficient) (few : n.coefficient < 2 ^ 53) (small : n.lastPower.natAbs ≤ 22)
    (rounds : x.Rounds (n.coefficient * 10 ^ n.lastPower)) :
    ∃ size : Binary64, size.bits.toNat = x.bits.toNat % 2 ^ 63 ∧
      ofNumeral? n = some (if n.negative then size.negative else size) := by
  rw [ofNumeral?_of_fits (few.trans (by rw [UInt64.size]; norm_num))]
  generalize n.coefficient = digits at positive few rounds ⊢
  generalize n.lastPower = power at small rounds ⊢
  have exact : (ofNat digits).magnitude.value = digits := by
    simpa using value_ofNat few (Nat.zero_le 900)
  have ten := value_powerOfTen small
  have filled : (0 : ℚ) < digits := by exact_mod_cast positive
  by_cases up : 0 ≤ power
  · have value : ((ofNat digits).magnitude.mul (powerOfTen power.natAbs).magnitude).value =
        digits * 10 ^ power := by
      rw [Magnitude.value_mul, exact, ten, ← zpow_natCast, Int.natAbs_of_nonneg up]
    have rounded := ofMagnitude_of_rounds finite
      (num_pos_of_value (value ▸ by positivity))
      (Nat.mul_pos (magnitude_den_pos _) (magnitude_den_pos _)) (value ▸ rounds)
    have product := (ofNat digits).timesPowerOfTen?_of_nonneg (by omega) up
      (isFinite_of_bits finite rounded)
    exact ⟨_, rounded, by rw [product, Option.map_some]; rfl⟩
  · have down := not_le.mp up
    have tenFilled : 0 < (powerOfTen power.natAbs).magnitude.num :=
      num_pos_of_value (ten ▸ by positivity)
    have value : ((ofNat digits).magnitude.div (powerOfTen power.natAbs).magnitude).value =
        digits * 10 ^ power := by
      have exponent : power = -(power.natAbs : Int) := by omega
      rw [Magnitude.value_div, exact, ten]
      nth_rewrite 2 [exponent]
      rw [zpow_neg, zpow_natCast, div_eq_mul_inv]
    have rounded := ofMagnitude_of_rounds finite
      (num_pos_of_value (value ▸ by positivity)) (Nat.mul_pos (magnitude_den_pos _) tenFilled)
      (value ▸ rounds)
    have quotient := (ofNat digits).timesPowerOfTen?_of_neg (by omega) down
    exact ⟨_, rounded, by rw [quotient, Option.map_some]; rfl⟩

theorem timesPowerOfTen?_zero {power : Int} (small : power.natAbs ≤ 308) :
    timesPowerOfTen? (ofNat 0) power = some zero := by
  have nothing : (ofNat 0).magnitude.num = 0 := rfl
  have product (y : Binary64) : (ofNat 0).mulMagnitude y = zero := by
    rw [mulMagnitude, ofMagnitude, Magnitude.mul, nothing, Nat.zero_mul]
    rfl
  have quotient (y : Binary64) : (ofNat 0).divMagnitude y = zero := by
    rw [divMagnitude, ofMagnitude, Magnitude.div, nothing, Nat.zero_mul]
    rfl
  by_cases up : 0 ≤ power
  · rw [timesPowerOfTen?_of_nonneg _ small up (by rw [product]; rfl), product]
  · rw [timesPowerOfTen?_of_neg _ small (not_le.mp up), quotient]

end Binary64

end WritePlan
