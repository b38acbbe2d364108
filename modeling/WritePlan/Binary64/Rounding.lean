import WritePlan.Binary64

namespace WritePlan

structure Magnitude where
  num : Nat
  den : Nat

namespace Magnitude

/-- The value `coefficient · base ^ exponent`. -/
def scaled (coefficient base : Nat) (exponent : Int) : Magnitude :=
  ⟨coefficient * base.pow exponent.toNat, base.pow (-exponent).toNat⟩

def mul (a b : Magnitude) : Magnitude := ⟨a.num * b.num, a.den * b.den⟩

def div (a b : Magnitude) : Magnitude := ⟨a.num * b.den, a.den * b.num⟩

def inUnits (a : Magnitude) (place : Int) : Magnitude := a.mul (scaled 1 2 (-place))

/-- The natural number nearest to the value; a half goes to the even neighbour. -/
def roundHalfEven (a : Magnitude) : Nat :=
  let low := a.num / a.den
  let twice := 2 * (a.num % a.den)
  if twice < a.den then low
  else if a.den < twice then low + 1
  else low + low % 2

theorem roundHalfEven_near (a : Magnitude) (positive : 0 < a.den) :
    2 * a.num ≤ 2 * (a.den * a.roundHalfEven) + a.den ∧
      2 * (a.den * a.roundHalfEven) ≤ 2 * a.num + a.den := by
  have whole := Nat.div_add_mod a.num a.den
  have small := Nat.mod_lt a.num positive
  have parity := Nat.mod_two_eq_zero_or_one (a.num / a.den)
  unfold roundHalfEven
  generalize a.num / a.den = low at whole parity ⊢
  dsimp only
  split
  · omega
  · split
    · rw [Nat.mul_add, Nat.mul_one]
      omega
    · rcases parity with even | odd
      · rw [even, Nat.add_zero]
        omega
      · rw [odd, Nat.mul_add, Nat.mul_one]
        omega

/-- The binary place of the last of 53 significant bits, but no place below the smallest
double. -/
def lastPlace (a : Magnitude) : Int :=
  let guess := max ((a.num.log2 : Int) - a.den.log2 - 53) (-1074)
  let units := a.inUnits guess
  if units.num / units.den < 2 * Binary64.exponentUnit then guess else guess + 1

end Magnitude

namespace Binary64

def magnitude (x : Binary64) : Magnitude := .scaled x.significand 2 x.scale

/-- The nearest double. The biased exponent and the significand are added, so that a
significand rounded up to the next power of two carries into the exponent, and values
beyond the largest double become infinite. -/
def ofMagnitude (a : Magnitude) : Binary64 :=
  if a.num == 0 then zero
  else
    let place := a.lastPlace
    let bits := (place + 1074).toNat * exponentUnit + (a.inUnits place).roundHalfEven
    if infinity.bits.toNat ≤ bits then infinity else ⟨bits.toUInt64⟩

def ofNat (n : Nat) : Binary64 := ofMagnitude ⟨n, 1⟩

def powerOfTen (exponent : Nat) : Binary64 := ofNat (Nat.pow 10 exponent)

/-- The rounded product of two finite numbers, signs left aside. -/
def mulMagnitude (x y : Binary64) : Binary64 := ofMagnitude (x.magnitude.mul y.magnitude)

def divMagnitude (x y : Binary64) : Binary64 := ofMagnitude (x.magnitude.div y.magnitude)

end Binary64

end WritePlan
