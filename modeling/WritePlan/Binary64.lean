/-! Double-precision numbers, kept as the 64 bits that store them. All arithmetic on them is
exact arithmetic on natural numbers followed by one rounding. -/
namespace WritePlan

/-- A double-precision number: a sign bit, eleven exponent bits and 52 fraction bits. -/
structure Binary64 where
  bits : UInt64
deriving Hashable, Inhabited

namespace Binary64

def isNegative (x : Binary64) : Bool := 0x8000000000000000 ≤ x.bits.toNat

/-- Two to the 52: the first bit of the exponent. -/
def exponentUnit : Nat := 0x10000000000000

def biasedExponent (x : Binary64) : Nat := x.bits.toNat / exponentUnit % 2048

def fraction (x : Binary64) : Nat := x.bits.toNat % exponentUnit

def isFinite (x : Binary64) : Bool := x.biasedExponent < 2047

def isNaN (x : Binary64) : Bool := x.biasedExponent == 2047 && x.fraction != 0

def isZero (x : Binary64) : Bool := x.biasedExponent == 0 && x.fraction == 0

/-- The absolute value of a finite number is its significand times two to the `scale`. -/
def significand (x : Binary64) : Nat :=
  if x.biasedExponent == 0 then x.fraction else exponentUnit + x.fraction

def scale (x : Binary64) : Int := max 1 x.biasedExponent - 1075

def infinity : Binary64 := ⟨0x7FF0000000000000⟩

def zero : Binary64 := ⟨0⟩

def negative (x : Binary64) : Binary64 := ⟨x.bits ||| 0x8000000000000000⟩

/-- Numbers are compared as keys: bit by bit, so that the two zeros differ, but with all
NaN patterns alike. -/
instance : BEq Binary64 where
  beq x y := x.bits == y.bits || (x.isNaN && y.isNaN)

theorem beq_iff (x y : Binary64) :
    (x == y) = true ↔ x = y ∨ (x.isNaN = true ∧ y.isNaN = true) := by
  cases x
  cases y
  simp [BEq.beq]

end Binary64

end WritePlan
