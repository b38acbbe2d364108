import WritePlan.Binary64.Rounding

/-! The shortest decimal that reads back as a given double, and of those the nearest. The
numbers that round to a double fill an interval around it, whose ends belong to it when
its significand is even. For one digit, two digits and so on, the two neighbours of the
double on that decimal grid are tried; the first grid with a neighbour inside wins. -/
namespace WritePlan

/-- The number `coefficient · 10 ^ place`. -/
structure Decimal where
  coefficient : Nat
  place : Int

/-- Which of two equally near decimals is chosen. -/
inductive Tie
  | upward | toEven
deriving DecidableEq

namespace Decimal

def digits (d : Decimal) : List Char := Nat.toDigits 10 d.coefficient

def leading (d : Decimal) : Int := d.place + d.digits.length - 1

end Decimal

def Magnitude.leading (a : Magnitude) : Int :=
  if a.den ≤ a.num then (Nat.toDigits 10 (a.num / a.den)).length - 1
  else -(Nat.toDigits 10 ((a.den - 1) / a.num)).length

namespace Binary64

/-- The interval of a positive finite number on a decimal grid: `low`, `value` and `high`
are compared with `unit` times a coefficient. -/
structure Span where
  low : Nat
  value : Nat
  high : Nat
  unit : Nat
  closed : Bool

/-- The numbers that round to `x`, on the grid of multiples of ten to the `place`, in
quarters of the last binary place. Below a power of two the gap is only half as wide. -/
def span (x : Binary64) (place : Int) : Span :=
  let narrow := x.fraction == 0 && 1 < x.biasedExponent
  let quarters := x.scale - 2
  let factor := Nat.pow 2 quarters.toNat * Nat.pow 10 (-place).toNat
  { low := (4 * x.significand - if narrow then 1 else 2) * factor
    value := 4 * x.significand * factor
    high := (4 * x.significand + 2) * factor
    unit := Nat.pow 2 (-quarters).toNat * Nat.pow 10 place.toNat
    closed := x.significand % 2 == 0 }

def Span.holds (s : Span) (coefficient : Nat) : Bool :=
  let point := coefficient * s.unit
  if s.closed then s.low ≤ point && point ≤ s.high else s.low < point && point < s.high

/-- The neighbour of the value on the grid that lies in the interval, the nearer if both
do. -/
def Span.pick? (s : Span) (tie : Tie) : Option Nat :=
  let below := s.value / s.unit
  let above := below + 1
  match s.holds below, s.holds above with
  | false, false => none
  | true, false => some below
  | false, true => some above
  | true, true =>
    let down := s.value - below * s.unit
    let up := above * s.unit - s.value
    if down < up then some below
    else if up < down then some above
    else match tie with
      | .upward => some above
      | .toEven => some (below + below % 2)

/-- The shortest decimal for the absolute value of a finite number that is not zero. With
seventeen digits some neighbour always lies in the interval. -/
def shortest (tie : Tie) (x : Binary64) : Decimal :=
  let first := x.magnitude.leading
  let found := (List.range 17).findSome? fun (more : Nat) =>
    let place := first - more
    ((x.span place).pick? tie).map fun coefficient => Decimal.mk coefficient place
  found.getD ⟨0, 0⟩

end Binary64

end WritePlan
