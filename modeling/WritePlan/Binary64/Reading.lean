import WritePlan.Binary64.Rounding
import WritePlan.Numeral

/-! The double of a numeral, by quick steps each of which rounds. As many leading digits as
fit into 64 bits make the significand; it is rounded to a double, then multiplied or
divided by a rounded power of ten. The result can differ from the nearest double in its
last bits. -/
namespace WritePlan.Binary64

/-- Appends digits while the significand stays below two to the 64; also gives the number
of digits left over. -/
def takeDigits (significand : Nat) : List Char → Nat × Nat
  | [] => (significand, 0)
  | c :: rest =>
    let next := 10 * significand + (c.toNat - 0x30)
    if next < UInt64.size then takeDigits next rest else (significand, rest.length + 1)

/-- The nonnegative number times a power of ten; none if the result is not finite. Powers
beyond the largest of double precision are taken off by division in steps. -/
def timesPowerOfTen? (x : Binary64) (exponent : Int) : Option Binary64 :=
  if exponent.natAbs ≤ 308 then
    if 0 ≤ exponent then
      let product := x.mulMagnitude (powerOfTen exponent.natAbs)
      if product.isFinite then some product else none
    else some (x.divMagnitude (powerOfTen exponent.natAbs))
  else if x.isZero then some x
  else if 0 ≤ exponent then none
  else timesPowerOfTen? (x.divMagnitude (powerOfTen 308)) (exponent + 308)
termination_by exponent.natAbs

def ofNumeral? (n : Numeral) : Option Binary64 :=
  let (whole, droppedWhole) := takeDigits 0 n.whole
  let (significand, droppedFraction) := takeDigits whole n.fraction
  let kept : Int := n.fraction.length - droppedFraction
  let exponent := n.exponent.getD 0 + droppedWhole - kept
  (timesPowerOfTen? (ofNat significand) exponent).map fun size =>
    if n.negative then size.negative else size

end WritePlan.Binary64
