import WritePlan.Binary64.Shortest
import WritePlan.Numeral

namespace WritePlan

structure NumberLayout where
  /-- Which of two equally near shortest decimals is written. -/
  tie : Tie
  /-- Whether a number whose first digit stands at this power of ten is written without
  a power of ten. -/
  positional : Int → Bool
  /-- The fraction of a whole number that is written without a power of ten. -/
  wholeFraction : List Char

namespace NumberLayout

/-- The digits around their decimal point, with zeros where digits are missing. -/
def plain (layout : NumberLayout) (negative : Bool) (digits : List Char) (leading : Int) :
    Numeral :=
  if leading < 0 then
    ⟨negative, ['0'], List.replicate (-leading - 1).toNat '0' ++ digits, none⟩
  else
    let whole := leading.toNat + 1
    if digits.length ≤ whole then
      ⟨negative, digits ++ List.replicate (whole - digits.length) '0', layout.wholeFraction, none⟩
    else ⟨negative, digits.take whole, digits.drop whole, none⟩

def scientific (negative : Bool) (digits : List Char) (leading : Int) : Numeral :=
  ⟨negative, digits.take 1, digits.drop 1, some leading⟩

/-- The numeral of a finite number; zero keeps its sign. -/
def numeral (layout : NumberLayout) (x : Binary64) : Numeral :=
  if x.isZero then layout.plain x.isNegative ['0'] 0
  else
    let decimal := x.shortest layout.tie
    let significant := (decimal.digits.reverse.dropWhile (· == '0')).reverse
    if layout.positional decimal.leading then
      layout.plain x.isNegative significant decimal.leading
    else scientific x.isNegative significant decimal.leading

end NumberLayout

end WritePlan
