import WritePlan.Text.Digits

namespace WritePlan

open Text

/-- A numeral by its parts. The fraction is empty when there is no decimal point. -/
structure Numeral where
  negative : Bool
  whole : List Char
  fraction : List Char
  exponent : Option Int
deriving DecidableEq, Inhabited

namespace Numeral

def ofInt (n : Int) : Numeral := ⟨n < 0, Nat.toDigits 10 n.natAbs, [], none⟩

def exponentText : Option Int → List Char
  | none => []
  | some power => 'e' :: (if power < 0 then '-' else '+') :: Nat.toDigits 10 power.natAbs

/-- The written form; a power of ten always shows its sign. -/
def text (n : Numeral) : List Char :=
  let unsigned :=
    n.whole ++ (if n.fraction.isEmpty then [] else '.' :: n.fraction) ++ exponentText n.exponent
  if n.negative then '-' :: unsigned else unsigned

/-- The digits after a decimal point, if one stands in front; at least one is due. -/
def takeFraction? (text : List Char) : Option (List Char × List Char) :=
  match text with
  | '.' :: rest =>
    let digits := rest.takeWhile Char.isDigit
    if digits.isEmpty then none else some (digits, rest.drop digits.length)
  | _ => some ([], text)

/-- The power of ten at the end of a numeral, if there is one; at least one digit is due. -/
def takeExponent? (text : List Char) : Option (Option Int) :=
  match text with
  | [] => some none
  | mark :: rest =>
    let (negative, digits) :=
      match rest with
      | '-' :: digits => (true, digits)
      | '+' :: digits => (false, digits)
      | digits => (false, digits)
    if (mark == 'e' || mark == 'E') && !digits.isEmpty && digits.all Char.isDigit then
      let size : Int := readDigits digits
      some (some (if negative then -size else size))
    else none

/-- Reads a whole text as a numeral. A whole part of several digits does not begin with
zero. -/
def ofText? (text : List Char) : Option Numeral := do
  let (negative, unsigned) :=
    match text with
    | '-' :: rest => (true, rest)
    | _ => (false, text)
  let whole := unsigned.takeWhile Char.isDigit
  if whole.isEmpty || (whole.head? == some '0' && 1 < whole.length) then none
  else
    let (fraction, rest) ← takeFraction? (unsigned.drop whole.length)
    let exponent ← takeExponent? rest
    some ⟨negative, whole, fraction, exponent⟩

/-- The integer of a numeral without fraction and power of ten. A zero with a minus sign
is no integer. -/
def toInt? (n : Numeral) : Option Int :=
  if n.fraction.isEmpty && n.exponent.isNone then
    let size := readDigits n.whole
    if n.negative then if size = 0 then none else some (-(size : Int))
    else some size
  else none

end Numeral

end WritePlan
