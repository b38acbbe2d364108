namespace WritePlan.Text

def hexDigit (digit : Fin 16) : Char :=
  Char.ofNat (if digit.val < 10 then 0x30 + digit.val else 0x57 + digit.val)

def lastHexDigit (n : Nat) : Char := hexDigit (Fin.ofNat 16 n)

def hexValue? (c : Char) : Option (Fin 16) :=
  let code := c.toNat
  if 0x30 ≤ code && code ≤ 0x39 then some (Fin.ofNat 16 (code - 0x30))
  else if 0x41 ≤ code && code ≤ 0x46 then some (Fin.ofNat 16 (code - 0x37))
  else if 0x61 ≤ code && code ≤ 0x66 then some (Fin.ofNat 16 (code - 0x57))
  else none

theorem hexValue?_hexDigit (digit : Fin 16) : hexValue? (hexDigit digit) = some digit := by
  revert digit
  decide

/-- The decimal digits of a number, with zeros in front up to the width. -/
def padded (width n : Nat) : List Char :=
  let digits := Nat.toDigits 10 n
  List.replicate (width - digits.length) '0' ++ digits

def readDigits (digits : List Char) : Nat :=
  digits.foldl (fun value c => 10 * value + (c.toNat - 0x30)) 0

end WritePlan.Text
