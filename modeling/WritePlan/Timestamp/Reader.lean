import WritePlan.Text.CodeRange
import WritePlan.Timestamp

/-! Reading a timestamp: date, time and offset from universal time. White space may stand
before every number and before every hyphen and colon of date and time. -/
namespace WritePlan.Timestamp

open Calendar Text

/-- The digits in front, at most `limit` of them, and what follows; refuses none. -/
def takeNumber? (limit : Nat) (text : List Char) : Option (Nat × List Char) :=
  let digits := (text.take limit).takeWhile Char.isDigit
  if digits.isEmpty then none else some (readDigits digits, text.drop digits.length)

def expect? (c : Char) (text : List Char) : Option (List Char) :=
  match trimStart text with
  | first :: rest => if first = c then some rest else none
  | [] => none

def takeField? (text : List Char) : Option (Nat × List Char) := takeNumber? 2 (trimStart text)

/-- A year: up to four digits, or a sign and any number of digits. -/
def takeYear? (text : List Char) : Option (Int × List Char) :=
  match trimStart text with
  | '-' :: rest => (takeNumber? rest.length rest).map fun (year, later) => (-(year : Int), later)
  | '+' :: rest => (takeNumber? rest.length rest).map fun (year, later) => ((year : Int), later)
  | plain => (takeNumber? 4 plain).map fun (year, later) => ((year : Int), later)

def takeDate? (text : List Char) : Option (Date × List Char) := do
  let (year, text) ← takeYear? text
  let (month, text) ← takeField? (← expect? '-' text)
  let (day, text) ← takeField? (← expect? '-' text)
  some (⟨year, month, day⟩, text)

/-- The fraction in nanoseconds. Digits after the ninth are passed over. -/
def takeFraction? (text : List Char) : Option (Nat × List Char) :=
  match text with
  | '.' :: rest => do
    let (_, later) ← takeNumber? 9 rest
    let digits := rest.length - later.length
    let value := readDigits (rest.take digits)
    some (value * Nat.pow 10 (9 - digits), later.dropWhile Char.isDigit)
  | _ => some (0, text)

/-- The time of a day in seconds, with nanoseconds. Second 60 is the leap second after
second 59. -/
def takeTime? (text : List Char) : Option ((Nat × Nat) × List Char) := do
  let (hour, text) ← takeField? text
  let (minute, text) ← takeField? (← expect? ':' text)
  let (second, text) ← takeField? (← expect? ':' text)
  let (nanos, text) ← takeFraction? text
  if 23 < hour ∨ 59 < minute ∨ 60 < second then none
  else if second = 60 then
    some ((3600 * hour + 60 * minute + 59, 1000000000 + nanos), text)
  else some ((3600 * hour + 60 * minute + second, nanos), text)

def takePair? (text : List Char) : Option (Nat × List Char) :=
  match text with
  | tens :: ones :: rest =>
    if tens.isDigit && ones.isDigit then some (readDigits [tens, ones], rest) else none
  | _ => none

def isUniversal (letters : List Char) : Bool :=
  letters.map Char.toLower == ['u', 't', 'c']

/-- The offset from universal time in seconds. Hours and minutes have two digits each, and
any colons and white space may stand between. -/
def takeOffset? (text : List Char) : Option (Int × List Char) :=
  if isUniversal (text.take 3) then some (0, text.drop 3)
  else
    match text with
    | [] => none
    | mark :: rest =>
      if mark = 'Z' ∨ mark = 'z' then some (0, rest)
      else if mark = '+' ∨ mark = '-' ∨ mark = '\u2212' then do
        let (hours, rest) ← takePair? rest
        let (minutes, rest) ← takePair? (rest.dropWhile fun c => c == ':' || isBlank c)
        let size : Int := 3600 * hours + 60 * minutes
        if 59 < minutes ∨ 86400 ≤ size then none
        else some (if mark = '+' then size else -size, rest)
      else none

def reaches (year : Int) : Bool := -262143 ≤ year && year ≤ 262142

/-- Reads the whole text. Date and time are local to the offset, so both the local year and
the resulting instant must be within reach. -/
def ofText? (text : List Char) : Option Timestamp := do
  let (date, text) ← takeDate? text
  let text ← match text with
    | mark :: rest => if mark = 'T' ∨ mark = 't' ∨ mark = ' ' then some rest else none
    | [] => none
  let ((ofDay, nanos), text) ← takeTime? text
  let (offset, text) ← takeOffset? (trimStart text)
  if date.isValid && reaches date.year && allBlank text then
    ofUnix? ((date.dayNumber - epochDay) * 86400 + ofDay - offset) nanos
  else none

end WritePlan.Timestamp
