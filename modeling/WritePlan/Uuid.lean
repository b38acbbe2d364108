import WritePlan.Text.Digits

namespace WritePlan

open Text

structure Uuid where
  digits : List (Fin 16)
  count : digits.length = 32
deriving DecidableEq

namespace Uuid

def plain (id : Uuid) : List Char := id.digits.map hexDigit

/-- Digits in five groups of 8, 4, 4, 4 and 12 with hyphens between. -/
def hyphenate (digits : List Char) : List Char :=
  digits.take 8 ++ '-' :: (digits.drop 8).take 4 ++ '-' :: (digits.drop 12).take 4 ++
    '-' :: (digits.drop 16).take 4 ++ '-' :: digits.drop 20

def text (id : Uuid) : List Char := hyphenate id.plain

def ofPlain? (text : List Char) : Option Uuid := do
  let digits ← text.mapM hexValue?
  if count : digits.length = 32 then some ⟨digits, count⟩ else none

def ofHyphenated? (text : List Char) : Option Uuid :=
  let digits := text.filter (· != '-')
  if hyphenate digits = text then ofPlain? digits else none

/-- Reads the hyphenated form, bare, in braces or behind its resource name, which may be
written in either case, and the plain digits. -/
def ofText? (text : List Char) : Option Uuid :=
  match text with
  | '{' :: rest => if rest.getLast? = some '}' then ofHyphenated? rest.dropLast else none
  | _ =>
    if (text.take 9).map Char.toLower = "urn:uuid:".toList then ofHyphenated? (text.drop 9)
    else (ofPlain? text).or (ofHyphenated? text)

end Uuid

end WritePlan
