import WritePlan.Numeral

namespace WritePlan

/-- A unit of a JSON text: a character, or half of a surrogate pair whose other half is
missing. -/
inductive TextUnit
  | char (c : Char)
  | half (code : Nat)
deriving DecidableEq

def TextUnit.toChar? : TextUnit → Option Char
  | .char c => some c
  | .half _ => none

inductive Json
  | null
  | boolean (value : Bool)
  | number (numeral : Numeral)
  | string (units : List TextUnit)
  | array (items : List Json)
  | object (members : List (List TextUnit × Json))

namespace Json

def unitsOf (text : String) : List TextUnit := text.toList.map .char

/-- The text of the units, unless a half of a pair is among them. -/
def textOf? (units : List TextUnit) : Option String :=
  (units.mapM TextUnit.toChar?).map String.ofList

def ofText (text : String) : Json := .string (unitsOf text)

def ofMembers (members : List (String × Json)) : Json :=
  .object (members.map fun (name, value) => (unitsOf name, value))

def text? : Json → Option String
  | .string units => textOf? units
  | _ => none

/-- The members of a JSON object if all its names are texts. -/
def members? : Json → Option (List (String × Json))
  | .object members =>
    members.mapM fun (units, value) => (textOf? units).map fun name => (name, value)
  | _ => none

/-- The value of the member with a name, which may be missing. Fails if the name is
repeated. -/
def uniqueMember? (members : List (String × Json)) (name : String) : Option (Option Json) :=
  match members.filter fun member => member.1 == name with
  | [] => some none
  | [(_, value)] => some (some value)
  | _ => none

theorem textOf?_unitsOf (text : String) : textOf? (unitsOf text) = some text := by
  have read (chars : List Char) :
      (chars.map TextUnit.char).mapM TextUnit.toChar? = some chars := by
    induction chars with
    | nil => rfl
    | cons c rest ih => simp [List.mapM_cons, TextUnit.toChar?, ih]
  simp [textOf?, unitsOf, read]

end Json

end WritePlan
