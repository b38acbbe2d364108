import WritePlan.Json.Token

namespace WritePlan.Json

open Text

/-- Four lower-case hexadecimal digits behind the letter u. -/
def codeEscape (code : Nat) : List Char :=
  '\\' :: 'u' :: [code / 4096, code / 256, code / 16, code].map lastHexDigit

def charText (c : Char) : List Char :=
  match c with
  | '"' => ['\\', '"']
  | '\\' => ['\\', '\\']
  | '\x08' => ['\\', 'b']
  | '\t' => ['\\', 't']
  | '\n' => ['\\', 'n']
  | '\x0c' => ['\\', 'f']
  | '\r' => ['\\', 'r']
  | _ => if c.toNat < 0x20 then codeEscape c.toNat else [c]

def unitText : TextUnit → List Char
  | .char c => charText c
  | .half code => codeEscape code

def Token.text : Token → List Char
  | .beginArray => ['[']
  | .endArray => [']']
  | .beginObject => ['{']
  | .endObject => ['}']
  | .comma => [',']
  | .colon => [':']
  | .null => "null".toList
  | .boolean true => "true".toList
  | .boolean false => "false".toList
  | .number numeral => numeral.text
  | .string units => '"' :: units.flatMap unitText ++ ['"']

mutual

def tokens : Json → List Token
  | .null => [.null]
  | .boolean value => [.boolean value]
  | .number numeral => [.number numeral]
  | .string units => [.string units]
  | .array [] => [.beginArray, .endArray]
  | .array (item :: items) => .beginArray :: tokens item ++ itemTokens items
  | .object [] => [.beginObject, .endObject]
  | .object ((name, value) :: members) =>
    .beginObject :: .string name :: .colon :: tokens value ++ memberTokens members

/-- The items after the first, and the end of their array. -/
def itemTokens : List Json → List Token
  | [] => [.endArray]
  | item :: items => .comma :: tokens item ++ itemTokens items

/-- The members after the first, and the end of their object. -/
def memberTokens : List (List TextUnit × Json) → List Token
  | [] => [.endObject]
  | (name, value) :: members =>
    .comma :: .string name :: .colon :: tokens value ++ memberTokens members

end

def render (json : Json) : String := String.ofList (json.tokens.flatMap Token.text)

end WritePlan.Json
