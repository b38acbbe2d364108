import WritePlan.Json.Token

/-! Reading a JSON value from its tokens. The reader keeps the containers that are still
open on a list, so its steps need no recursion however deep a value is. -/
namespace WritePlan.Json

/-- A container that is still open, with its parts so far, the newest first. An object
also holds the name of the member whose value is due. -/
inductive Frame
  | array (items : List Json)
  | object (members : List (List TextUnit × Json)) (name : List TextUnit)

/-- What the reader has just met and so what may come next. The open containers are
listed from the inside out. -/
inductive Reader
  | due (frames : List Frame)
  | firstItem (frames : List Frame)
  | firstName (frames : List Frame)
  | nextName (members : List (List TextUnit × Json)) (frames : List Frame)
  | named (members : List (List TextUnit × Json)) (name : List TextUnit) (frames : List Frame)
  | complete (json : Json) (frames : List Frame)

namespace Reader

def beginValue? (frames : List Frame) : Token → Option Reader
  | .null => some (.complete .null frames)
  | .boolean value => some (.complete (.boolean value) frames)
  | .number numeral => some (.complete (.number numeral) frames)
  | .string units => some (.complete (.string units) frames)
  | .beginArray => some (.firstItem frames)
  | .beginObject => some (.firstName frames)
  | _ => none

/-- The token after a complete value: it ends the innermost container or continues it. -/
def afterValue? (json : Json) : List Frame → Token → Option Reader
  | .array items :: frames, .comma => some (.due (.array (json :: items) :: frames))
  | .array items :: frames, .endArray =>
    some (.complete (.array (json :: items).reverse) frames)
  | .object members name :: frames, .comma => some (.nextName ((name, json) :: members) frames)
  | .object members name :: frames, .endObject =>
    some (.complete (.object ((name, json) :: members).reverse) frames)
  | _, _ => none

def step? : Reader → Token → Option Reader
  | .due frames, token => beginValue? frames token
  | .firstItem frames, .endArray => some (.complete (.array []) frames)
  | .firstItem frames, token => beginValue? (.array [] :: frames) token
  | .firstName frames, .endObject => some (.complete (.object []) frames)
  | .firstName frames, .string name => some (.named [] name frames)
  | .nextName members frames, .string name => some (.named members name frames)
  | .named members name frames, .colon => some (.due (.object members name :: frames))
  | .complete json frames, token => afterValue? json frames token
  | _, _ => none

end Reader

def ofTokens? (tokens : List Token) : Option Json := do
  match ← tokens.foldlM Reader.step? (.due []) with
  | .complete json [] => some json
  | _ => none

/-- Reads a text as one JSON value, with white space around it allowed. -/
def parse? (text : String) : Option Json := do
  ofTokens? (← Token.scan? text.toList)

end WritePlan.Json
