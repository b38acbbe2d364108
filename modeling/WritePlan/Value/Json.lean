import WritePlan.Binary64.Reading
import WritePlan.Json
import WritePlan.Timestamp.Reader
import WritePlan.Value

namespace WritePlan

/-- In JSON, numbers of ordinary size are written out with at least one place after the
point, very large and very small ones with a power of ten. Of two equally short decimals
the one with the even last digit is taken. -/
def Json.numberLayout : NumberLayout := ⟨.toEven, fun leading => -5 ≤ leading && leading ≤ 15, ['0']⟩

namespace Value

def floatToJson (x : Binary64) : Json :=
  if x.isFinite then .number (Json.numberLayout.numeral x) else .null

def toJson : Value → Json
  | .null => .ofText "Null"
  | .integer n => .ofMembers [("Integer", .number (.ofInt n.toInt))]
  | .float x => .ofMembers [("Float", floatToJson x)]
  | .text s => .ofMembers [("Text", .ofText s)]
  | .boolean b => .ofMembers [("Boolean", .boolean b)]
  | .uuid id => .ofMembers [("Uuid", .ofText (String.ofList id.text))]
  | .timestamp t => .ofMembers [("Timestamp", .ofText (String.ofList t.zuluText))]

def integerOfJson? : Json → Option Int64
  | .number numeral => do
    let n ← numeral.toInt?
    if Int64.minValue.toInt ≤ n ∧ n ≤ Int64.maxValue.toInt then some (Int64.ofInt n) else none
  | _ => none

def floatOfJson? : Json → Option Binary64
  | .number numeral => Binary64.ofNumeral? numeral
  | _ => none

def booleanOfJson? : Json → Option Bool
  | .boolean b => some b
  | _ => none

def ofMember? (name : String) (json : Json) : Option Value :=
  match name with
  | "Null" =>
    match json with
    | .null => some .null
    | _ => none
  | "Integer" => (integerOfJson? json).map .integer
  | "Float" => (floatOfJson? json).map .float
  | "Text" => json.text?.map .text
  | "Boolean" => (booleanOfJson? json).map .boolean
  | "Uuid" => (json.text?.bind fun text => Uuid.ofText? text.toList).map .uuid
  | "Timestamp" => (json.text?.bind fun text => Timestamp.ofText? text.toList).map .timestamp
  | _ => none

/-- The only bare name is that of null. -/
def ofName? (name : String) : Option Value := if name = "Null" then some .null else none

def ofJson? (json : Json) : Option Value :=
  match json with
  | .string units => (Json.textOf? units).bind ofName?
  | .object [(units, member)] => (Json.textOf? units).bind fun name => ofMember? name member
  | _ => none

end Value

namespace ColumnType

def dataName : ColumnType → String
  | .integer => "Integer"
  | .float => "Float"
  | .text => "Text"
  | .boolean => "Boolean"
  | .timestamp => "Timestamp"
  | .uuid => "Uuid"

def toJson (type : ColumnType) : Json := .ofText type.dataName

def ofName? (name : String) : Option ColumnType := all.find? fun type => type.dataName == name

/-- A bare name, or an object that gives the name the value null. -/
def ofJson? (json : Json) : Option ColumnType :=
  match json with
  | .string units => (Json.textOf? units).bind ofName?
  | .object [(units, .null)] => (Json.textOf? units).bind ofName?
  | _ => none

end ColumnType

end WritePlan
