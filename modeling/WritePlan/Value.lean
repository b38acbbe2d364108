import WritePlan.Binary64.Layout
import WritePlan.Timestamp
import WritePlan.Uuid

namespace WritePlan

inductive Value
  | null
  | integer (n : Int64)
  | float (x : Binary64)
  | text (s : String)
  | boolean (b : Bool)
  | uuid (id : Uuid)
  | timestamp (t : Timestamp)

inductive ColumnType
  | integer | float | text | boolean | timestamp | uuid
deriving DecidableEq

namespace Value

/-- Values of different types differ, also where their numbers agree; all NaN values are
one. -/
instance : BEq Value where
  beq
    | .null, .null => true
    | .integer a, .integer b => a == b
    | .float a, .float b => a == b
    | .text a, .text b => a == b
    | .boolean a, .boolean b => a == b
    | .uuid a, .uuid b => a == b
    | .timestamp a, .timestamp b => a == b
    | _, _ => false

def isNull : Value → Bool
  | .null => true
  | _ => false

def integer? : Value → Option Int64
  | .integer n => some n
  | _ => none

def text? : Value → Option String
  | .text s => some s
  | _ => none

def columnType? : Value → Option ColumnType
  | .null => none
  | .integer _ => some .integer
  | .float _ => some .float
  | .text _ => some .text
  | .boolean _ => some .boolean
  | .uuid _ => some .uuid
  | .timestamp _ => some .timestamp

/-- Numbers for people are written out in full, without a power of ten and without a
fraction that is zero. Of two equally short decimals the larger is taken. -/
def plainLayout : NumberLayout := ⟨.upward, fun _ => true, []⟩

def floatText (x : Binary64) : List Char :=
  if x.isNaN then "NaN".toList
  else if x.isFinite then (plainLayout.numeral x).text
  else if x.isNegative then "-inf".toList
  else "inf".toList

/-- The value as people read it; a text stands for itself. -/
def display : Value → String
  | .null => "NULL"
  | .integer n => String.ofList (Numeral.ofInt n.toInt).text
  | .float x => String.ofList (floatText x)
  | .text s => s
  | .boolean true => "true"
  | .boolean false => "false"
  | .uuid id => String.ofList id.text
  | .timestamp t => String.ofList t.text

end Value

namespace ColumnType

def all : List ColumnType := [.integer, .float, .text, .boolean, .timestamp, .uuid]

def display : ColumnType → String
  | .integer => "INTEGER"
  | .float => "FLOAT"
  | .text => "TEXT"
  | .boolean => "BOOLEAN"
  | .timestamp => "TIMESTAMP"
  | .uuid => "UUID"

/-- Whether a column can hold a value. Null fits everywhere, and a column of floating-point
numbers takes integers too. -/
def accepts (type : ColumnType) (value : Value) : Bool :=
  match value.columnType? with
  | none => true
  | some own => own == type || (type == .float && own == .integer)

end ColumnType

def Value.typeName (value : Value) : String :=
  match value.columnType? with
  | none => "NULL"
  | some own => own.display

end WritePlan
