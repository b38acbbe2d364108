import WritePlan.Entity

namespace WritePlan

inductive ValueKind
  | integer | float | text | boolean | localTimestamp | zonedTimestamp | uuid
  | enumeration (name : String)
deriving DecidableEq

/-- The column type for a kind of value. Enumerations are stored by name, and timestamps
with a zone as text. -/
def ValueKind.columnType : ValueKind → ColumnType
  | .integer => .integer
  | .float => .float
  | .text => .text
  | .boolean => .boolean
  | .localTimestamp => .timestamp
  | .zonedTimestamp => .text
  | .uuid => .uuid
  | .enumeration _ => .text

inductive CollectionKind
  | list | set | map
deriving DecidableEq

def CollectionKind.isQualified : CollectionKind → Bool
  | .list => true
  | .set => false
  | .map => true

inductive PropertyKind
  | simple (kind : ValueKind)
  /-- Several simple values in the owner's table. -/
  | simpleCollection (kind : ValueKind)
  /-- One entity in a table of its own. -/
  | entity (target : EntityType)
  /-- An entity whose columns lie in the owner's table, their names perhaps behind a common
  beginning. -/
  | embedded (target : EntityType) (columnStart : Option String)
  /-- Several entities in a table of their own. -/
  | collection (element : EntityType) (kind : CollectionKind)
deriving DecidableEq

def PropertyKind.target? : PropertyKind → Option EntityType
  | .simple _ => none
  | .simpleCollection _ => none
  | .entity target => some target
  | .embedded target _ => some target
  | .collection element _ => some element

structure PropertyDecl where
  name : String
  kind : PropertyKind
  column : Option String
  reverseColumn : Option String
  keyColumn : Option String
  isId : Bool
  isVersion : Bool

def PropertyDecl.plain (name : String) (kind : PropertyKind) : PropertyDecl :=
  ⟨name, kind, none, none, none, false, false⟩

/-- The usual id property: an integer. -/
def PropertyDecl.id (name : String) : PropertyDecl :=
  { PropertyDecl.plain name (.simple .integer) with isId := true }

structure EntityDecl where
  type : EntityType
  table : Option String
  properties : List PropertyDecl

end WritePlan
