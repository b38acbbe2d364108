import WritePlan.Declaration
import WritePlan.Entity
import WritePlan.Error
import WritePlan.Naming
import WritePlan.Path

namespace WritePlan

structure PropertyMapping where
  name : String
  owner : EntityType
  kind : PropertyKind
  column : String
  /-- The column of the child table that refers back to the owner's table. -/
  reverseColumn : Option String
  /-- The column of list positions or map keys. -/
  keyColumn : Option String
  isId : Bool
  isVersion : Bool

namespace PropertyMapping

/-- Whether the nested entities lie in a table of their own. -/
def hasOwnTable : PropertyKind → Bool
  | .entity _ => true
  | .collection _ _ => true
  | _ => false

def isQualifiedKind : PropertyKind → Bool
  | .collection _ kind => kind.isQualified
  | _ => false

/-- Settles the names of a property: those given by hand, else those derived from the
property, from the owner's table and from the reverse column. -/
def ofDecl (naming : Naming) (owner : EntityType) (table : String) (decl : PropertyDecl) :
    PropertyMapping :=
  let reverse := decl.reverseColumn.getD (naming.reverseColumn table)
  { name := decl.name
    owner := owner
    kind := decl.kind
    column := decl.column.getD (naming.column decl.name)
    reverseColumn := if hasOwnTable decl.kind then some reverse else none
    keyColumn :=
      if isQualifiedKind decl.kind then
        some (decl.keyColumn.getD (naming.keyColumn reverse))
      else none
    isId := decl.isId
    isVersion := decl.isVersion }

def columnType? (property : PropertyMapping) : Option ColumnType :=
  match property.kind with
  | .simple kind => some kind.columnType
  | .simpleCollection kind => some kind.columnType
  | _ => none

/-- The common beginning of the columns of an embedded entity, empty if none is given. -/
def columnStart? (property : PropertyMapping) : Option String :=
  match property.kind with
  | .embedded _ start => some (start.getD "")
  | _ => none

def isEmbedded (property : PropertyMapping) : Bool :=
  match property.kind with
  | .embedded _ _ => true
  | _ => false

def target? (property : PropertyMapping) : Option EntityType := property.kind.target?

def isEntity (property : PropertyMapping) : Bool := property.target?.isSome

def isCollection (property : PropertyMapping) : Bool :=
  match property.kind with
  | .collection _ _ => true
  | .simpleCollection _ => true
  | _ => false

def isQualified (property : PropertyMapping) : Bool := isQualifiedKind property.kind

def hop? (property : PropertyMapping) : Option Hop :=
  property.target?.map fun target =>
    ⟨property.name, target, property.isCollection, property.isQualified, property.isEmbedded⟩

end PropertyMapping

structure EntityMapping where
  type : EntityType
  table : String
  properties : List PropertyMapping

namespace EntityDecl

/-- Checks properties in order, given the names before them and whether an id and a version
property were among those. -/
def checkFrom (type : EntityType) (names : List String) (hasId hasVersion : Bool) :
    List PropertyDecl → Except Error Unit
  | [] => .ok ()
  | property :: rest =>
    if property.name ∈ names then .error (.invalidConfig (.repeatedProperty type property.name))
    else if property.isId && hasId then .error (.invalidConfig (.severalIds type))
    else if property.isVersion && hasVersion then .error (.invalidConfig (.severalVersions type))
    else
      checkFrom type (property.name :: names) (hasId || property.isId)
        (hasVersion || property.isVersion) rest

/-- Property names must differ, and there is at most one id and one version property. -/
def check (decl : EntityDecl) : Except Error Unit := checkFrom decl.type [] false false decl.properties

end EntityDecl

namespace EntityMapping

def ofDecl (naming : Naming) (decl : EntityDecl) : Except Error EntityMapping := do
  decl.check
  let table := decl.table.getD (naming.table decl.type)
  return ⟨decl.type, table, decl.properties.map (PropertyMapping.ofDecl naming decl.type table)⟩

def property? (mapping : EntityMapping) (name : String) : Option PropertyMapping :=
  mapping.properties.find? fun property => property.name == name

def requireProperty (mapping : EntityMapping) (name : String) : Except Error PropertyMapping :=
  match mapping.property? name with
  | some property => .ok property
  | none => .error (.unknownProperty mapping.type name)

def idProperty? (mapping : EntityMapping) : Option PropertyMapping :=
  mapping.properties.find? (·.isId)

def versionProperty? (mapping : EntityMapping) : Option PropertyMapping :=
  mapping.properties.find? (·.isVersion)

/-- The value that an entity has for a property, if it is there and not null. -/
def settled? (entity : Entity) (property : PropertyMapping) : Option Value :=
  (entity.get? property.name).filter fun value => !value.isNull

def idValue? (mapping : EntityMapping) (entity : Entity) : Option Value :=
  mapping.idProperty?.bind (settled? entity)

def versionValue? (mapping : EntityMapping) (entity : Entity) : Option Value :=
  mapping.versionProperty?.bind (settled? entity)

def idSource (mapping : EntityMapping) (entity : Entity) : IdSource :=
  match mapping.idProperty? with
  | none => .absent
  | some property => if (settled? entity property).isSome then .provided else .generated

def hops (mapping : EntityMapping) : List Hop := mapping.properties.filterMap (·.hop?)

end EntityMapping

end WritePlan
