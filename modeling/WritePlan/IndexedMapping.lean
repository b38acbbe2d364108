import WritePlan.Mapping
import Std.Data.HashMap

/-! Mappings as they are kept: the properties lie in an array, and the places of names, of the id
and of the version are noted while the properties are entered one after the other. -/
namespace WritePlan

structure IndexedMapping where
  type : EntityType
  table : String
  properties : Array PropertyMapping
  /-- Where the property of a name is. -/
  positions : Std.HashMap String Nat
  idPosition? : Option Nat
  versionPosition? : Option Nat

namespace IndexedMapping

def empty (type : EntityType) (table : String) : IndexedMapping := ⟨type, table, #[], ∅, none, none⟩

/-- Enters the next property, whose name must be new. The role of the id or of the version must not
be taken. -/
def enter (naming : Naming) (mapping : IndexedMapping) (property : PropertyDecl) :
    Except Error IndexedMapping :=
  let position := mapping.properties.size
  if mapping.positions.contains property.name then
    .error (.invalidConfig (.repeatedProperty mapping.type property.name))
  else if property.isId && mapping.idPosition?.isSome then
    .error (.invalidConfig (.severalIds mapping.type))
  else if property.isVersion && mapping.versionPosition?.isSome then
    .error (.invalidConfig (.severalVersions mapping.type))
  else .ok { mapping with
    properties := mapping.properties.push (.ofDecl naming mapping.type mapping.table property)
    positions := mapping.positions.insert property.name position
    idPosition? := if property.isId then some position else mapping.idPosition?
    versionPosition? := if property.isVersion then some position else mapping.versionPosition? }

def ofDecl (naming : Naming) (decl : EntityDecl) : Except Error IndexedMapping :=
  decl.properties.foldlM (enter naming)
    (empty decl.type (decl.table.getD (naming.table decl.type)))

def at? (mapping : IndexedMapping) (position? : Option Nat) : Option PropertyMapping :=
  position?.bind fun position => mapping.properties[position]?

def property? (mapping : IndexedMapping) (name : String) : Option PropertyMapping :=
  mapping.at? mapping.positions[name]?

def requireProperty (mapping : IndexedMapping) (name : String) : Except Error PropertyMapping :=
  match mapping.property? name with
  | some property => .ok property
  | none => .error (.unknownProperty mapping.type name)

def idProperty? (mapping : IndexedMapping) : Option PropertyMapping :=
  mapping.at? mapping.idPosition?

def versionProperty? (mapping : IndexedMapping) : Option PropertyMapping :=
  mapping.at? mapping.versionPosition?

def idValue? (mapping : IndexedMapping) (entity : Entity) : Option Value :=
  mapping.idProperty?.bind (EntityMapping.settled? entity)

def versionValue? (mapping : IndexedMapping) (entity : Entity) : Option Value :=
  mapping.versionProperty?.bind (EntityMapping.settled? entity)

end IndexedMapping

end WritePlan
