import WritePlan.Entity
import WritePlan.Value.Json

namespace WritePlan

def EntityType.toJson (type : EntityType) : Json := .ofText type.name

def EntityType.ofJson? (json : Json) : Option EntityType := json.text?.map EntityType.mk

namespace Entity

def toJson (entity : Entity) : Json :=
  .ofMembers
    [("entity_type", entity.type.toJson),
     ("properties", .ofMembers (entity.properties.map fun (name, value) => (name, value.toJson)))]

/-- The properties by name; of a repeated name the last value counts. -/
def propertiesOfJson? (json : Json) : Option (List (String × Value)) := do
  (← json.members?).mapM fun (name, member) => (Value.ofJson? member).map fun value => (name, value)

def ofParts? (type properties : Json) : Option Entity := do
  return (empty (← EntityType.ofJson? type)).setAll (← propertiesOfJson? properties)

/-- Reads the object, in which members of other names are passed over, or an array of the
two parts. -/
def ofJson? (json : Json) : Option Entity :=
  match json with
  | .array [type, properties] => ofParts? type properties
  | _ => do
    let members ← json.members?
    let type ← Json.uniqueMember? members "entity_type"
    let properties ← Json.uniqueMember? members "properties"
    ofParts? (← type) (← properties)

end Entity

end WritePlan
