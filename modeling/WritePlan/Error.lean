import WritePlan.Change

namespace WritePlan

inductive PathFault
  | blank (root : EntityType)
  | emptySegment (expression : String)
  | tooDeep (root : EntityType) (levels : Nat)
  | unread (expression : String)
deriving DecidableEq

inductive ConfigFault
  | repeatedProperty (type : EntityType) (property : String)
  | severalIds (type : EntityType)
  | severalVersions (type : EntityType)
  | emptyBatches
deriving DecidableEq

/-- An action that is not in a stream. -/
inductive SoughtAction
  | ofKind (kind : ActionKind) (type : EntityType)
  | insertBatch (type : EntityType) (source : IdSource)
deriving DecidableEq

inductive Error
  | changeKindMismatch (expected actual : ChangeKind)
  | entityTypeMismatch (expected actual : EntityType)
  | unknownEntity (type : EntityType)
  | duplicateEntity (type : EntityType)
  | unknownProperty (owner : EntityType) (property : String)
  | notTraversable (owner : EntityType) (property expression : String)
  | invalidPath (fault : PathFault)
  | invalidConfig (fault : ConfigFault)
  | configSyntax
  | actionNotFound (sought : SoughtAction)
deriving DecidableEq

def PathFault.message : PathFault → String
  | .blank root => "empty path below '" ++ root.name ++ "'"
  | .emptySegment expression => "'" ++ expression ++ "' contains an empty segment"
  | .tooDeep root levels =>
    "entity graph below '" ++ root.name ++ "' nests deeper than " ++ levels.repr ++ " levels"
  | .unread expression => expression

def ConfigFault.message : ConfigFault → String
  | .repeatedProperty type property =>
    "Property '" ++ property ++ "' declared twice on '" ++ type.name ++ "'"
  | .severalIds type => "Entity '" ++ type.name ++ "' declares more than one id property"
  | .severalVersions type =>
    "Entity '" ++ type.name ++ "' declares more than one version property"
  | .emptyBatches => "max_batch_size must be > 0"

def SoughtAction.message : SoughtAction → String
  | .ofKind kind type => "no " ++ kind.display ++ " action for '" ++ type.name ++ "'"
  | .insertBatch type source =>
    "no BATCH INSERT for '" ++ type.name ++ "' with batch value " ++ source.name

def Error.message : Error → String
  | .changeKindMismatch expected actual =>
    "Cannot add a " ++ actual.display ++ " change to a batching change declared for " ++
      expected.display
  | .entityTypeMismatch expected actual =>
    "Cannot add a change for '" ++ actual.name ++ "' to a batching change declared for '" ++
      expected.name ++ "'"
  | .unknownEntity type => "Entity type '" ++ type.name ++ "' is not registered"
  | .duplicateEntity type => "Entity type '" ++ type.name ++ "' is already registered"
  | .unknownProperty owner property =>
    "Property '" ++ property ++ "' not found on entity '" ++ owner.name ++ "'"
  | .notTraversable owner property expression =>
    "Property '" ++ property ++ "' of '" ++ owner.name ++
      "' is not an entity and cannot be traversed in '" ++ expression ++ "'"
  | .invalidPath fault => "Invalid property path: " ++ fault.message
  | .invalidConfig fault => "Invalid configuration: " ++ fault.message
  | .configSyntax => "Configuration is not valid JSON for a batching policy"
  | .actionNotFound sought => "Action not found: " ++ sought.message

end WritePlan
