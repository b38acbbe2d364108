namespace WritePlan

/-- Where the id of an inserted row comes from: the database makes it, the entity carries
it, or there is none because the entity type has no id property. -/
inductive IdSource
  | generated | provided | absent
deriving DecidableEq, Hashable

def IdSource.name : IdSource → String
  | .generated => "Generated"
  | .provided => "Provided"
  | .absent => "None"

inductive ActionKind
  | insertRoot | updateRoot | insert | update | delete | deleteRoot | deleteAll | deleteAllRoot
  | lockRoot | lockAllRoot | batchInsert | batchUpdate | batchDelete
deriving DecidableEq

namespace ActionKind

def isBatch : ActionKind → Bool
  | .batchInsert => true
  | .batchUpdate => true
  | .batchDelete => true
  | _ => false

def isRoot : ActionKind → Bool
  | .insertRoot => true
  | .updateRoot => true
  | .deleteRoot => true
  | .deleteAllRoot => true
  | .lockRoot => true
  | .lockAllRoot => true
  | _ => false

def display : ActionKind → String
  | .insertRoot => "INSERT ROOT"
  | .updateRoot => "UPDATE ROOT"
  | .insert => "INSERT"
  | .update => "UPDATE"
  | .delete => "DELETE"
  | .deleteRoot => "DELETE ROOT"
  | .deleteAll => "DELETE ALL"
  | .deleteAllRoot => "DELETE ALL ROOT"
  | .lockRoot => "LOCK ROOT"
  | .lockAllRoot => "LOCK ALL ROOT"
  | .batchInsert => "BATCH INSERT"
  | .batchUpdate => "BATCH UPDATE"
  | .batchDelete => "BATCH DELETE"

end ActionKind

end WritePlan
