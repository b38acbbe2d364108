import WritePlan.Action
import WritePlan.Error

namespace WritePlan.Lookup

def actionsOf (actions : List Action) (kind : ActionKind) (type : EntityType) : List Action :=
  actions.filter fun action => action.kind == kind && action.type == type

def firstOf (actions : List Action) (kind : ActionKind) (type : EntityType) : Except Error Action :=
  match (actionsOf actions kind type).head? with
  | some action => .ok action
  | none => .error (.actionNotFound (.ofKind kind type))

def isInsertBatch (type : EntityType) (source : IdSource) : Action → Bool
  | .batch path (.insert own) _ => path.type == type && own == source
  | _ => false

def firstInsertBatch (actions : List Action) (type : EntityType) (source : IdSource) :
    Except Error Action :=
  match actions.find? (isInsertBatch type source) with
  | some action => .ok action
  | none => .error (.actionNotFound (.insertBatch type source))

end WritePlan.Lookup
