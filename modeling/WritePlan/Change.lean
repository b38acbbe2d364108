import WritePlan.Action

namespace WritePlan

inductive ChangeKind
  | save | delete
deriving DecidableEq

def ChangeKind.display : ChangeKind → String
  | .save => "save"
  | .delete => "delete"

structure Change where
  kind : ChangeKind
  type : EntityType
  root : Option Entity
  /-- The version that the root had when it was loaded. -/
  previousVersion : Option Value
  actions : List Action

namespace Change

def save (root : Entity) : Change := ⟨.save, root.type, some root, none, []⟩

/-- A save that is guarded by the version the root had when it was loaded. -/
def saveVersioned (root : Entity) (previousVersion : Value) : Change :=
  ⟨.save, root.type, some root, some previousVersion, []⟩

def delete (root : Entity) : Change := ⟨.delete, root.type, some root, none, []⟩

def deleteByType (type : EntityType) (previousVersion : Option Value) : Change :=
  ⟨.delete, type, none, previousVersion, []⟩

def add (change : Change) (action : Action) : Change :=
  { change with actions := change.actions ++ [action] }

def steps (change : Change) : List Step := change.actions.flatMap Action.steps

end Change

end WritePlan
