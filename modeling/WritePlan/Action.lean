import WritePlan.Action.Kind
import WritePlan.Entity
import WritePlan.Path

/-! Database actions. A step is one unit of work: it addresses the root of an aggregate, or
the rows at a path below the root. An action is one step, or a batch of steps below the
root that one statement can carry out. -/
namespace WritePlan

/-- List positions and map keys along a path, in the order of the paths' segments, each
path once. -/
abbrev Qualifiers := List (Path × Value)

/-- Puts a qualifier in its place. A path that is there already stays as it is and takes
the new value. -/
def Qualifiers.put (path : Path) (value : Value) : Qualifiers → Qualifiers
  | [] => [(path, value)]
  | (other, held) :: rest =>
    if path == other then (other, value) :: rest
    else if path.segments < other.segments then (path, value) :: (other, held) :: rest
    else (other, held) :: Qualifiers.put path value rest

inductive RootStep
  | insert (entity : Entity) (source : IdSource)
  | update (entity : Entity) (previousVersion : Option Value)
  | delete (id : Value) (type : EntityType) (previousVersion : Option Value)
  | deleteAll (type : EntityType)
  | lock (id : Value) (type : EntityType)
  | lockAll (type : EntityType)
deriving BEq

inductive RowWork
  | insert (entity : Entity) (source : IdSource) (qualifiers : Qualifiers)
  | update (entity : Entity)
  /-- Deletes the rows of one aggregate, or the one row with the key. -/
  | delete (rootId : Value) (key : Option Value)
  /-- Deletes the rows of all aggregates. -/
  | deleteAll
deriving BEq

structure ChildStep where
  path : Path
  work : RowWork
deriving BEq

/-- What the steps of a batch have in common besides their path. -/
inductive BatchKind
  | insert (source : IdSource)
  | update
  | delete
deriving DecidableEq, Hashable

inductive Step
  | root (step : RootStep)
  | child (step : ChildStep)
deriving BEq

inductive Action
  | root (step : RootStep)
  | child (step : ChildStep)
  | batch (path : Path) (kind : BatchKind) (members : List ChildStep)
deriving BEq

/-- The kind of batch that can hold the work. Deleting all rows at a path is one statement
as it is and joins no batch. -/
def RowWork.batchKind? : RowWork → Option BatchKind
  | .insert _ source _ => some (.insert source)
  | .update _ => some .update
  | .delete _ _ => some .delete
  | .deleteAll => none

def ChildStep.rootId? (step : ChildStep) : Option Value :=
  match step.work with
  | .delete rootId _ => some rootId
  | _ => none

def RootStep.type : RootStep → EntityType
  | .insert entity _ => entity.type
  | .update entity _ => entity.type
  | .delete _ type _ => type
  | .deleteAll type => type
  | .lock _ type => type
  | .lockAll type => type

def RootStep.kind : RootStep → ActionKind
  | .insert _ _ => .insertRoot
  | .update _ _ => .updateRoot
  | .delete _ _ _ => .deleteRoot
  | .deleteAll _ => .deleteAllRoot
  | .lock _ _ => .lockRoot
  | .lockAll _ => .lockAllRoot

def RowWork.kind : RowWork → ActionKind
  | .insert _ _ _ => .insert
  | .update _ => .update
  | .delete _ _ => .delete
  | .deleteAll => .deleteAll

def BatchKind.kind : BatchKind → ActionKind
  | .insert _ => .batchInsert
  | .update => .batchUpdate
  | .delete => .batchDelete

namespace Action

def ofStep : Step → Action
  | .root step => .root step
  | .child step => .child step

def kind : Action → ActionKind
  | .root step => step.kind
  | .child step => step.work.kind
  | .batch _ kind _ => kind.kind

def type : Action → EntityType
  | .root step => step.type
  | .child step => step.path.type
  | .batch path _ _ => path.type

def path? : Action → Option Path
  | .root _ => none
  | .child step => some step.path
  | .batch path _ _ => some path

def steps : Action → List Step
  | .root step => [.root step]
  | .child step => [.child step]
  | .batch _ _ members => members.map .child

/-- The steps, each as an action of its own. -/
def split (action : Action) : List Action := action.steps.map ofStep

def memberCount (action : Action) : Nat := action.steps.length

def isBatch (action : Action) : Bool := action.kind.isBatch

def isRoot (action : Action) : Bool := action.kind.isRoot

/-- The kind, the type, the place if it is below the root, and the size of a batch. -/
def display (action : Action) : String :=
  let place :=
    match action.path? with
    | some path => " at '" ++ path.dotted ++ "'"
    | none => ""
  let size := if action.isBatch then " (" ++ action.memberCount.repr ++ " rows)" else ""
  action.kind.display ++ " " ++ action.type.name ++ place ++ size

end Action

end WritePlan
