import WritePlan.BatchPolicy
import WritePlan.Change
import WritePlan.Grouping

/-! Accumulators: changes of one kind to aggregates of one type, and the stream of actions
that carries all of them out. The stream has five phases: locks, writes of roots, deletes
below the roots, writes below the roots, and deletes of roots. Below the roots, steps are
grouped across all changes; deletes go from the deepest paths up and writes from the
shallowest down. -/
namespace WritePlan

inductive Phase
  | locks | rootWrites | childDeletes | childWrites | rootDeletes
deriving DecidableEq

def RootStep.phase : RootStep → Phase
  | .lock _ _ => .locks
  | .lockAll _ => .locks
  | .insert _ _ => .rootWrites
  | .update _ _ => .rootWrites
  | .delete _ _ _ => .rootDeletes
  | .deleteAll _ => .rootDeletes

def RowWork.phase : RowWork → Phase
  | .insert _ _ _ => .childWrites
  | .update _ => .childWrites
  | .delete _ _ => .childDeletes
  | .deleteAll => .childDeletes

namespace Step

def rootIn (phase : Phase) : Step → Option RootStep
  | .root step => if step.phase = phase then some step else none
  | .child _ => none

def childIn (phase : Phase) : Step → Option ChildStep
  | .root _ => none
  | .child step => if step.work.phase = phase then some step else none

end Step

def rootActions (phase : Phase) (steps : List Step) : List Action :=
  (steps.filterMap (Step.rootIn phase)).map .root

def stream (size : Option Nat) (steps : List Step) : List Action :=
  let deletes := GroupTable.ofSteps (steps.filterMap (Step.childIn .childDeletes))
  let writes := GroupTable.ofSteps (steps.filterMap (Step.childIn .childWrites))
  rootActions .locks steps ++ rootActions .rootWrites steps ++
    deletes.actions (fun a b => b ≤ a) size ++ writes.actions (fun a b => a ≤ b) size ++
    rootActions .rootDeletes steps

structure Accumulator where
  kind : ChangeKind
  type : EntityType
  policy : BatchPolicy
  changes : List Change

namespace Accumulator

def new (kind : ChangeKind) (type : EntityType) : Accumulator := ⟨kind, type, .standard, []⟩

def withPolicy (accumulator : Accumulator) (policy : BatchPolicy) : Except Error Accumulator := do
  policy.validate
  return { accumulator with policy := policy }

def add (accumulator : Accumulator) (change : Change) : Except Error Accumulator :=
  if change.kind ≠ accumulator.kind then
    .error (.changeKindMismatch accumulator.kind change.kind)
  else if change.type ≠ accumulator.type then
    .error (.entityTypeMismatch accumulator.type change.type)
  else .ok { accumulator with changes := accumulator.changes ++ [change] }

/-- The steps of all changes, batches taken apart. -/
def steps (accumulator : Accumulator) : List Step := accumulator.changes.flatMap Change.steps

def actions (accumulator : Accumulator) : List Action :=
  stream accumulator.policy.chunkSize accumulator.steps

end Accumulator

end WritePlan
