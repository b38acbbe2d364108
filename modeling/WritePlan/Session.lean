import WritePlan.Accumulator

/-! Sessions: everything a caller can do with actions, changes and accumulators, in any order and
any number of times. Single actions are made at will; batches can only come out of streams, and
whatever comes out of a stream can go into further changes. -/
namespace WritePlan

/-- A stream as it was emitted, and the policy of the accumulator at that time. -/
structure Emitted where
  policy : BatchPolicy
  actions : List Action

/-- What a caller holds, each by its position. Streams are kept in the order of emission. -/
structure Session where
  actions : List Action
  changes : List Change
  accumulators : List Accumulator
  streams : List Emitted

inductive Operation
  /-- Makes a single action. -/
  | make (step : Step)
  | beginSave (root : Entity)
  | beginSaveVersioned (root : Entity) (previousVersion : Value)
  | beginDelete (root : Entity)
  | beginDeleteByType (type : EntityType) (previousVersion : Option Value)
  /-- Adds an action at hand to a change. -/
  | addAction (change action : Nat)
  | beginAccumulator (kind : ChangeKind) (type : EntityType)
  /-- Offers a change to an accumulator. -/
  | addChange (accumulator change : Nat)
  /-- Offers a policy to an accumulator. -/
  | configure (accumulator : Nat) (policy : BatchPolicy)
  /-- Emits the stream of an accumulator; its actions are at hand from then on. -/
  | emit (accumulator : Nat)
  /-- Takes an action apart; its members are at hand from then on. -/
  | split (action : Nat)

namespace Session

def empty : Session := ⟨[], [], [], []⟩

def hold (session : Session) (actions : List Action) : Session :=
  { session with actions := session.actions ++ actions }

def begin (session : Session) (change : Change) : Session :=
  { session with changes := session.changes ++ [change] }

/-- Alters an accumulator, unless it refuses. -/
def alter (session : Session) (accumulator : Nat) (change : Accumulator → Except Error Accumulator) :
    Session :=
  match session.accumulators[accumulator]?.map change with
  | some (.ok next) =>
    { session with accumulators := session.accumulators.set accumulator next }
  | _ => session

def addAction (session : Session) (change action : Nat) : Session :=
  match session.changes[change]?, session.actions[action]? with
  | some held, some added =>
    { session with changes := session.changes.set change (held.add added) }
  | _, _ => session

def beginAccumulator (session : Session) (kind : ChangeKind) (type : EntityType) : Session :=
  { session with accumulators := session.accumulators ++ [.new kind type] }

def addChange (session : Session) (accumulator change : Nat) : Session :=
  match session.changes[change]? with
  | some added => session.alter accumulator (·.add added)
  | none => session

def emit (session : Session) (accumulator : Nat) : Session :=
  match session.accumulators[accumulator]? with
  | some held =>
    { session.hold held.actions with
      streams := session.streams ++ [⟨held.policy, held.actions⟩] }
  | none => session

def split (session : Session) (action : Nat) : Session :=
  match session.actions[action]? with
  | some whole => session.hold whole.split
  | none => session

/-- Performs an operation. What names a thing that is not there does nothing. -/
def perform (session : Session) : Operation → Session
  | .make step => session.hold [.ofStep step]
  | .beginSave root => session.begin (.save root)
  | .beginSaveVersioned root previousVersion => session.begin (.saveVersioned root previousVersion)
  | .beginDelete root => session.begin (.delete root)
  | .beginDeleteByType type previousVersion => session.begin (.deleteByType type previousVersion)
  | .addAction change action => session.addAction change action
  | .beginAccumulator kind type => session.beginAccumulator kind type
  | .addChange accumulator change => session.addChange accumulator change
  | .configure accumulator policy => session.alter accumulator (·.withPolicy policy)
  | .emit accumulator => session.emit accumulator
  | .split action => session.split action

def run (operations : List Operation) : Session := operations.foldl perform empty

def everyAction (session : Session) : List Action :=
  session.actions ++ session.changes.flatMap Change.actions ++
    (session.accumulators.flatMap Accumulator.changes).flatMap Change.actions ++
    session.streams.flatMap Emitted.actions

end Session

end WritePlan
