import WritePlan.Accumulator

/-! Emission: the stream of an accumulator, made in one pass over its changes and handed on
action by action. Batches that come in are taken apart on the way, and their members are sorted
into the phases as if they had come one by one. -/
namespace WritePlan

structure Collected where
  locks : Array RootStep
  rootWrites : Array RootStep
  deletes : GroupTable
  writes : GroupTable
  rootDeletes : Array RootStep

namespace Collected

def empty : Collected := ⟨#[], #[], .empty, .empty, #[]⟩

def take (collected : Collected) : Step → Collected
  | .root step =>
    match step with
    | .lock _ _ | .lockAll _ => { collected with locks := collected.locks.push step }
    | .insert _ _ | .update _ _ => { collected with rootWrites := collected.rootWrites.push step }
    | .delete _ _ _ | .deleteAll _ =>
      { collected with rootDeletes := collected.rootDeletes.push step }
  | .child step =>
    match step.work with
    | .delete _ _ | .deleteAll => { collected with deletes := collected.deletes.add step }
    | .insert _ _ _ | .update _ => { collected with writes := collected.writes.add step }

/-- Takes in an action, a batch member by member. -/
def push (collected : Collected) : Action → Collected
  | .root step => collected.take (.root step)
  | .child step => collected.take (.child step)
  | .batch _ _ members =>
    members.foldl (fun collected member => collected.take (.child member)) collected

def forEach (collected : Collected) (size : Option Nat) (consume : σ → Action → σ) (state : σ) : σ :=
  let state := collected.locks.foldl (fun state step => consume state (.root step)) state
  let state := collected.rootWrites.foldl (fun state step => consume state (.root step)) state
  let state := (collected.deletes.actions (fun a b => b ≤ a) size).foldl consume state
  let state := (collected.writes.actions (fun a b => a ≤ b) size).foldl consume state
  collected.rootDeletes.foldl (fun state step => consume state (.root step)) state

end Collected

namespace Accumulator

def collect (accumulator : Accumulator) : Collected :=
  accumulator.changes.foldl (fun collected change => change.actions.foldl Collected.push collected)
    .empty

def forEachAction (accumulator : Accumulator) (consume : σ → Action → σ) (state : σ) : σ :=
  accumulator.collect.forEach accumulator.policy.chunkSize consume state

end Accumulator

end WritePlan
