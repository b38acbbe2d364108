import WritePlan.Accumulator

namespace WritePlan

/-- Work on an accumulator in place. An error ends the work but undoes nothing. -/
abbrev Intake := EStateM Error Accumulator

namespace Accumulator

def offer (change : Change) : Intake Unit := do
  let held ← get
  if change.kind ≠ held.kind then
    throw (.changeKindMismatch held.kind change.kind)
  if change.type ≠ held.type then
    throw (.entityTypeMismatch held.type change.type)
  set { held with changes := held.changes ++ [change] }

/-- Offers changes one after the other, whatever the answers are. Gives the answers and the
accumulator after the last of them. -/
def offerAll (accumulator : Accumulator) : List Change → List (Except Error Unit) × Accumulator
  | [] => ([], accumulator)
  | change :: rest =>
    match (offer change).run accumulator with
    | .ok _ held =>
      let (answers, last) := held.offerAll rest
      (.ok () :: answers, last)
    | .error error held =>
      let (answers, last) := held.offerAll rest
      (.error error :: answers, last)

end Accumulator

end WritePlan
