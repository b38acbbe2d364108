import WritePlan.Accumulator
import WritePlan.Distinct

/-! Lots: groups as they are held while steps come in. A lot keeps its rows by the kind of their work,
and a table finds the lot of a key by its position. What ought not to happen when a step is added is an
outcome of its own. -/
namespace WritePlan

structure RowDelete where
  path : Path
  rootId : Value
  key : Option Value

structure RowDeleteAll where
  path : Path

structure RowInsert where
  path : Path
  entity : Entity
  source : IdSource
  qualifiers : Qualifiers

structure RowUpdate where
  path : Path
  entity : Entity

def RowDelete.step (row : RowDelete) : ChildStep := ⟨row.path, .delete row.rootId row.key⟩

def RowDeleteAll.step (row : RowDeleteAll) : ChildStep := ⟨row.path, .deleteAll⟩

def RowInsert.step (row : RowInsert) : ChildStep :=
  ⟨row.path, .insert row.entity row.source row.qualifiers⟩

def RowUpdate.step (row : RowUpdate) : ChildStep := ⟨row.path, .update row.entity⟩

inductive LotRows
  | deletes (rows : Array RowDelete)
  | deleteAlls (rows : Array RowDeleteAll)
  | inserts (rows : Array RowInsert)
  | updates (rows : Array RowUpdate)

/-- What the steps of a lot have in common. Paths in keys are compared as paths are. -/
inductive LotKey
  | delete (path : Path)
  | deleteAll (path : Path)
  | insert (path : Path) (source : IdSource)
  | update (path : Path)
deriving BEq, Hashable

structure Lot where
  path : Path
  rows : LotRows

/-- What ought not to happen when a step is added. -/
inductive LotFault
  /-- The lot of the key keeps rows of another kind. -/
  | otherRows
  /-- There is no lot at the position of the key. -/
  | outOfBounds

def ChildStep.lotKey (step : ChildStep) : LotKey :=
  match step.work with
  | .delete _ _ => .delete step.path
  | .deleteAll => .deleteAll step.path
  | .insert _ source _ => .insert step.path source
  | .update _ => .update step.path

namespace LotRows

def bare : RowWork → LotRows
  | .delete _ _ => .deletes #[]
  | .deleteAll => .deleteAlls #[]
  | .insert _ _ _ => .inserts #[]
  | .update _ => .updates #[]

def push? (rows : LotRows) (step : ChildStep) : Option LotRows :=
  match rows, step.work with
  | .deletes rows, .delete rootId key => some (.deletes (rows.push ⟨step.path, rootId, key⟩))
  | .deleteAlls rows, .deleteAll => some (.deleteAlls (rows.push ⟨step.path⟩))
  | .inserts rows, .insert entity source qualifiers =>
    some (.inserts (rows.push ⟨step.path, entity, source, qualifiers⟩))
  | .updates rows, .update entity => some (.updates (rows.push ⟨step.path, entity⟩))
  | _, _ => none

end LotRows

inductive PathOrder
  | deepestFirst | shallowestFirst

def PathOrder.compare : PathOrder → Path → Path → Ordering
  | .deepestFirst => Path.deepestFirst
  | .shallowestFirst => Path.shallowestFirst

structure LotTable where
  order : PathOrder
  lots : Array Lot
  positions : Std.HashMap LotKey Nat

/-- The action for a piece: a single row as it is, any other piece as a batch. -/
def Action.ofPiece (single : ρ → Action) (batch : List ρ → Action) : List ρ → Action
  | [only] => single only
  | piece => batch piece

/-- One round of handing rows on in pieces of a size. The next piece is taken off the rows, until none
are left. -/
def emitRound {ρ σ : Type} (size : Nat) (single : ρ → Action) (batch : List ρ → Action)
    (consume : σ → Action → σ) (left : List ρ × σ) : List ρ × σ ⊕ σ :=
  let (rows, state) := left
  if rows.isEmpty then .inr state
  else .inl (rows.drop size, consume state (.ofPiece single batch (rows.take size)))

/-- Hands all rows on, one round after the other. Where the size is zero this has no end, as nothing is
ever taken off the rows. -/
def emitPieces {ρ σ : Type} (size : Nat) (single : ρ → Action) (batch : List ρ → Action)
    (consume : σ → Action → σ) (rows : List ρ) (state : σ) : σ :=
  have : Nonempty σ := ⟨state⟩
  Id.run (repeatM (fun left => pure (emitRound size single batch consume left)) (rows, state))

def Lot.emit {σ : Type} (lot : Lot) (size : Nat) (consume : σ → Action → σ) (state : σ) : σ :=
  match lot.rows with
  | .deletes rows => batched .delete RowDelete.step rows
  | .deleteAlls rows => rows.foldl (fun state row => consume state (.child row.step)) state
  | .inserts rows =>
    let source := (rows[0]?.map RowInsert.source).getD .absent
    batched (.insert source) RowInsert.step rows
  | .updates rows => batched .update RowUpdate.step rows
where
  batched {ρ : Type} (kind : BatchKind) (step : ρ → ChildStep) (rows : Array ρ) : σ :=
    emitPieces size (fun row => .child (step row))
      (fun piece => .batch lot.path kind (piece.map step)) consume rows.toList state

namespace LotTable

def empty (order : PathOrder) : LotTable := ⟨order, #[], ∅⟩

/-- The position of a key. A new key takes the next position, where a lot is opened for it. -/
def place (table : LotTable) (key : LotKey) (path : Path) (bare : LotRows) : Nat × LotTable :=
  let next := table.lots.size
  let (held, positions) := table.positions.getThenInsertIfNew? key next
  let position := held.getD next
  if position = next then
    (position, { table with lots := table.lots.push ⟨path, bare⟩, positions := positions })
  else (position, { table with positions := positions })

def add (table : LotTable) (step : ChildStep) : Except LotFault LotTable := do
  let (position, table) := table.place step.lotKey step.path (.bare step.work)
  match table.lots[position]? with
  | none => throw .outOfBounds
  | some lot =>
    match lot.rows.push? step with
    | none => throw .otherRows
    | some rows =>
      return { table with lots := table.lots.setIfInBounds position { lot with rows := rows } }

def addAll (table : LotTable) (steps : List ChildStep) : Except LotFault LotTable :=
  steps.foldlM add table

/-- Hands on the actions of all lots, sorted by the depth of their paths. Lots of one depth keep
their order. -/
def emit {σ : Type} (table : LotTable) (size : Nat) (consume : σ → Action → σ) (state : σ) : σ :=
  (table.lots.toList.mergeSort fun first second =>
    (table.order.compare first.path second.path).isLE).foldl
      (fun state lot => lot.emit size consume state) state

end LotTable

/-- The most members that an action may stand for. Where there is no limit, it is the largest number
of a machine word, which no list in memory reaches. -/
def BatchPolicy.pieceSize (policy : BatchPolicy) : Nat := policy.chunkSize.getD (UInt64.size - 1)

/-- Hands every action to a consumer, the steps below the root from lots. -/
def Accumulator.dispatch {σ : Type} (accumulator : Accumulator) (consume : σ → Action → σ) (state : σ) :
    Except LotFault σ := do
  let steps := accumulator.steps
  let deletes ← (LotTable.empty .deepestFirst).addAll (steps.filterMap (Step.childIn .childDeletes))
  let writes ← (LotTable.empty .shallowestFirst).addAll (steps.filterMap (Step.childIn .childWrites))
  let size := accumulator.policy.pieceSize
  let state := (rootActions .locks steps).foldl consume state
  let state := (rootActions .rootWrites steps).foldl consume state
  let state := deletes.emit size consume state
  let state := writes.emit size consume state
  return (rootActions .rootDeletes steps).foldl consume state

end WritePlan
