import WritePlan.PathNode
import WritePlan.Schema

/-! The queries of a schema for paths, as they make the paths that are kept: an expression is read
segment by segment, and the list of all paths grows round by round. -/
namespace WritePlan.Schema

/-- How far an expression has been read: the mapping of the type reached, and the path there unless
that is the root. -/
structure Cursor where
  owner : EntityMapping
  path? : Option PathNode

/-- Reads one more segment. The type that it leads to must be registered. -/
def advance (schema : Schema) (root : EntityType) (expression : String) (cursor : Cursor)
    (segment : String) : Except Error Cursor := do
  let hop ← hopNamed cursor.owner expression segment
  return ⟨← schema.require hop.target, some (.under root cursor.path? hop)⟩

def Cursor.finish (cursor : Cursor) (expression : String) : Except Error PathNode :=
  match cursor.path? with
  | some node => .ok node
  | none => .error (.invalidPath (.unread expression))

def locate (schema : Schema) (root : EntityType) (expression : String) : Except Error PathNode := do
  if Text.allBlank expression.toList then throw (.invalidPath (.blank root))
  let start ← schema.require root
  let (first, others) := splitDots expression.toList
  let cursor ← ((first :: others).map String.ofList).foldlM (schema.advance root expression)
    ⟨start, none⟩
  cursor.finish expression

/-- Takes a step from a path or from the root. Paths at the depth limit must lead no further. -/
def stepDown (schema : Schema) (root : EntityType) (parent? : Option PathNode) (hop : Hop) :
    Except Error (PathNode × EntityMapping) := do
  if parent?.any fun parent => depthLimit ≤ parent.depth then
    throw (.invalidPath (.tooDeep root depthLimit))
  return (.under root parent? hop, ← schema.require hop.target)

def nodesBelow (schema : Schema) (root : EntityType) :
    Nat → List (Option PathNode × EntityMapping) → Except Error (List PathNode)
  | 0, _ => .ok []
  | rounds + 1, pending => do
    let next := (← pending.mapM fun (parent?, owner) =>
      owner.hops.mapM (schema.stepDown root parent?)).flatten
    let deeper ← schema.nodesBelow root rounds (next.map fun (node, target) => (some node, target))
    return next.map Prod.fst ++ deeper

/-- All paths below a root type. No path is deeper than the limit, so that nothing is pending after
one round more. -/
def nodes (schema : Schema) (root : EntityType) : Except Error (List PathNode) := do
  schema.nodesBelow root (depthLimit + 1) [(none, ← schema.require root)]

def lastProperty (schema : Schema) (node : PathNode) : Except Error PropertyMapping := do
  let owner := (node.parent?.map PathNode.type).getD node.rootType
  (← schema.require owner).requireProperty node.leaf

end WritePlan.Schema
