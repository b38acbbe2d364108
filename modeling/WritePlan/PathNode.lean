import WritePlan.Path

/-! Paths as they are kept: each holds all its property names, what the properties along it say
together, and the path that encloses it. -/
namespace WritePlan

structure PathNode where
  rootType : EntityType
  segments : List String
  type : EntityType
  collection : Bool
  qualified : Bool
  /-- Whether an embedded property lies on the way. -/
  embedded : Bool
  /-- The path to the entity that holds the last property, unless that is the root. -/
  parent? : Option PathNode

namespace PathNode

def ofRoot (root : EntityType) (hop : Hop) : PathNode where
  rootType := root
  segments := [hop.name]
  type := hop.target
  collection := hop.collection
  qualified := hop.qualified
  embedded := hop.embedded
  parent? := none

def child (node : PathNode) (hop : Hop) : PathNode where
  rootType := node.rootType
  segments := node.segments ++ [hop.name]
  type := hop.target
  collection := hop.collection
  qualified := hop.qualified
  embedded := hop.embedded || node.embedded
  parent? := some node

/-- The path of a property of the entity that a path leads to, or of the root if there is none. -/
def under (root : EntityType) (parent? : Option PathNode) (hop : Hop) : PathNode :=
  match parent? with
  | none => .ofRoot root hop
  | some parent => parent.child hop

def depth (node : PathNode) : Nat := node.segments.length

def leaf (node : PathNode) : String := node.segments.getLast?.getD ""

def dotted (node : PathNode) : String := ".".intercalate node.segments

/-- Paths are the same if their property names are. -/
instance : BEq PathNode where
  beq a b := a.segments == b.segments

def parents : PathNode → List PathNode
  | ⟨_, _, _, _, _, _, none⟩ => []
  | ⟨_, _, _, _, _, _, some above⟩ => above :: above.parents

/-- The path and those that enclose it, from the deepest to the one below the root. -/
def lineage (node : PathNode) : List PathNode := node :: node.parents

def isAncestorOf (node other : PathNode) : Bool :=
  node.depth < other.depth && node.segments.isPrefixOf other.segments

def deepestFirst (a b : PathNode) : Ordering := compare b.depth a.depth

def shallowestFirst (a b : PathNode) : Ordering := compare a.depth b.depth

def describe (node : PathNode) : String :=
  "PropertyPath(" ++ node.rootType.name ++ "." ++ node.dotted ++ " -> " ++ node.type.name ++ ")"

end PathNode

/-- The path to the place, as it is kept; there is none to the root. -/
def Place.node? : Place → Option PathNode
  | .root _ => none
  | .child above hop => some (.under above.rootType above.node? hop)

def Path.node (path : Path) : PathNode := .under path.rootType path.above.node? path.hop

end WritePlan
