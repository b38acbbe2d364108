import WritePlan.Entity

namespace WritePlan

/-- A property that leads to a nested entity, with what matters of its declaration. -/
structure Hop where
  name : String
  target : EntityType
  collection : Bool
  qualified : Bool
  embedded : Bool
deriving DecidableEq

/-- A place in an aggregate, root included. -/
inductive Place
  | root (type : EntityType)
  | child (parent : Place) (hop : Hop)
deriving DecidableEq

namespace Place

/-- The type of the entities at the place. -/
def type : Place → EntityType
  | .root type => type
  | .child _ hop => hop.target

def rootType : Place → EntityType
  | .root type => type
  | .child parent _ => parent.rootType

/-- The property names from the root to the place. -/
def segments : Place → List String
  | .root _ => []
  | .child parent hop => parent.segments ++ [hop.name]

def depth : Place → Nat
  | .root _ => 0
  | .child parent _ => parent.depth + 1

/-- Whether an embedded property lies on the way. -/
def embedded : Place → Bool
  | .root _ => false
  | .child parent hop => hop.embedded || parent.embedded

end Place

/-- A place below the root, as its last property and the place that holds it. -/
structure Path where
  above : Place
  hop : Hop

namespace Path

def place (path : Path) : Place := .child path.above path.hop

def rootType (path : Path) : EntityType := path.place.rootType

def type (path : Path) : EntityType := path.hop.target

def segments (path : Path) : List String := path.place.segments

def depth (path : Path) : Nat := path.place.depth

def leaf (path : Path) : String := path.hop.name

/-- Paths are the same if their property names are, whatever root they start from. -/
instance : BEq Path where
  beq a b := a.segments == b.segments

/-- The path to the entity that holds the last property, unless that is the root. -/
def parent? (path : Path) : Option Path :=
  match path.above with
  | .root _ => none
  | .child above hop => some ⟨above, hop⟩

/-- The enclosing paths from the nearest to the one below the root. -/
def parents (path : Path) : List Path := upward path.above
where
  upward : Place → List Path
    | .root _ => []
    | .child above hop => ⟨above, hop⟩ :: upward above

def dotted (path : Path) : String := ".".intercalate path.segments

def isCollection (path : Path) : Bool := path.hop.collection

def isQualified (path : Path) : Bool := path.hop.qualified

def isEmbedded (path : Path) : Bool := path.place.embedded

/-- Whether `other` lies strictly below the path. -/
def isAncestorOf (path other : Path) : Bool :=
  path.depth < other.depth && path.segments.isPrefixOf other.segments

def deepestFirst (a b : Path) : Ordering := compare b.depth a.depth

def shallowestFirst (a b : Path) : Ordering := compare a.depth b.depth

def describe (path : Path) : String :=
  "PropertyPath(" ++ path.rootType.name ++ "." ++ path.dotted ++ " -> " ++ path.type.name ++ ")"

theorem above_of_parent? {path above : Path} (parent : path.parent? = some above) :
    path.above = above.place := by
  unfold parent? at parent
  split at parent
  · cases parent
  · rename_i place
    cases parent
    exact place

theorem beq_iff_segments {a b : Path} : (a == b) = true ↔ a.segments = b.segments := by
  change (a.segments == b.segments) = true ↔ a.segments = b.segments
  exact beq_iff_eq

theorem length_segments (place : Place) : place.segments.length = place.depth := by
  induction place with
  | root => rfl
  | child parent hop ih => simp [Place.segments, Place.depth, ih]

end Path

end WritePlan
