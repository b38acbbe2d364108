import WritePlan.PathNode
import Mathlib.Data.List.Basic

namespace WritePlan

namespace PathNode

variable (root : EntityType) (parent? : Option PathNode) (hop : Hop)

@[simp] theorem rootType_under :
    (under root parent? hop).rootType = parent?.elim root PathNode.rootType := by
  cases parent? <;> rfl

@[simp] theorem segments_under :
    (under root parent? hop).segments = parent?.elim [] PathNode.segments ++ [hop.name] := by
  cases parent? <;> rfl

@[simp] theorem type_under : (under root parent? hop).type = hop.target := by
  cases parent? <;> rfl

@[simp] theorem collection_under : (under root parent? hop).collection = hop.collection := by
  cases parent? <;> rfl

@[simp] theorem qualified_under : (under root parent? hop).qualified = hop.qualified := by
  cases parent? <;> rfl

@[simp] theorem embedded_under :
    (under root parent? hop).embedded = (hop.embedded || parent?.elim false PathNode.embedded) := by
  cases parent? with
  | none => exact (Bool.or_false _).symm
  | some parent => rfl

@[simp] theorem parent?_under : (under root parent? hop).parent? = parent? := by
  cases parent? <;> rfl

theorem parents_eq (node : PathNode) : node.parents = node.parent?.elim [] PathNode.lineage := by
  obtain ⟨_, _, _, _, _, _, parent?⟩ := node
  cases parent? <;> rfl

@[simp] theorem parents_under :
    (under root parent? hop).parents = parent?.elim [] PathNode.lineage := by
  rw [parents_eq, parent?_under]

end PathNode

namespace Place

/-- The properties from the root to the place, each with the type that it leads to. -/
def stops : Place → List (String × EntityType)
  | .root _ => []
  | .child above hop => above.stops ++ [(hop.name, hop.target)]

theorem map_fst_stops (place : Place) : place.stops.map Prod.fst = place.segments := by
  induction place with
  | root => rfl
  | child above hop ih => simp [stops, segments, ih]

theorem length_stops (place : Place) : place.stops.length = place.depth := by
  induction place with
  | root => rfl
  | child above hop ih => simp [stops, depth, ih]

private theorem rootType_node? (place : Place) :
    place.node?.elim place.rootType PathNode.rootType = place.rootType := by
  induction place with
  | root => rfl
  | child above hop ih => simpa [node?, rootType] using ih

private theorem segments_node? (place : Place) :
    place.node?.elim [] PathNode.segments = place.segments := by
  induction place with
  | root => rfl
  | child above hop ih => simp [node?, segments, ih]

private theorem embedded_node? (place : Place) :
    place.node?.elim false PathNode.embedded = place.embedded := by
  induction place with
  | root => rfl
  | child above hop ih => simp [node?, embedded, ih]

/-- The paths that lead to a place and past those above it are kept as a chain. -/
private theorem lineage_node? (place : Place) :
    place.node?.elim [] PathNode.lineage = (Path.parents.upward place).map Path.node := by
  induction place with
  | root => rfl
  | child above hop ih =>
    rw [Path.parents.upward, List.map_cons, ← ih]
    simp [node?, PathNode.lineage, Path.node, Path.rootType, Path.place, rootType]

end Place

namespace Path

variable (path : Path)

@[simp] theorem rootType_node : path.node.rootType = path.rootType :=
  path.place.rootType_node?

@[simp] theorem segments_node : path.node.segments = path.segments :=
  path.place.segments_node?

@[simp] theorem type_node : path.node.type = path.type := PathNode.type_under ..

@[simp] theorem collection_node : path.node.collection = path.isCollection :=
  PathNode.collection_under ..

@[simp] theorem qualified_node : path.node.qualified = path.isQualified :=
  PathNode.qualified_under ..

@[simp] theorem embedded_node : path.node.embedded = path.isEmbedded :=
  path.place.embedded_node?

@[simp] theorem depth_node : path.node.depth = path.depth := by
  rw [PathNode.depth, segments_node]
  exact length_segments path.place

@[simp] theorem leaf_node : path.node.leaf = path.leaf := by
  simp [PathNode.leaf, segments, place, Place.segments, leaf]

theorem parent?_node : path.node.parent? = path.parent?.map Path.node := by
  rw [node, PathNode.parent?_under, parent?]
  cases path.above with
  | root => rfl
  | child => rfl

theorem lineage_node : path.node.lineage = (path :: path.parents).map Path.node :=
  path.place.lineage_node?

theorem parents_node : path.node.parents = path.parents.map Path.node :=
  List.tail_eq_of_cons_eq path.lineage_node

theorem beq_node (other : Path) : (path.node == other.node) = (path == other) := by
  change (path.node.segments == other.node.segments) = (path.segments == other.segments)
  rw [segments_node, segments_node]

theorem isAncestorOf_node (other : Path) :
    path.node.isAncestorOf other.node = path.isAncestorOf other := by
  simp only [PathNode.isAncestorOf, isAncestorOf, depth_node, segments_node]

theorem deepestFirst_node (other : Path) :
    path.node.deepestFirst other.node = path.deepestFirst other := by
  rw [PathNode.deepestFirst, deepestFirst, depth_node, depth_node]

theorem shallowestFirst_node (other : Path) :
    path.node.shallowestFirst other.node = path.shallowestFirst other := by
  rw [PathNode.shallowestFirst, shallowestFirst, depth_node, depth_node]

theorem dotted_node : path.node.dotted = path.dotted := by
  rw [PathNode.dotted, dotted, segments_node]

theorem depths_upward (place : Place) :
    (parents.upward place).map Path.depth = (List.range' 1 place.depth).reverse := by
  induction place with
  | root => rfl
  | child above hop ih =>
    rw [parents.upward, List.map_cons, ih, Place.depth, List.range'_1_concat, List.reverse_concat,
      Nat.add_comm]
    rfl

private theorem stops_of_mem_upward {place : Place} {path : Path}
    (member : path ∈ parents.upward place) :
    path.rootType = place.rootType ∧ path.place.stops = place.stops.take path.depth := by
  induction place with
  | root => cases member
  | child above hop ih =>
    rcases List.mem_cons.mp member with rfl | higher
    · refine ⟨rfl, (List.take_of_length_le ?_).symm⟩
      exact Nat.le_of_eq (Place.child above hop).length_stops
    · obtain ⟨root, stops⟩ := ih higher
      refine ⟨root, ?_⟩
      have length : path.depth = min path.depth above.stops.length := by
        rw [← List.length_take, ← stops]
        exact path.place.length_stops.symm
      have short : path.depth ≤ above.stops.length := by omega
      rw [stops, Place.stops, List.take_append_of_le_length short]

end Path

/-- The path that is kept tells a walk from a root, of properties and of the types that they lead to;
its lineage has one path for each depth, which tells so much of the walk. -/
structure PathNode.Follows (root : EntityType) (walk : List (String × EntityType))
    (node : PathNode) : Prop where
  rootType : node.rootType = root
  segments : node.segments = walk.map Prod.fst
  type : walk.getLast?.map Prod.snd = some node.type
  depths : node.lineage.map PathNode.depth = (List.range' 1 walk.length).reverse
  ancestors : ∀ above ∈ node.lineage, above.rootType = root ∧
    above.segments = (walk.take above.depth).map Prod.fst ∧
    (walk.take above.depth).getLast?.map Prod.snd = some above.type

theorem Path.follows_node (path : Path) : path.node.Follows path.rootType path.place.stops where
  rootType := path.rootType_node
  segments := path.segments_node.trans path.place.map_fst_stops.symm
  type := by simp [place, Place.stops, type]
  depths := by
    rw [lineage_node, List.map_map, Place.length_stops, ← depths_upward]
    exact List.map_congr_left fun above _ => above.depth_node
  ancestors above member := by
    rw [lineage_node] at member
    obtain ⟨higher, present, rfl⟩ := List.mem_map.mp member
    have inside : higher ∈ parents.upward path.place := present
    obtain ⟨root, stops⟩ := stops_of_mem_upward inside
    rw [depth_node, ← stops, Place.map_fst_stops]
    refine ⟨higher.rootType_node.trans root, higher.segments_node, ?_⟩
    simp [place, Place.stops, type]

end WritePlan
