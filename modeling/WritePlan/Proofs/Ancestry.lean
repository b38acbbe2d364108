import WritePlan.Proofs.LeafProperties
import WritePlan.Proofs.Offers

/-! Ancestry of paths. A path keeps it twice, as the chain of the paths that enclose it and as the
names along the way, and its depth is the number of names. The paths that schemas give out keep the
same in both forms, so that ancestors can be told from names alone, and come in the order of depth. -/
namespace WritePlan

namespace PathNode

variable {node other above : PathNode}

theorem beq_iff_segments : (node == other) = true ↔ node.segments = other.segments := by
  change (node.segments == other.segments) = true ↔ _
  exact beq_iff_eq

theorem isAncestorOf_iff : node.isAncestorOf other = true ↔
    node.depth < other.depth ∧ node.segments <+: other.segments := by
  rw [isAncestorOf, Bool.and_eq_true, decide_eq_true_iff, List.isPrefixOf_iff_prefix]

theorem isAncestorOf_self (node : PathNode) : node.isAncestorOf node = false := by
  rw [isAncestorOf, decide_eq_false (Nat.lt_irrefl _), Bool.false_and]

theorem isAncestorOf_trans (higher : above.isAncestorOf other = true)
    (lower : other.isAncestorOf node = true) : above.isAncestorOf node = true := by
  obtain ⟨shorter, starts⟩ := isAncestorOf_iff.mp higher
  obtain ⟨longer, goesOn⟩ := isAncestorOf_iff.mp lower
  exact isAncestorOf_iff.mpr ⟨shorter.trans longer, starts.trans goesOn⟩

theorem isAncestorOf_of_beq (same : (other == node) = true) (third : PathNode) :
    other.isAncestorOf third = node.isAncestorOf third ∧
      third.isAncestorOf other = third.isAncestorOf node := by
  have names := beq_iff_segments.mp same
  have deep : other.depth = node.depth := congrArg List.length names
  constructor
  · rw [isAncestorOf, isAncestorOf, deep, names]
  · rw [isAncestorOf, isAncestorOf, deep, names]

theorem isAncestorOf_total (first : above.isAncestorOf node = true)
    (second : other.isAncestorOf node = true) :
    above.isAncestorOf other = true ∨ (above == other) = true ∨ other.isAncestorOf above = true := by
  have starts := (isAncestorOf_iff.mp first).2
  have begins := (isAncestorOf_iff.mp second).2
  rcases Nat.lt_trichotomy above.depth other.depth with shorter | same | longer
  · have within := List.prefix_of_prefix_length_le starts begins shorter.le
    exact .inl (isAncestorOf_iff.mpr ⟨shorter, within⟩)
  · have within := List.prefix_of_prefix_length_le starts begins same.le
    exact .inr (.inl (beq_iff_segments.mpr (within.eq_of_length same)))
  · have within := List.prefix_of_prefix_length_le begins starts longer.le
    exact .inr (.inr (isAncestorOf_iff.mpr ⟨longer, within⟩))

/-- A path is deleted before its ancestors and written after them. -/
theorem order_of_isAncestorOf (higher : above.isAncestorOf node = true) :
    node.deepestFirst above = .lt ∧ above.shallowestFirst node = .lt := by
  have shorter := (isAncestorOf_iff.mp higher).1
  exact ⟨Nat.compare_eq_lt.mpr shorter, Nat.compare_eq_lt.mpr shorter⟩

end PathNode

namespace Path

private theorem mem_segments_upward {place : Place} {names : List String} :
    names ∈ (parents.upward place).map segments ↔ names ≠ [] ∧ names <+: place.segments := by
  induction place with
  | root => simp [parents.upward, Place.segments]
  | child above hop ih =>
    have here : segments ⟨above, hop⟩ = above.segments ++ [hop.name] := rfl
    rw [parents.upward, List.map_cons, List.mem_cons, ih, here, Place.segments,
      List.prefix_concat_iff]
    constructor
    · intro found
      rcases found with rfl | ⟨filled, starts⟩
      · exact ⟨by simp, .inl rfl⟩
      · exact ⟨filled, .inr starts⟩
    · rintro ⟨filled, found⟩
      exact found.imp_right (And.intro filled)

theorem mem_segments_parents {path : Path} {names : List String} :
    names ∈ path.parents.map segments ↔
      names ≠ [] ∧ names <+: path.segments ∧ names ≠ path.segments := by
  have all : path.segments = path.above.segments ++ [path.hop.name] := rfl
  rw [parents, mem_segments_upward, all, List.prefix_concat_iff]
  refine and_congr_right fun _ => ⟨?_, ?_⟩
  · intro starts
    refine ⟨.inr starts, ?_⟩
    rintro rfl
    have shorter := starts.length_le
    rw [List.length_append, List.length_singleton] at shorter
    omega
  · intro ⟨starts, other⟩
    exact starts.resolve_left other

theorem embedded_iff {place : Place} :
    place.embedded = true ↔ ∃ step ∈ parents.upward place, step.hop.embedded = true := by
  induction place with
  | root => simp [Place.embedded, parents.upward]
  | child above hop ih =>
    rw [Place.embedded, Bool.or_eq_true, ih, parents.upward, List.exists_mem_cons_iff]

private theorem embedded_of_mem_upward {place : Place} {path : Path}
    (member : path ∈ parents.upward place)
    (embedded : path.isEmbedded = true) : place.embedded = true := by
  induction place with
  | root => cases member
  | child above hop ih =>
    rcases List.mem_cons.mp member with rfl | higher
    · exact embedded
    · exact Bool.or_eq_true_iff.mpr (.inr (ih higher))

end Path

namespace Schema

variable {schema : Schema} {root : EntityType} {path : Path}

private theorem Reaches.hasPath_of_mem_upward {place : Place} {owner : EntityMapping}
    (reached : schema.Reaches root place owner) {step : Path}
    (member : step ∈ Path.parents.upward place) : schema.HasPath root step := by
  induction reached with
  | root => cases member
  | child above inside found ih =>
    rcases List.mem_cons.mp member with rfl | higher
    · exact ⟨_, .child above inside found⟩
    · exact ih higher

theorem HasPath.embedded_node_iff (distinct : schema.DistinctNames)
    (has : schema.HasPath root path) :
    path.node.embedded = true ↔ ∃ step ∈ path.node.lineage, ∃ property,
      schema.lastProperty step = .ok property ∧ property.isEmbedded = true := by
  obtain ⟨owner, reached⟩ := has
  have goes : ∀ step ∈ Path.parents.upward path.place,
      (step.hop.embedded = true ↔ ∃ property, schema.lastProperty step.node = .ok property ∧
        property.isEmbedded = true) := by
    intro step member
    have own := reached.hasPath_of_mem_upward member
    obtain ⟨_, property, _, _, leads, looked⟩ := own.leafProperty_eq_ok distinct
    have embedded := (PropertyMapping.hop?_eq_some.mp leads).2.2.2.2
    rw [own.lastProperty_node, looked]
    simp [embedded]
  rw [path.embedded_node, path.lineage_node, Path.isEmbedded, Path.embedded_iff]
  constructor
  · intro ⟨step, member, embedded⟩
    exact ⟨step.node, List.mem_map_of_mem member, (goes step member).mp embedded⟩
  · intro ⟨_, member, found⟩
    obtain ⟨step, inside, rfl⟩ := List.mem_map.mp member
    exact ⟨step, inside, (goes step inside).mpr found⟩

/-- The chain of enclosing paths has one path for each depth above that of the path, from the nearest
to the one below the root; the names along them are those that begin the names along the path. The
path is embedded if a property along the way is. -/
structure Encloses (schema : Schema) (node : PathNode) : Prop where
  names : ∀ names, names ∈ node.parents.map PathNode.segments ↔
    names ≠ [] ∧ names <+: node.segments ∧ names ≠ node.segments
  depths : node.parents.map PathNode.depth = (List.range' 1 (node.depth - 1)).reverse
  rootType : ∀ above ∈ node.parents, above.rootType = node.rootType
  embedded : node.embedded = true ↔ ∃ step ∈ node.lineage, ∃ property,
    schema.lastProperty step = .ok property ∧ property.isEmbedded = true
  inherited : ∀ above ∈ node.parents, above.embedded = true → node.embedded = true

theorem HasPath.encloses (distinct : schema.DistinctNames) (has : schema.HasPath root path) :
    schema.Encloses path.node where
  names names := by
    rw [path.parents_node, List.map_map, path.segments_node, ← Path.mem_segments_parents]
    have same : PathNode.segments ∘ Path.node = Path.segments := funext Path.segments_node
    rw [same]
  depths := by
    have same : PathNode.depth ∘ Path.node = Path.depth := funext Path.depth_node
    rw [path.parents_node, List.map_map, same, path.depth_node]
    exact Path.depths_upward path.above
  rootType above member := by
    have inside : above ∈ path.node.lineage := List.mem_cons_of_mem _ member
    rw [path.rootType_node]
    exact (path.follows_node.ancestors above inside).1
  embedded := has.embedded_node_iff distinct
  inherited above member embedded := by
    rw [path.parents_node] at member
    obtain ⟨higher, present, rfl⟩ := List.mem_map.mp member
    rw [higher.embedded_node] at embedded
    have inside : higher ∈ Path.parents.upward path.place := List.mem_cons_of_mem _ present
    exact path.embedded_node.trans (Path.embedded_of_mem_upward inside embedded)

/-- A path given out is an ancestor of another one exactly if it equals one that encloses it,
whatever schemas and roots the two come from. -/
theorem isAncestorOf_iff_parents {node other : PathNode} (offered : node.Offered)
    (too : other.Offered) :
    other.isAncestorOf node = true ↔ ∃ above ∈ node.parents, (other == above) = true := by
  obtain ⟨path, rfl⟩ := offered.exists_path
  obtain ⟨higher, rfl⟩ := too.exists_path
  have encloses : (∃ above ∈ path.node.parents, (higher.node == above) = true) ↔
      higher.segments ∈ path.parents.map Path.segments := by
    rw [path.parents_node, List.mem_map]
    constructor
    · rintro ⟨_, member, same⟩
      obtain ⟨above, inside, rfl⟩ := List.mem_map.mp member
      rw [higher.beq_node, Path.beq_iff_segments] at same
      exact ⟨above, inside, same.symm⟩
    · rintro ⟨above, inside, names⟩
      refine ⟨above.node, List.mem_map_of_mem inside, ?_⟩
      rw [higher.beq_node, Path.beq_iff_segments, names]
  rw [encloses, Path.mem_segments_parents, PathNode.isAncestorOf_iff, PathNode.depth, PathNode.depth,
    higher.segments_node, path.segments_node]
  constructor
  · rintro ⟨shorter, starts⟩
    refine ⟨higher.segments_ne_nil, starts, ?_⟩
    intro same
    rw [same] at shorter
    exact Nat.lt_irrefl _ shorter
  · rintro ⟨_, starts, apart⟩
    refine ⟨?_, starts⟩
    exact starts.length_le.lt_of_ne fun same => apart (starts.eq_of_length same)

theorem Offers.eq_of_beq (distinct : schema.DistinctNames) {node other : PathNode}
    (offered : schema.Offers root node) (too : schema.Offers root other)
    (same : (node == other) = true) : node = other := by
  obtain ⟨path, has, rfl⟩ := offered.exists_path distinct
  obtain ⟨second, again, rfl⟩ := too.exists_path distinct
  rw [path.beq_node, Path.beq_iff_segments] at same
  rw [has.eq_of_segments distinct again same]

theorem Offers.of_mem_parents {node above : PathNode} (offered : schema.Offers root node)
    (member : above ∈ node.parents) : schema.Offers root above := by
  induction chain : node.parents generalizing node with
  | nil =>
    rw [chain] at member
    cases member
  | cons first rest ih =>
    rw [chain] at member
    rw [node.parents_eq] at chain
    cases parent : node.parent? with
    | none =>
      rw [parent] at chain
      cases chain
    | some enclosing =>
      rw [parent] at chain
      cases chain
      rcases List.mem_cons.mp member with rfl | higher
      · exact offered.parent parent
      · exact ih (offered.parent parent) higher rfl

private theorem Offers.offered {naming : Naming} {decls : List EntityDecl} {node : PathNode}
    (below : (ofDecls naming decls).Offers root node) : node.Offered := ⟨naming, decls, root, below⟩

/-- Both forms of ancestry agree on the paths that schemas give out. A path that any schema gives out
is an ancestor exactly if it equals an enclosing path; if schema and root are the same, then it is
one, and what lies below an embedded one is embedded. So ancestry is a strict order that does not
tell equal paths apart; it is linear above each path, and goes the way of both orders of depth. -/
theorem ancestry_of_offers (naming : Naming) (decls : List EntityDecl) {root : EntityType}
    {node : PathNode} (offered : (ofDecls naming decls).Offers root node) :
    (ofDecls naming decls).Encloses node ∧
    (∀ other, other.Offered →
      (other.isAncestorOf node = true ↔ ∃ above ∈ node.parents, (other == above) = true)) ∧
    (∀ other, (ofDecls naming decls).Offers root other →
      (other.isAncestorOf node = true ↔ other ∈ node.parents) ∧
      (other.isAncestorOf node = true → other.embedded = true → node.embedded = true)) ∧
    node.isAncestorOf node = false ∧
    (∀ above other : PathNode, above.isAncestorOf other = true → other.isAncestorOf node = true →
      above.isAncestorOf node = true) ∧
    (∀ same other : PathNode, (same == node) = true → same.isAncestorOf other = node.isAncestorOf other ∧
      other.isAncestorOf same = other.isAncestorOf node) ∧
    (∀ above other : PathNode, above.isAncestorOf node = true → other.isAncestorOf node = true →
      above.isAncestorOf other = true ∨ (above == other) = true ∨
        other.isAncestorOf above = true) ∧
    ∀ above : PathNode, above.isAncestorOf node = true →
      node.deepestFirst above = .lt ∧ above.shallowestFirst node = .lt := by
  have distinct := distinctNames_ofDecls naming decls
  have encloses : (ofDecls naming decls).Encloses node := by
    obtain ⟨path, has, rfl⟩ := offered.exists_path distinct
    exact has.encloses distinct
  refine ⟨encloses, fun other too => isAncestorOf_iff_parents offered.offered too, ?_,
    node.isAncestorOf_self, fun _ _ => PathNode.isAncestorOf_trans,
    fun _ other same => PathNode.isAncestorOf_of_beq same other,
    fun _ _ => PathNode.isAncestorOf_total, fun _ => PathNode.order_of_isAncestorOf⟩
  intro other too
  have member : other.isAncestorOf node = true ↔ other ∈ node.parents := by
    rw [isAncestorOf_iff_parents offered.offered too.offered]
    constructor
    · intro ⟨above, inside, same⟩
      exact too.eq_of_beq distinct (offered.of_mem_parents inside) same ▸ inside
    · intro inside
      exact ⟨other, inside, PathNode.beq_iff_segments.mpr rfl⟩
  exact ⟨member, fun higher => encloses.inherited other (member.mp higher)⟩

/-- Notes on the lines of an order, and the lines of a cart. -/
private def ordering : List EntityDecl :=
  [⟨⟨"order"⟩, none, [.plain "line" (.collection ⟨"order_line"⟩ .list)]⟩,
    ⟨⟨"cart"⟩, none, [.plain "line" (.embedded ⟨"order_line"⟩ none)]⟩,
    ⟨⟨"order_line"⟩, none, [.plain "note" (.embedded ⟨"note"⟩ none)]⟩, ⟨⟨"note"⟩, none, []⟩]

private def orderLine : Hop := ⟨"line", ⟨"order_line"⟩, true, true, false⟩

private def cartLine : PathNode := .ofRoot ⟨"cart"⟩ ⟨"line", ⟨"order_line"⟩, false, false, true⟩

private def lineNote : PathNode :=
  (PathNode.ofRoot ⟨"order"⟩ orderLine).child ⟨"note", ⟨"note"⟩, false, false, true⟩

/-- The line of a cart equals the line of an order, which encloses its note, although they are two
paths of which one is embedded. -/
theorem lineNote_ancestry :
    (ofDecls .snake ordering).Offers ⟨"order"⟩ lineNote ∧
    (ofDecls .snake ordering).Offers ⟨"cart"⟩ cartLine ∧
    cartLine.isAncestorOf lineNote = true ∧
    (∃ above ∈ lineNote.parents, (cartLine == above) = true ∧ above.embedded = false) ∧
    ∃ step ∈ lineNote.lineage, ∃ property,
      (ofDecls .snake ordering).lastProperty step = .ok property ∧ property.isEmbedded = true := by
  have offered : (ofDecls .snake ordering).Offers ⟨"order"⟩ lineNote :=
    .located (show (ofDecls .snake ordering).locate ⟨"order"⟩ "line.note" = .ok lineNote from rfl)
  have other : (ofDecls .snake ordering).Offers ⟨"cart"⟩ cartLine :=
    .located (show (ofDecls .snake ordering).locate ⟨"cart"⟩ "line" = .ok cartLine from rfl)
  obtain ⟨encloses, coincide, _⟩ := ancestry_of_offers .snake ordering offered
  obtain ⟨above, member, same⟩ := (coincide cartLine other.offered).mp rfl
  refine ⟨offered, other, rfl, ⟨above, member, same, ?_⟩, encloses.embedded.mp rfl⟩
  obtain rfl := List.mem_singleton.mp member
  rfl

end Schema

end WritePlan
