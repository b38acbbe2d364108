import WritePlan.Locating
import WritePlan.Proofs.Lineages
import WritePlan.Proofs.Walks
import Mathlib.Data.List.Induction

/-! Reading expressions: which are read, to what path, and what is said of those that are not. An
expression is read if its segments tell a walk through registered types; else the answer is about
the first segment that leads no further. -/
namespace WritePlan

theorem EntityMapping.requireProperty_eq_error {mapping : EntityMapping} {name : String}
    {fault : Error} :
    mapping.requireProperty name = .error fault ↔
      (∀ property ∈ mapping.properties, property.name ≠ name) ∧
        fault = .unknownProperty mapping.type name := by
  have absent : mapping.property? name = none ↔
      ∀ property ∈ mapping.properties, property.name ≠ name := by
    simp [property?]
  rw [← absent, requireProperty]
  cases mapping.property? name with
  | none => simp [eq_comm]
  | some property => simp

theorem EntityMapping.property_of_mem_hops {mapping : EntityMapping} {hop : Hop}
    (member : hop ∈ mapping.hops) :
    ∃ property ∈ mapping.properties, property.name = hop.name ∧
      property.target? = some hop.target := by
  obtain ⟨property, present, step⟩ := mem_hops.mp member
  obtain ⟨type, leads, rfl⟩ := Option.map_eq_some_iff.mp step
  exact ⟨property, present, rfl, leads⟩

theorem EntityMapping.hop_of_target? {mapping : EntityMapping} {property : PropertyMapping}
    {type : EntityType} (member : property ∈ mapping.properties)
    (leads : property.target? = some type) :
    ∃ hop ∈ mapping.hops, hop.name = property.name ∧ hop.target = type := by
  refine ⟨_, mem_hops.mpr ⟨property, member, Option.map_eq_some_iff.mpr ⟨type, leads, rfl⟩⟩, rfl, rfl⟩

namespace Schema

variable {schema : Schema} {root : EntityType} {expression : String}

theorem require_eq_error {type : EntityType} {fault : Error} :
    schema.require type = .error fault ↔
      schema.mapping? type = none ∧ fault = .unknownEntity type := by
  rw [require]
  cases schema.mapping? type with
  | none => simp [eq_comm]
  | some mapping => simp

/-- From a registered root, properties of these names lead to entities of these types, all of them
registered; the mapping is that of the last type. -/
inductive Visits (schema : Schema) (root : EntityType) :
    List (String × EntityType) → EntityMapping → Prop
  | start {owner : EntityMapping} (found : schema.mapping? root = some owner) :
    Visits schema root [] owner
  | onward {walk : List (String × EntityType)} {owner target : EntityMapping}
    {property : PropertyMapping} {type : EntityType} (before : Visits schema root walk owner)
    (member : property ∈ owner.properties) (leads : property.target? = some type)
    (found : schema.mapping? type = some target) :
    Visits schema root (walk ++ [(property.name, type)]) target

theorem Reaches.visits {place : Place} {owner : EntityMapping}
    (reached : schema.Reaches root place owner) : schema.Visits root place.stops owner := by
  induction reached with
  | root found => exact .start found
  | child above member found ih =>
    obtain ⟨property, present, named, leads⟩ := EntityMapping.property_of_mem_hops member
    have onward := Visits.onward ih present leads found
    rwa [named] at onward

theorem Visits.exists_reaches {walk : List (String × EntityType)} {owner : EntityMapping}
    (visits : schema.Visits root walk owner) :
    ∃ place, schema.Reaches root place owner ∧ place.stops = walk := by
  induction visits with
  | start found => exact ⟨.root root, .root found, rfl⟩
  | @onward walk owner target property type before member leads found ih =>
    obtain ⟨place, reached, rfl⟩ := ih
    obtain ⟨hop, inside, named, rfl⟩ := EntityMapping.hop_of_target? member leads
    rw [← named]
    exact ⟨.child place hop, .child reached inside found, rfl⟩

/-- Why a segment leads no further from a type. -/
inductive SegmentFault (schema : Schema) (expression : String) (owner : EntityMapping) :
    String → Error → Prop
  | empty : SegmentFault schema expression owner "" (.invalidPath (.emptySegment expression))
  | unknown {segment : String} (filled : segment ≠ "")
    (missing : ∀ property ∈ owner.properties, property.name ≠ segment) :
    SegmentFault schema expression owner segment (.unknownProperty owner.type segment)
  | simple {property : PropertyMapping} (filled : property.name ≠ "")
    (member : property ∈ owner.properties) (ends : property.target? = none) :
    SegmentFault schema expression owner property.name
      (.notTraversable owner.type property.name expression)
  | dangling {property : PropertyMapping} {type : EntityType} (filled : property.name ≠ "")
    (member : property ∈ owner.properties) (leads : property.target? = some type)
    (missing : schema.mapping? type = none) :
    SegmentFault schema expression owner property.name (.unknownEntity type)

variable {cursor next : Cursor} {segment : String} {fault : Error}

theorem advance_eq_ok (distinct : cursor.owner.DistinctNames) :
    schema.advance root expression cursor segment = .ok next ↔
      segment ≠ "" ∧ ∃ hop ∈ cursor.owner.hops, hop.name = segment ∧
        schema.mapping? hop.target = some next.owner ∧
        next.path? = some (.under root cursor.path? hop) := by
  constructor
  · intro advanced
    obtain ⟨hop, named, later⟩ := bind_eq_ok.mp advanced
    obtain ⟨target, found, made⟩ := bind_eq_ok.mp later
    cases made
    obtain ⟨filled, member, same⟩ := (hopNamed_eq_ok distinct).mp named
    exact ⟨filled, hop, member, same, require_eq_ok.mp found, rfl⟩
  · intro ⟨filled, hop, member, same, found, path⟩
    have named : hopNamed cursor.owner expression segment = .ok hop :=
      (hopNamed_eq_ok distinct).mpr ⟨filled, member, same⟩
    refine bind_eq_ok.mpr ⟨hop, named, bind_eq_ok.mpr ⟨_, require_eq_ok.mpr found, ?_⟩⟩
    rw [← path]
    rfl

theorem hopNamed_eq_error {owner : EntityMapping} (distinct : owner.DistinctNames) :
    hopNamed owner expression segment = .error fault ↔
      segment = "" ∧ fault = .invalidPath (.emptySegment expression) ∨
      segment ≠ "" ∧ owner.requireProperty segment = .error fault ∨
      segment ≠ "" ∧ ∃ property ∈ owner.properties, property.name = segment ∧
        property.target? = none ∧ fault = .notTraversable owner.type segment expression := by
  unfold hopNamed
  by_cases empty : segment = ""
  · rw [if_pos empty]
    constructor
    · intro failed
      cases failed
      exact .inl ⟨empty, rfl⟩
    · intro failed
      rcases failed with ⟨_, rfl⟩ | ⟨filled, _⟩ | ⟨filled, _⟩
      · rfl
      · exact absurd empty filled
      · exact absurd empty filled
  · rw [if_neg empty]
    change (owner.requireProperty segment >>= _) = _ ↔ _
    rw [bind_eq_error]
    simp only [empty, false_and, ne_eq, not_false_eq_true, true_and, false_or]
    refine or_congr_right ⟨?_, ?_⟩
    · intro ⟨property, found, fails⟩
      obtain ⟨member, same⟩ := (EntityMapping.requireProperty_eq_ok distinct).mp found
      refine ⟨property, member, same, ?_⟩
      cases step : property.hop? with
      | none =>
        rw [step] at fails
        cases fails
        exact ⟨Option.map_eq_none_iff.mp step, rfl⟩
      | some hop =>
        rw [step] at fails
        cases fails
    · intro ⟨property, member, same, ends, own⟩
      refine ⟨property, (EntityMapping.requireProperty_eq_ok distinct).mpr ⟨member, same⟩, ?_⟩
      rw [PropertyMapping.hop?, ends, own]
      rfl

theorem advance_eq_error (distinct : cursor.owner.DistinctNames) :
    schema.advance root expression cursor segment = .error fault ↔
      SegmentFault schema expression cursor.owner segment fault := by
  rw [advance, bind_eq_error, hopNamed_eq_error distinct]
  constructor
  · intro failed
    rcases failed with (⟨rfl, rfl⟩ | ⟨filled, missing⟩ | ⟨filled, property, member, rfl, ends, rfl⟩) |
      ⟨hop, named, later⟩
    · exact .empty
    · obtain ⟨absent, rfl⟩ := EntityMapping.requireProperty_eq_error.mp missing
      exact .unknown filled absent
    · exact .simple filled member ends
    · obtain ⟨filled, member, rfl⟩ := (hopNamed_eq_ok distinct).mp named
      obtain ⟨property, present, named, leads⟩ := EntityMapping.property_of_mem_hops member
      rcases bind_eq_error.mp later with unknown | ⟨_, _, made⟩
      · obtain ⟨missing, rfl⟩ := require_eq_error.mp unknown
        rw [← named] at filled ⊢
        exact .dangling filled present leads missing
      · cases made
  · intro blamed
    cases blamed with
    | empty => exact .inl (.inl ⟨rfl, rfl⟩)
    | unknown filled missing =>
      exact .inl (.inr (.inl ⟨filled, EntityMapping.requireProperty_eq_error.mpr ⟨missing, rfl⟩⟩))
    | simple filled member ends => exact .inl (.inr (.inr ⟨filled, _, member, rfl, ends, rfl⟩))
    | dangling filled member leads missing =>
      obtain ⟨hop, inside, named, rfl⟩ := EntityMapping.hop_of_target? member leads
      refine .inr ⟨hop, (hopNamed_eq_ok distinct).mpr ⟨filled, inside, named⟩, ?_⟩
      exact bind_eq_error.mpr (.inl (require_eq_error.mpr ⟨missing, rfl⟩))

/-- Reading names comes to the place to which they lead, with the path that is kept for it. -/
private theorem foldlM_advance_eq_ok (distinct : schema.DistinctNames) {start : EntityMapping}
    (found : schema.mapping? root = some start) {names : List String} {cursor : Cursor} :
    names.foldlM (schema.advance root expression) ⟨start, none⟩ = .ok cursor ↔
      (∀ name ∈ names, name ≠ "") ∧ ∃ place, schema.Reaches root place cursor.owner ∧
        place.segments = names ∧ cursor.path? = place.node? := by
  -- From the end: the last name is read where the names before it have led.
  induction names using List.reverseRecOn generalizing cursor with
  | nil =>
    constructor
    · intro read
      cases read
      exact ⟨by simp, .root root, .root found, rfl, rfl⟩
    · rintro ⟨_, place, reached, names, path⟩
      cases reached with
      | root again =>
        cases Option.some.inj (found.symm.trans again)
        cases cursor
        cases path
        rfl
      | child => simp [Place.segments] at names
  | append_singleton names name ih =>
    rw [List.foldlM_append, bind_eq_ok]
    constructor
    · rintro ⟨middle, before, last⟩
      obtain ⟨filled, place, reached, rfl, path⟩ := ih.mp before
      rw [List.foldlM_cons, bind_eq_ok] at last
      obtain ⟨_, advanced, same⟩ := last
      cases same
      obtain ⟨named, hop, member, rfl, target, next⟩ :=
        (advance_eq_ok (distinct _ reached.mem_mappings)).mp advanced
      refine ⟨?_, .child place hop, .child reached member target, rfl, ?_⟩
      · exact List.forall_mem_append.mpr ⟨filled, by simpa using named⟩
      · rw [next, path, Place.node?, reached.rootType_eq]
    · rintro ⟨filled, place, reached, names, path⟩
      obtain ⟨before, named⟩ := List.forall_mem_append.mp filled
      cases reached with
      | root => simp [Place.segments] at names
      | @child above owner target hop reached member found =>
        obtain ⟨rfl, same⟩ := List.append_inj' names rfl
        refine ⟨⟨owner, above.node?⟩, ih.mpr ⟨before, above, reached, rfl, rfl⟩, ?_⟩
        rw [List.foldlM_cons, bind_eq_ok]
        refine ⟨cursor, (advance_eq_ok (distinct _ reached.mem_mappings)).mpr ?_, rfl⟩
        refine ⟨named name (by simp), hop, member, List.singleton_inj.mp same, found, ?_⟩
        rw [path, Place.node?, reached.rootType_eq]

private theorem locate_of_blank (blank : Text.allBlank expression.toList = true) :
    schema.locate root expression = .error (.invalidPath (.blank root)) := by
  simp only [locate, blank, if_pos]
  rfl

private theorem locate_of_filled (filled : Text.allBlank expression.toList = false) :
    schema.locate root expression =
      schema.require root >>= fun start =>
        (segmentsOf expression).foldlM (schema.advance root expression) ⟨start, none⟩ >>= fun cursor =>
          cursor.finish expression := by
  simp only [locate, filled]
  rfl

theorem locate_eq_ok (distinct : schema.DistinctNames) {node : PathNode} :
    schema.locate root expression = .ok node ↔
      Text.allBlank expression.toList = false ∧ (∀ name ∈ segmentsOf expression, name ≠ "") ∧
        ∃ path, schema.HasPath root path ∧ path.segments = segmentsOf expression ∧
          node = path.node := by
  cases blank : Text.allBlank expression.toList with
  | true => simp [locate_of_blank blank]
  | false =>
    rw [locate_of_filled blank, bind_eq_ok]
    constructor
    · intro ⟨start, found, later⟩
      obtain ⟨cursor, read, made⟩ := bind_eq_ok.mp later
      obtain ⟨filled, place, reached, names, path⟩ :=
        (foldlM_advance_eq_ok distinct (require_eq_ok.mp found)).mp read
      refine ⟨rfl, filled, ?_⟩
      cases place with
      | root => cases names
      | child above hop =>
        rw [Cursor.finish, path] at made
        cases made
        exact ⟨⟨above, hop⟩, ⟨_, reached⟩, names, rfl⟩
    · intro ⟨_, filled, path, has, names, same⟩
      obtain ⟨owner, reached⟩ := has
      obtain ⟨start, found⟩ := reached.registered
      refine ⟨start, require_eq_ok.mpr found, bind_eq_ok.mpr ⟨⟨owner, path.place.node?⟩, ?_, ?_⟩⟩
      · exact (foldlM_advance_eq_ok distinct found).mpr ⟨filled, path.place, reached, names, rfl⟩
      · rw [same]
        rfl

theorem segmentsOf_eq_splitOn (expression : String) :
    segmentsOf expression = (expression.toList.splitOn '.').map String.ofList := by
  rw [segmentsOf, ← List.map_cons, splitDots_eq_splitOn]

theorem intercalate_segmentsOf (expression : String) :
    ".".intercalate (segmentsOf expression) = expression := by
  apply String.toList_inj.mp
  have parts : (segmentsOf expression).map String.toList =
      (splitDots expression.toList).1 :: (splitDots expression.toList).2 := by
    simp [segmentsOf, Function.comp_def]
  rw [String.toList_intercalate, parts]
  exact intercalate_splitDots expression.toList

/-- Why an expression is not read: it is blank, or its root is not registered, or there is a first
segment that leads no further, after a walk along the segments before it. -/
inductive Refuses (schema : Schema) (root : EntityType) (expression : String) : Error → Prop
  | blank (blank : Text.allBlank expression.toList = true) :
    Refuses schema root expression (.invalidPath (.blank root))
  | unregistered (filled : Text.allBlank expression.toList = false)
    (missing : schema.mapping? root = none) : Refuses schema root expression (.unknownEntity root)
  | segment {walk : List (String × EntityType)} {owner : EntityMapping} {segment : String}
    {rest : List String} {fault : Error} (filled : Text.allBlank expression.toList = false)
    (split : (expression.toList.splitOn '.').map String.ofList =
      walk.map Prod.fst ++ segment :: rest)
    (named : ∀ name ∈ walk.map Prod.fst, name ≠ "") (visits : schema.Visits root walk owner)
    (blamed : SegmentFault schema expression owner segment fault) :
    Refuses schema root expression fault

theorem locate_eq_error (distinct : schema.DistinctNames) :
    schema.locate root expression = .error fault ↔ schema.Refuses root expression fault := by
  constructor
  · intro failed
    cases blank : Text.allBlank expression.toList with
    | true =>
      rw [locate_of_blank blank] at failed
      cases failed
      exact .blank blank
    | false =>
      rw [locate_of_filled blank] at failed
      rcases bind_eq_error.mp failed with unknown | ⟨start, found, later⟩
      · obtain ⟨missing, rfl⟩ := require_eq_error.mp unknown
        exact .unregistered blank missing
      · have registered := require_eq_ok.mp found
        rcases bind_eq_error.mp later with stopped | ⟨cursor, read, unread⟩
        · obtain ⟨front, segment, rest, middle, split, before, fails⟩ := foldlM_eq_error.mp stopped
          obtain ⟨named, place, reached, rfl, _⟩ :=
            (foldlM_advance_eq_ok distinct registered).mp before
          rw [segmentsOf_eq_splitOn, ← Place.map_fst_stops] at split
          rw [← Place.map_fst_stops] at named
          exact .segment blank split named reached.visits
            ((advance_eq_error (distinct _ reached.mem_mappings)).mp fails)
        · -- At least one segment has been read, so that there is a path.
          obtain ⟨_, place, _, names, path⟩ := (foldlM_advance_eq_ok distinct registered).mp read
          cases place with
          | root => cases names
          | child =>
            rw [Cursor.finish, path] at unread
            cases unread
  · intro refused
    cases refused with
    | blank blank => exact locate_of_blank blank
    | unregistered filled missing =>
      rw [locate_of_filled filled, require_eq_error.mpr ⟨missing, rfl⟩]
      rfl
    | @segment walk owner _ _ _ filled split named visits blamed =>
      obtain ⟨place, reached, rfl⟩ := visits.exists_reaches
      obtain ⟨start, registered⟩ := reached.registered
      rw [← segmentsOf_eq_splitOn, Place.map_fst_stops] at split
      rw [Place.map_fst_stops] at named
      have before : place.segments.foldlM (schema.advance root expression) ⟨start, none⟩ =
          .ok ⟨owner, place.node?⟩ :=
        (foldlM_advance_eq_ok distinct registered).mpr ⟨named, place, reached, rfl, rfl⟩
      have stopped := foldlM_eq_error.mpr ⟨_, _, _, _, split, before,
        (advance_eq_error (distinct _ reached.mem_mappings)).mpr blamed⟩
      rw [locate_of_filled filled]
      exact bind_eq_error.mpr
        (.inr ⟨start, require_eq_ok.mpr registered, bind_eq_error.mpr (.inl stopped)⟩)

private theorem foldlM_advance_eq_follow {place : Place} (rooted : place.rootType = root)
    (owner : EntityMapping) (segment : String) (others : List String) :
    ((segment :: others).foldlM (schema.advance root expression) ⟨owner, place.node?⟩ >>=
        fun cursor => cursor.finish expression) =
      (schema.follow expression place owner segment others).map Path.node := by
  induction others generalizing place owner segment with
  | nil =>
    rw [List.foldlM_cons, advance, follow]
    cases hopNamed owner expression segment with
    | error fault => rfl
    | ok hop =>
      change ((schema.require hop.target >>= _) >>= _ >>= _) = (schema.require hop.target >>= _).map _
      cases schema.require hop.target with
      | error fault => rfl
      | ok target =>
        rw [← rooted]
        rfl
  | cons next others ih =>
    rw [List.foldlM_cons, advance, follow]
    cases hopNamed owner expression segment with
    | error fault => rfl
    | ok hop =>
      change ((schema.require hop.target >>= _) >>= _ >>= _) = (schema.require hop.target >>= _).map _
      cases schema.require hop.target with
      | error fault => rfl
      | ok target =>
        subst rooted
        have further := @ih (.child place hop) rfl target next
        exact further

/-- A path is located as it is resolved. -/
theorem locate_eq_resolve : schema.locate root expression =
    (schema.resolve root expression).map Path.node := by
  cases blank : Text.allBlank expression.toList with
  | true =>
    rw [locate_of_blank blank, resolve_of_blank blank]
    rfl
  | false =>
    rw [locate_of_filled blank, resolve_of_filled blank]
    cases schema.require root with
    | error fault => rfl
    | ok owner =>
      have further := @foldlM_advance_eq_follow schema root expression (.root root) rfl owner
      exact further _ _

/-- What reading an expression answers, for every schema that was built from declarations. It comes
to a path exactly if the expression is not blank and the texts between its dots are names of
properties that lead from the root through registered types. The path then tells this walk, and so
does each enclosing path of so much of it. Otherwise the answer is about blanks, about the root, or
about the first segment that leads no further; it is never that nothing was read. -/
theorem locate_answers (naming : Naming) (decls : List EntityDecl) (root : EntityType)
    (expression : String) :
    let schema := ofDecls naming decls
    let names := (expression.toList.splitOn '.').map String.ofList
    ((∃ node, schema.locate root expression = .ok node) ↔
      Text.allBlank expression.toList = false ∧ (∀ name ∈ names, name ≠ "") ∧
        ∃ walk owner, schema.Visits root walk owner ∧ walk.map Prod.fst = names) ∧
    (∀ node, schema.locate root expression = .ok node →
      node.dotted = expression ∧ ∃ walk owner, schema.Visits root walk owner ∧
        walk.map Prod.fst = names ∧ node.Follows root walk) ∧
    (∀ fault, schema.locate root expression = .error fault ↔
      schema.Refuses root expression fault) ∧
    (∀ text, schema.locate root expression ≠ .error (.invalidPath (.unread text))) ∧
    schema.locate root expression = (schema.resolve root expression).map Path.node := by
  intro schema names
  have distinct : schema.DistinctNames := distinctNames_ofDecls naming decls
  have same : segmentsOf expression = names := segmentsOf_eq_splitOn expression
  refine ⟨⟨?_, ?_⟩, ?_, fun fault => locate_eq_error distinct, ?_, locate_eq_resolve⟩
  · intro ⟨node, located⟩
    obtain ⟨visible, filled, path, ⟨owner, reached⟩, segments, _⟩ := (locate_eq_ok distinct).mp located
    refine ⟨visible, same ▸ filled, path.place.stops, owner, reached.visits, ?_⟩
    rw [Place.map_fst_stops, ← same]
    exact segments
  · intro ⟨visible, filled, walk, owner, visits, named⟩
    obtain ⟨place, reached, rfl⟩ := visits.exists_reaches
    rw [Place.map_fst_stops, ← same] at named
    cases place with
    | root => cases named
    | child above hop =>
      exact ⟨_, (locate_eq_ok distinct).mpr
        ⟨visible, same ▸ filled, ⟨above, hop⟩, ⟨owner, reached⟩, named, rfl⟩⟩
  · intro node located
    obtain ⟨_, _, path, ⟨owner, reached⟩, segments, rfl⟩ := (locate_eq_ok distinct).mp located
    refine ⟨?_, path.place.stops, owner, reached.visits, ?_, ?_⟩
    · rw [path.dotted_node, Path.dotted, segments, intercalate_segmentsOf]
    · rw [Place.map_fst_stops, ← same]
      exact segments
    · exact reached.rootType_eq ▸ path.follows_node
  · intro text unread
    cases (locate_eq_error distinct).mp unread with
    | segment _ _ _ _ blamed => cases blamed

end Schema

end WritePlan
