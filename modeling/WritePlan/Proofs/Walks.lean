import WritePlan.Proofs.Registration

/-! Walks through a schema: the places that are reached from a root by one property after the other,
all of them leading to registered types. Resolving an expression takes such a walk, and every walk
is taken by resolving the names along it. -/
namespace WritePlan

namespace EntityMapping

variable {mapping : EntityMapping}

private theorem property?_of_mem (distinct : mapping.DistinctNames) {property : PropertyMapping}
    (member : property ∈ mapping.properties) : mapping.property? property.name = some property := by
  rw [property?, List.find?_eq_some_iff_append]
  obtain ⟨front, rest, same⟩ := List.append_of_mem member
  refine ⟨beq_self_eq_true _, front, rest, same, ?_⟩
  intro other earlier
  have apart := distinct
  rw [DistinctNames, same, List.map_append, List.nodup_append] at apart
  have different := apart.2.2 other.name (List.mem_map_of_mem earlier) property.name (by simp)
  simpa using different

theorem requireProperty_eq_ok (distinct : mapping.DistinctNames) {name : String}
    {property : PropertyMapping} :
    mapping.requireProperty name = .ok property ↔
      property ∈ mapping.properties ∧ property.name = name := by
  constructor
  · intro required
    cases found : mapping.property? name with
    | none =>
      rw [requireProperty, found] at required
      cases required
    | some other =>
      rw [requireProperty, found] at required
      cases required
      have same := List.find?_some found
      exact ⟨List.mem_of_find?_eq_some found, beq_iff_eq.mp same⟩
  · intro ⟨member, same⟩
    subst same
    rw [requireProperty, property?_of_mem distinct member]

theorem mem_hops {hop : Hop} :
    hop ∈ mapping.hops ↔ ∃ property ∈ mapping.properties, property.hop? = some hop :=
  List.mem_filterMap

theorem name_of_hop? {property : PropertyMapping} {hop : Hop} (leads : property.hop? = some hop) :
    hop.name = property.name := by
  obtain ⟨target, _, rfl⟩ := Option.map_eq_some_iff.mp leads
  rfl

theorem hops_nodup (distinct : mapping.DistinctNames) : (mapping.hops.map Hop.name).Nodup := by
  refine distinct.sublist ?_
  unfold hops
  induction mapping.properties with
  | nil => exact .slnil
  | cons property rest ih =>
    cases leads : property.hop? with
    | none =>
      rw [List.filterMap_cons_none leads, List.map_cons]
      exact ih.cons _
    | some hop =>
      rw [List.filterMap_cons_some leads, List.map_cons, List.map_cons, name_of_hop? leads]
      exact ih.cons_cons _

end EntityMapping

namespace Schema

variable {schema : Schema} {root : EntityType} {expression : String}

theorem require_eq_ok {type : EntityType} {mapping : EntityMapping} :
    schema.require type = .ok mapping ↔ schema.mapping? type = some mapping := by
  unfold require
  cases schema.mapping? type with
  | none => simp
  | some found => simp

/-- A segment names the step to a nested entity that has this name. -/
theorem hopNamed_eq_ok {owner : EntityMapping} {segment : String} {hop : Hop}
    (distinct : owner.DistinctNames) :
    hopNamed owner expression segment = .ok hop ↔
      segment ≠ "" ∧ hop ∈ owner.hops ∧ hop.name = segment := by
  unfold hopNamed
  constructor
  · intro named
    split at named
    · cases named
    · rename_i filled
      obtain ⟨property, found, leads⟩ := bind_eq_ok.mp named
      obtain ⟨member, same⟩ := (EntityMapping.requireProperty_eq_ok distinct).mp found
      cases step : property.hop? with
      | none =>
        rw [step] at leads
        cases leads
      | some next =>
        rw [step] at leads
        cases leads
        exact ⟨filled, EntityMapping.mem_hops.mpr ⟨property, member, step⟩,
          (EntityMapping.name_of_hop? step).trans same⟩
  · intro ⟨filled, member, same⟩
    obtain ⟨property, present, step⟩ := EntityMapping.mem_hops.mp member
    have named : property.name = segment := (EntityMapping.name_of_hop? step).symm.trans same
    have found := (EntityMapping.requireProperty_eq_ok distinct).mpr ⟨present, named⟩
    rw [if_neg filled]
    refine bind_eq_ok.mpr ⟨property, found, ?_⟩
    rw [step]
    rfl

/-- The places that are reached from a registered root by properties that lead to registered types,
with the mappings of the types there. -/
inductive Reaches (schema : Schema) (root : EntityType) : Place → EntityMapping → Prop
  | root {owner : EntityMapping} (found : schema.mapping? root = some owner) :
    Reaches schema root (.root root) owner
  | child {place : Place} {owner target : EntityMapping} {hop : Hop}
    (above : Reaches schema root place owner) (member : hop ∈ owner.hops)
    (found : schema.mapping? hop.target = some target) :
    Reaches schema root (.child place hop) target

namespace Reaches

variable {place : Place} {owner : EntityMapping}

theorem mapping?_type (reached : schema.Reaches root place owner) :
    schema.mapping? place.type = some owner := by
  cases reached with
  | root found => exact found
  | child _ _ found => exact found

theorem mem_mappings (reached : schema.Reaches root place owner) : owner ∈ schema.mappings :=
  (mem_of_mapping? reached.mapping?_type).1

theorem parent {hop : Hop} (reached : schema.Reaches root (.child place hop) owner) :
    ∃ above, schema.Reaches root place above ∧ hop ∈ above.hops := by
  cases reached with
  | child above member _ => exact ⟨_, above, member⟩

theorem rootType_eq (reached : schema.Reaches root place owner) : place.rootType = root := by
  induction reached with
  | root => rfl
  | child _ _ _ ih => exact ih

theorem registered (reached : schema.Reaches root place owner) :
    ∃ start, schema.mapping? root = some start := by
  induction reached with
  | root found => exact ⟨_, found⟩
  | child _ _ _ ih => exact ih

/-- The property names tell the places below a root apart. -/
theorem eq_of_segments (distinct : schema.DistinctNames) {other : Place} {mapping : EntityMapping}
    (reached : schema.Reaches root place owner) (again : schema.Reaches root other mapping)
    (same : place.segments = other.segments) : place = other := by
  induction reached generalizing other mapping with
  | root =>
    cases again with
    | root => rfl
    | child => simp [Place.segments] at same
  | @child place owner target hop above member found ih =>
    cases again with
    | root => simp [Place.segments] at same
    | @child there _ _ step before inside _ =>
      obtain ⟨front, last⟩ := List.append_inj' same rfl
      -- Both last steps leave one place, whose type has one step of that name.
      obtain rfl := ih before front
      have one := above.mapping?_type.symm.trans before.mapping?_type
      obtain rfl := Option.some.inj one
      have names := EntityMapping.hops_nodup (distinct _ above.mem_mappings)
      obtain rfl := List.inj_on_of_nodup_map names member inside (List.singleton_inj.mp last)
      rfl

end Reaches

/-- The path leads from the root to a registered type through registered types. -/
def HasPath (schema : Schema) (root : EntityType) (path : Path) : Prop :=
  ∃ target, schema.Reaches root path.place target

/-- The paths below one root are told apart by their property names: if these agree, everything else
does, up to the root. -/
theorem HasPath.eq_of_segments (distinct : schema.DistinctNames) {path other : Path}
    (has : schema.HasPath root path) (too : schema.HasPath root other)
    (same : path.segments = other.segments) : path = other := by
  obtain ⟨_, reached⟩ := has
  obtain ⟨_, again⟩ := too
  have places : path.place = other.place := reached.eq_of_segments distinct again same
  cases path
  cases other
  cases places
  rfl

theorem HasPath.parent {path above : Path} (has : schema.HasPath root path)
    (parent : path.parent? = some above) : schema.HasPath root above := by
  obtain ⟨_, reached⟩ := has
  obtain ⟨owner, before, _⟩ := reached.parent
  rw [Path.above_of_parent? parent] at before
  exact ⟨owner, before⟩

/-- What is followed from a reachable place is a path, and its names beyond the place are the
segments, none of them empty. -/
theorem hasPath_of_follow (distinct : schema.DistinctNames) {place : Place} {owner : EntityMapping}
    {segment : String} {others : List String} {path : Path}
    (reached : schema.Reaches root place owner)
    (followed : schema.follow expression place owner segment others = .ok path) :
    schema.HasPath root path ∧ path.segments = place.segments ++ segment :: others ∧
      ∀ name ∈ segment :: others, name ≠ "" := by
  induction others generalizing place owner segment with
  | nil =>
    obtain ⟨hop, named, later⟩ := bind_eq_ok.mp followed
    obtain ⟨target, found, made⟩ := bind_eq_ok.mp later
    cases made
    obtain ⟨filled, member, rfl⟩ := (hopNamed_eq_ok (distinct _ reached.mem_mappings)).mp named
    refine ⟨⟨target, .child reached member (require_eq_ok.mp found)⟩, rfl, ?_⟩
    simpa using filled
  | cons next others ih =>
    obtain ⟨hop, named, later⟩ := bind_eq_ok.mp followed
    obtain ⟨target, found, further⟩ := bind_eq_ok.mp later
    obtain ⟨filled, member, rfl⟩ := (hopNamed_eq_ok (distinct _ reached.mem_mappings)).mp named
    have onward : schema.Reaches root (.child place hop) target :=
      .child reached member (require_eq_ok.mp found)
    obtain ⟨has, segments, rest⟩ := ih onward further
    refine ⟨has, ?_, ?_⟩
    · simpa [Place.segments] using segments
    · exact List.forall_mem_cons.mpr ⟨filled, rest⟩

section Steps

variable {place : Place} {owner target : EntityMapping} {hop : Hop} {segment next : String}
  {others : List String} (named : hopNamed owner expression segment = .ok hop)
  (found : schema.mapping? hop.target = some target)
include named found

private theorem follow_last : schema.follow expression place owner segment [] = .ok ⟨place, hop⟩ := by
  rw [follow, named]
  change (schema.require hop.target >>= fun _ => .ok (Path.mk place hop)) = _
  rw [require_eq_ok.mpr found]
  rfl

private theorem follow_cons :
    schema.follow expression place owner segment (next :: others) =
      schema.follow expression (.child place hop) target next others := by
  rw [follow, named]
  change (schema.require hop.target >>= fun target =>
    schema.follow expression (.child place hop) target next others) = _
  rw [require_eq_ok.mpr found]
  rfl

end Steps

/-- Following the names of a reachable place, and then more, is to follow those from the place. -/
theorem follow_past (distinct : schema.DistinctNames) {start owner : EntityMapping} {place : Place}
    (registered : schema.mapping? root = some start) (reached : schema.Reaches root place owner)
    (filled : ∀ name ∈ place.segments, name ≠ "") {first segment : String}
    {later others : List String} (same : first :: later = place.segments ++ segment :: others) :
    schema.follow expression (.root root) start first later =
      schema.follow expression place owner segment others := by
  induction reached generalizing segment others with
  | root found =>
    obtain rfl := Option.some.inj (registered.symm.trans found)
    cases same
    rfl
  | @child place owner target hop above member found ih =>
    have before : ∀ name ∈ place.segments, name ≠ "" := by
      intro name inside
      exact filled name (List.mem_append_left _ inside)
    have own : hop.name ≠ "" := filled hop.name (by simp [Place.segments])
    -- Seen from the place above, the last name of the place is the next segment.
    have earlier : first :: later = place.segments ++ hop.name :: segment :: others := by
      simpa [Place.segments] using same
    rw [ih before earlier]
    have named : hopNamed owner expression hop.name = .ok hop :=
      (hopNamed_eq_ok (distinct _ above.mem_mappings)).mpr ⟨own, member, rfl⟩
    exact follow_cons named found

def segmentsOf (expression : String) : List String :=
  String.ofList (splitDots expression.toList).1 ::
    (splitDots expression.toList).2.map String.ofList

/-- An expression resolves to the path that has its segments as property names. There is at most
one; blank expressions and those with an empty segment have none. -/
theorem resolve_eq_ok (distinct : schema.DistinctNames) {path : Path} :
    schema.resolve root expression = .ok path ↔
      schema.HasPath root path ∧ path.segments = segmentsOf expression ∧
        Text.allBlank expression.toList = false ∧ ∀ name ∈ segmentsOf expression, name ≠ "" := by
  constructor
  · intro resolved
    cases blank : Text.allBlank expression.toList with
    | true =>
      rw [resolve_of_blank blank] at resolved
      cases resolved
    | false =>
      rw [resolve_of_filled blank] at resolved
      obtain ⟨owner, found, followed⟩ := bind_eq_ok.mp resolved
      have start : schema.Reaches root (.root root) owner := .root (require_eq_ok.mp found)
      obtain ⟨has, segments, filled⟩ := hasPath_of_follow distinct start followed
      exact ⟨has, segments, rfl, filled⟩
  · intro ⟨has, segments, visible, filled⟩
    obtain ⟨target, reached⟩ := has
    obtain ⟨owner, before, member⟩ := reached.parent
    obtain ⟨start, registered⟩ := before.registered
    have parts : segmentsOf expression = path.above.segments ++ [path.hop.name] := segments.symm
    have names : ∀ name ∈ path.above.segments, name ≠ "" := by
      intro name inside
      exact filled name (parts ▸ List.mem_append_left _ inside)
    have last : path.hop.name ≠ "" := filled path.hop.name (by simp [parts])
    have named : hopNamed owner expression path.hop.name = .ok path.hop :=
      (hopNamed_eq_ok (distinct _ before.mem_mappings)).mpr ⟨last, member, rfl⟩
    rw [resolve_of_filled visible, require_eq_ok.mpr registered]
    change schema.follow expression (.root root) start _ _ = _
    rw [follow_past distinct registered before names parts]
    exact follow_last named reached.mapping?_type

/-- The segments are the parts of the text between its dots. -/
theorem splitDots_eq_splitOn (text : List Char) :
    (splitDots text).1 :: (splitDots text).2 = text.splitOn '.' := by
  have split := List.splitOn_intercalate '.' (not_mem_splitDots text) (by simp)
  rw [intercalate_splitDots] at split
  exact split.symm

/-- The segments of an expression hold no dots. -/
theorem dotless_segmentsOf {name : String} (member : name ∈ segmentsOf expression) :
    '.' ∉ name.toList := by
  rw [segmentsOf, ← List.map_cons] at member
  obtain ⟨part, inside, rfl⟩ := List.mem_map.mp member
  rw [String.toList_ofList]
  exact not_mem_splitDots _ part inside

/-- Names that are joined by dots are the segments of the text, if they hold no dots of their own. -/
theorem segmentsOf_intercalate {names : List String} (nonempty : names ≠ [])
    (dotless : ∀ name ∈ names, '.' ∉ name.toList) :
    segmentsOf (".".intercalate names) = names := by
  have apart : ∀ part ∈ names.map String.toList, '.' ∉ part := by simpa using dotless
  have split := List.splitOn_intercalate '.' apart (by simpa using nonempty)
  rw [segmentsOf, ← List.map_cons, splitDots_eq_splitOn, String.toList_intercalate]
  change ((['.'].intercalate (names.map String.toList)).splitOn '.').map String.ofList = names
  rw [split, List.map_map]
  exact (List.map_congr_left fun name _ => String.ofList_toList).trans (List.map_id names)

end Schema

end WritePlan
