import WritePlan.Proofs.Walks
import Mathlib.Data.List.Nodup

namespace WritePlan

namespace Schema

variable {schema : Schema} {root : EntityType} {place : Place} {owner : EntityMapping}

/-- The way to a place passes through every smaller depth, and goes on from there. -/
theorem Reaches.passes {depth : Nat} (reached : schema.Reaches root place owner)
    (deeper : depth < place.depth) :
    ∃ between mapping, schema.Reaches root between mapping ∧ between.depth = depth ∧
      mapping.hops ≠ [] := by
  induction reached with
  | root => cases deeper
  | @child place owner target hop above member found ih =>
    rcases Nat.lt_succ_iff_lt_or_eq.mp deeper with before | here
    · exact ih before
    · exact ⟨place, owner, above, here.symm, List.ne_nil_of_mem member⟩

variable {nested : List (Path × EntityMapping)}

theorem mem_childPaths (listed : schema.childPaths place owner = .ok nested) {path : Path}
    {target : EntityMapping} :
    (path, target) ∈ nested ↔
      path.above = place ∧ path.hop ∈ owner.hops ∧ schema.mapping? path.hop.target = some target := by
  rw [mem_mapM listed]
  constructor
  · intro found
    obtain ⟨hop, member, made⟩ := found
    obtain ⟨mapping, registered, same⟩ := bind_eq_ok.mp made
    cases same
    exact ⟨rfl, member, require_eq_ok.mp registered⟩
  · intro ⟨above, member, registered⟩
    refine ⟨path.hop, member, bind_eq_ok.mpr ⟨target, require_eq_ok.mpr registered, ?_⟩⟩
    rw [← above]
    rfl

def namesBelow (entry : Place × EntityMapping) : List (List String) :=
  entry.2.hops.map fun hop => entry.1.segments ++ [hop.name]

private theorem segments_childPaths (listed : schema.childPaths place owner = .ok nested) :
    nested.map (fun entry => entry.1.segments) = namesBelow (place, owner) := by
  refine map_mapM listed fun hop _ entry made => ?_
  obtain ⟨_, _, same⟩ := bind_eq_ok.mp made
  cases same
  rfl

private theorem nodup_namesBelow (distinct : owner.DistinctNames) :
    (namesBelow (place, owner)).Nodup := by
  have longer : Function.Injective fun name => place.segments ++ [name] := by
    intro name other same
    exact List.singleton_inj.mp (List.append_cancel_left same)
  have names := (EntityMapping.hops_nodup distinct).map longer
  rwa [List.map_map] at names

private theorem disjoint_namesBelow {a b : Place × EntityMapping}
    (apart : a.1.segments ≠ b.1.segments) :
    List.Disjoint (namesBelow a) (namesBelow b) := by
  intro names left right
  obtain ⟨hop, _, here⟩ := List.mem_map.mp left
  obtain ⟨step, _, there⟩ := List.mem_map.mp right
  exact apart (List.append_inj' (here.trans there.symm) rfl).1

/-- The places of one depth with their mappings, each once. -/
structure Level (schema : Schema) (root : EntityType) (depth : Nat)
    (level : List (Place × EntityMapping)) : Prop where
  mem_iff : ∀ entry, entry ∈ level ↔ schema.Reaches root entry.1 entry.2 ∧ entry.1.depth = depth
  nodup : (level.map fun entry => entry.1.segments).Nodup

variable {depth : Nat} {level : List (Place × EntityMapping)}
  {lists : List (List (Path × EntityMapping))}

theorem Level.of_root (registered : schema.mapping? root = some owner) :
    schema.Level root 0 [(.root root, owner)] := by
  constructor
  · intro entry
    obtain ⟨there, mapping⟩ := entry
    rw [List.mem_singleton, Prod.mk.injEq]
    constructor
    · intro same
      obtain ⟨rfl, rfl⟩ := same
      exact ⟨.root registered, rfl⟩
    · intro ⟨reached, flat⟩
      cases reached with
      | root found => exact ⟨rfl, Option.some.inj (found.symm.trans registered)⟩
      | child => cases flat
  · exact List.nodup_singleton _

namespace Level

variable (here : schema.Level root depth level)
  (listed : level.mapM (fun (place, owner) => schema.childPaths place owner) = .ok lists)
include here listed

theorem mem_flatten {path : Path} {target : EntityMapping} :
    (path, target) ∈ lists.flatten ↔
      schema.Reaches root path.place target ∧ path.depth = depth + 1 := by
  rw [List.mem_flatten]
  constructor
  · intro found
    obtain ⟨nested, member, inside⟩ := found
    obtain ⟨entry, present, below⟩ := (mem_mapM listed).mp member
    obtain ⟨above, step, registered⟩ := (mem_childPaths below).mp inside
    obtain ⟨reached, deep⟩ := (here.mem_iff entry).mp present
    rw [← above] at reached deep
    exact ⟨.child reached step registered, congrArg Nat.succ deep⟩
  · intro ⟨reached, deep⟩
    have registered := reached.mapping?_type
    obtain ⟨owner, before, step⟩ := reached.parent
    have present : (path.above, owner) ∈ level :=
      (here.mem_iff _).mpr ⟨before, Nat.succ.inj deep⟩
    obtain ⟨nested, below⟩ := ok_of_mapM listed present
    exact ⟨nested, (mem_mapM listed).mpr ⟨_, present, below⟩,
      (mem_childPaths below).mpr ⟨rfl, step, registered⟩⟩

theorem mem_firsts {path : Path} :
    path ∈ lists.flatten.map Prod.fst ↔ schema.HasPath root path ∧ path.depth = depth + 1 := by
  rw [List.mem_map]
  constructor
  · intro found
    obtain ⟨⟨_, target⟩, inside, rfl⟩ := found
    obtain ⟨reached, deep⟩ := (here.mem_flatten listed).mp inside
    exact ⟨⟨target, reached⟩, deep⟩
  · intro ⟨has, deep⟩
    obtain ⟨target, reached⟩ := has
    exact ⟨_, (here.mem_flatten listed).mpr ⟨reached, deep⟩, rfl⟩

theorem nodup_flatten (distinct : schema.DistinctNames) :
    (lists.flatten.map fun entry => entry.1.segments).Nodup := by
  have names : lists.map (fun nested => nested.map fun entry => entry.1.segments) =
      level.map namesBelow :=
    map_mapM listed fun entry _ nested below => segments_childPaths below
  rw [List.map_flatten, names, List.nodup_flatten]
  constructor
  · intro own member
    obtain ⟨entry, present, rfl⟩ := List.mem_map.mp member
    have reached := ((here.mem_iff entry).mp present).1
    exact nodup_namesBelow (distinct _ reached.mem_mappings)
  · have apart : level.Pairwise fun a b => a.1.segments ≠ b.1.segments :=
      List.pairwise_map.mp here.nodup
    rw [List.pairwise_map]
    exact apart.imp disjoint_namesBelow

theorem below (distinct : schema.DistinctNames) :
    schema.Level root (depth + 1) (lists.flatten.map fun (path, target) => (path.place, target)) := by
  constructor
  · intro entry
    rw [List.mem_map]
    constructor
    · intro found
      obtain ⟨⟨path, target⟩, inside, rfl⟩ := found
      exact (here.mem_flatten listed).mp inside
    · intro ⟨reached, deep⟩
      obtain ⟨there, target⟩ := entry
      cases there with
      | root => cases deep
      | child above hop =>
        have inside : (Path.mk above hop, target) ∈ lists.flatten :=
          (here.mem_flatten listed).mpr ⟨reached, deep⟩
        exact ⟨_, inside, rfl⟩
  · rw [List.map_map]
    exact here.nodup_flatten listed distinct

end Level

/-- What is listed below the places of one depth are the paths beyond that depth, each once. -/
private theorem pathsBelow_of_level (distinct : schema.DistinctNames) {levels : Nat}
    {paths : List Path} (here : schema.Level root depth level)
    (listed : schema.pathsBelow root levels level = .ok paths) :
    (∀ path, path ∈ paths ↔ schema.HasPath root path ∧ depth < path.depth) ∧
      (paths.map Path.segments).Nodup := by
  induction levels generalizing depth level paths with
  | zero =>
    rw [pathsBelow] at listed
    split at listed
    · rename_i flat
      cases listed
      refine ⟨?_, List.nodup_nil⟩
      intro path
      -- A deeper path would go on from a place of this depth, and none does.
      refine iff_of_false List.not_mem_nil ?_
      intro ⟨has, deeper⟩
      obtain ⟨target, reached⟩ := has
      obtain ⟨between, mapping, before, deep, onward⟩ := reached.passes deeper
      have present := (here.mem_iff (between, mapping)).mpr ⟨before, deep⟩
      have closed := List.all_eq_true.mp flat _ present
      exact onward (List.isEmpty_iff.mp closed)
    · cases listed
  | succ levels ih =>
    obtain ⟨lists, stepped, further⟩ := bind_eq_ok.mp listed
    obtain ⟨deeper, later, joined⟩ := bind_eq_ok.mp further
    cases joined
    obtain ⟨rest, apart⟩ := ih (here.below stepped distinct) later
    constructor
    · intro path
      rw [List.mem_append, here.mem_firsts stepped, rest path, ← and_or_left]
      exact and_congr_right fun _ => by omega
    · have own := here.nodup_flatten stepped distinct
      rw [List.map_append, List.map_map]
      refine List.nodup_append.mpr ⟨own, apart, ?_⟩
      intro names near others far same
      obtain ⟨⟨path, target⟩, inside, rfl⟩ := List.mem_map.mp near
      obtain ⟨other, beyond, rfl⟩ := List.mem_map.mp far
      have shallow := ((here.mem_flatten stepped).mp inside).2
      have deep := ((rest other).mp beyond).2
      have level : path.depth = other.depth :=
        (Path.length_segments path.place).symm.trans
          ((congrArg List.length same).trans (Path.length_segments other.place))
      omega

/-- All paths that are listed are the paths of the root, each once. -/
theorem mem_paths (distinct : schema.DistinctNames) {paths : List Path}
    (listed : schema.paths root = .ok paths) :
    (∀ path, path ∈ paths ↔ schema.HasPath root path) ∧ (paths.map Path.segments).Nodup := by
  obtain ⟨owner, found, below⟩ := bind_eq_ok.mp listed
  have top := Level.of_root (require_eq_ok.mp found)
  obtain ⟨members, apart⟩ := pathsBelow_of_level distinct top below
  refine ⟨?_, apart⟩
  intro path
  rw [members path]
  exact and_iff_left (Nat.succ_pos path.above.depth)

private theorem filter_beq_of_nodup {paths : List Path} (apart : (paths.map Path.segments).Nodup)
    {path : Path} (member : path ∈ paths) : paths.filter (· == path) = [path] := by
  induction paths with
  | nil => cases member
  | cons first rest ih =>
    obtain ⟨new, others⟩ := List.nodup_cons.mp apart
    rcases List.mem_cons.mp member with rfl | later
    · have none : rest.filter (· == path) = [] := by
        rw [List.filter_eq_nil_iff]
        intro other present same
        exact new (List.mem_map.mpr ⟨other, present, Path.beq_iff_segments.mp same⟩)
      have here : (path == path) = true := Path.beq_iff_segments.mpr rfl
      rw [List.filter_cons, if_pos here, none]
    · have different : ¬(first == path) = true := by
        intro same
        exact new (List.mem_map.mpr ⟨path, later, (Path.beq_iff_segments.mp same).symm⟩)
      rw [List.filter_cons, if_neg different, ih others later]

/-- The list of all paths, where there is one, is complete for expressions: whatever path an
expression resolves to stands in the list, the same in all its data and in that of each enclosing
path. No two listed paths are the same, so it stands there once. -/
theorem paths_complete (naming : Naming) (decls : List EntityDecl) {root : EntityType}
    {paths : List Path} (listed : (ofDecls naming decls).paths root = .ok paths) :
    paths.Pairwise (fun path other => (path == other) = false) ∧
    ∀ expression path, (ofDecls naming decls).resolve root expression = .ok path →
      paths.filter (· == path) = [path] := by
  have distinct := distinctNames_ofDecls naming decls
  obtain ⟨members, apart⟩ := mem_paths distinct listed
  constructor
  · have different : paths.Pairwise fun path other => path.segments ≠ other.segments :=
      List.pairwise_map.mp apart
    refine different.imp ?_
    intro path other names
    exact Bool.eq_false_iff.mpr fun same => names (Path.beq_iff_segments.mp same)
  · intro expression path resolved
    have has := ((resolve_eq_ok distinct).mp resolved).1
    exact filter_beq_of_nodup apart ((members path).mpr has)

private def sales : List EntityDecl :=
  [⟨⟨"order"⟩, none, [.id "id", .plain "line" (.collection ⟨"order_line"⟩ .list),
      .plain "address" (.embedded ⟨"address"⟩ none)]⟩,
    ⟨⟨"order_line"⟩, none, [.id "id", .plain "address" (.entity ⟨"address"⟩)]⟩,
    ⟨⟨"address"⟩, none, [.plain "street" (.simple .text)]⟩]

private def linePath : Path := ⟨.root ⟨"order"⟩, ⟨"line", ⟨"order_line"⟩, true, true, false⟩⟩

private def salesPaths : List Path :=
  [linePath, ⟨.root ⟨"order"⟩, ⟨"address", ⟨"address"⟩, false, false, true⟩⟩,
    ⟨linePath.place, ⟨"address", ⟨"address"⟩, false, false, false⟩⟩]

theorem salesPaths_complete :
    (ofDecls .snake sales).paths ⟨"order"⟩ = .ok salesPaths ∧
    salesPaths.Pairwise (fun path other => (path == other) = false) ∧
    ∀ expression path, (ofDecls .snake sales).resolve ⟨"order"⟩ expression = .ok path →
      salesPaths.filter (· == path) = [path] :=
  have listed : (ofDecls .snake sales).paths ⟨"order"⟩ = .ok salesPaths := rfl
  ⟨listed, paths_complete .snake sales listed⟩

end Schema

end WritePlan
