import WritePlan.Locating
import WritePlan.Proofs.Addresses
import WritePlan.Proofs.Catalogue
import WritePlan.Proofs.Lineages

namespace WritePlan

namespace PropertyMapping

variable {property : PropertyMapping} {hop : Hop}

/-- The step of a property says of it what the property says of itself. -/
theorem hop?_eq_some : property.hop? = some hop ↔
    property.target? = some hop.target ∧ property.name = hop.name ∧
      property.isCollection = hop.collection ∧ property.isQualified = hop.qualified ∧
      property.isEmbedded = hop.embedded := by
  rw [hop?, Option.map_eq_some_iff]
  constructor
  · intro leads
    obtain ⟨target, found, rfl⟩ := leads
    exact ⟨found, rfl, rfl, rfl, rfl⟩
  · intro ⟨found, name, collection, qualified, embedded⟩
    refine ⟨hop.target, found, ?_⟩
    rw [name, collection, qualified, embedded]

end PropertyMapping

/-- The column of the child table that refers back to the owner: the declared one, else the one that
is derived from the owner's table. -/
def PropertyDecl.reverseIn (decl : PropertyDecl) (naming : Naming) (table : String) : String :=
  decl.reverseColumn.getD (naming.reverseColumn table)

/-- The column of positions or keys: the declared one, else the one that is derived from the reverse
column. -/
def PropertyDecl.keyIn (decl : PropertyDecl) (naming : Naming) (table : String) : String :=
  decl.keyColumn.getD (naming.keyColumn (decl.reverseIn naming table))

section Columns

variable (naming : Naming) (owner : EntityType) (table : String) (decl : PropertyDecl)

theorem PropertyMapping.keyColumn_ofDecl :
    (PropertyMapping.ofDecl naming owner table decl).keyColumn =
      if (PropertyMapping.ofDecl naming owner table decl).isQualified then
        some (decl.keyIn naming table)
      else none := rfl

/-- A property that leads to entities has a reverse column unless the entities are embedded. -/
theorem PropertyMapping.reverseColumn_ofDecl {target : EntityType}
    (leads : decl.kind.target? = some target) :
    (PropertyMapping.ofDecl naming owner table decl).reverseColumn =
      if (PropertyMapping.ofDecl naming owner table decl).isEmbedded then none
      else some (decl.reverseIn naming table) := by
  obtain ⟨name, kind, column, reverse, key, isId, isVersion⟩ := decl
  cases kind with
  | simple => cases leads
  | simpleCollection => cases leads
  | entity => rfl
  | embedded => rfl
  | collection => rfl

end Columns

namespace Schema

variable {schema later : Schema} {root : EntityType} {path : Path}

theorem Reaches.grown {place : Place} {owner : EntityMapping} (grown : schema.Extends later)
    (reached : schema.Reaches root place owner) : later.Reaches root place owner := by
  induction reached with
  | root found => exact .root (grown _ _ found)
  | child _ member found ih => exact .child ih member (grown _ _ found)

theorem HasPath.grown (grown : schema.Extends later) (has : schema.HasPath root path) :
    later.HasPath root path := by
  obtain ⟨target, reached⟩ := has
  exact ⟨target, reached.grown grown⟩

/-- The entity that holds the last property is that of the enclosing path, or the root. -/
theorem HasPath.type_above (has : schema.HasPath root path) :
    path.above.type = (path.parent?.map Path.type).getD root := by
  obtain ⟨_, reached⟩ := has
  obtain ⟨_, before, _⟩ := reached.parent
  obtain ⟨above, hop⟩ := path
  cases before with
  | root => rfl
  | child => rfl

theorem HasPath.leafProperty_eq_ok (distinct : schema.DistinctNames)
    (has : schema.HasPath root path) :
    ∃ owner property, schema.mapping? path.above.type = some owner ∧ property ∈ owner.properties ∧
      property.hop? = some path.hop ∧ schema.leafProperty path = .ok property := by
  obtain ⟨_, reached⟩ := has
  obtain ⟨owner, before, member⟩ := reached.parent
  obtain ⟨property, present, leads⟩ := EntityMapping.mem_hops.mp member
  have named : property.name = path.leaf := (EntityMapping.name_of_hop? leads).symm
  have found : owner.requireProperty path.leaf = .ok property :=
    (EntityMapping.requireProperty_eq_ok (distinct _ before.mem_mappings)).mpr ⟨present, named⟩
  refine ⟨owner, property, before.mapping?_type, present, leads, ?_⟩
  exact bind_eq_ok.mpr ⟨owner, require_eq_ok.mpr before.mapping?_type, found⟩

theorem HasPath.lastProperty_node (has : schema.HasPath root path) :
    schema.lastProperty path.node = schema.leafProperty path := by
  have rooted : path.rootType = root := by
    obtain ⟨_, reached⟩ := has
    exact reached.rootType_eq
  have owner : (path.node.parent?.map PathNode.type).getD path.node.rootType = path.above.type := by
    rw [has.type_above, path.parent?_node, path.rootType_node, rooted, Option.map_map]
    congr 2
    funext above
    exact above.type_node
  rw [lastProperty, leafProperty, owner, path.leaf_node]

/-- The mapping of a property agrees with a path that ends with it, and its columns are those that
the declaration of its owner settles. -/
structure Describes (naming : Naming) (decls : List EntityDecl) (root : EntityType)
    (property : PropertyMapping) (path : Path) : Prop where
  name : path.segments.getLast? = some property.name
  owner : property.owner = (path.parent?.map Path.type).getD root
  target : property.target? = some path.type
  collection : property.isCollection = path.isCollection
  qualified : property.isQualified = path.isQualified
  keyColumn_isSome : property.keyColumn.isSome = path.isQualified
  reverseColumn_isSome : property.reverseColumn.isSome = !property.isEmbedded
  columns : ∃ decl, declared? decls property.owner = some decl ∧
    ∃ own ∈ decl.properties, own.name = property.name ∧ own.kind = property.kind ∧
      (∀ column ∈ property.reverseColumn, column = own.reverseIn naming (decl.tableIn naming)) ∧
      ∀ column ∈ property.keyColumn, column = own.keyIn naming (decl.tableIn naming)

theorem HasPath.described {naming : Naming} {decls : List EntityDecl}
    (has : (ofDecls naming decls).HasPath root path) :
    ∃ property, (ofDecls naming decls).leafProperty path = .ok property ∧
      Describes naming decls root property path := by
  obtain ⟨owner, property, found, member, leads, looked⟩ :=
    has.leafProperty_eq_ok (distinctNames_ofDecls naming decls)
  refine ⟨property, looked, ?_⟩
  rw [mapping?_ofDecls] at found
  obtain ⟨decl, declared, rfl⟩ := Option.map_eq_some_iff.mp found
  obtain ⟨own, inside, rfl⟩ := List.mem_map.mp member
  obtain ⟨target, name, collection, qualified, embedded⟩ := PropertyMapping.hop?_eq_some.mp leads
  have type : decl.type = path.above.type := (mem_of_declared? declared).2.1
  have reverse := PropertyMapping.reverseColumn_ofDecl naming decl.type (decl.tableIn naming) own target
  have key := PropertyMapping.keyColumn_ofDecl naming decl.type (decl.tableIn naming) own
  constructor
  case name => simp [Path.segments, Path.place, Place.segments, name]
  case owner => exact type.trans has.type_above
  case target => exact target
  case collection => exact collection
  case qualified => exact qualified
  case keyColumn_isSome =>
    refine Eq.trans ?_ qualified
    rw [key]
    split
    · rename_i keyed
      exact keyed.symm
    · rename_i unkeyed
      exact (Bool.eq_false_iff.mpr unkeyed).symm
  case reverseColumn_isSome =>
    rw [reverse]
    split
    · rename_i inTable
      exact (congrArg not inTable).symm
    · rename_i apart
      exact (congrArg not (Bool.eq_false_iff.mpr apart)).symm
  case columns =>
    refine ⟨decl, type ▸ declared, own, inside, rfl, rfl, ?_, ?_⟩
    · intro column present
      rw [Option.mem_def, reverse] at present
      split at present
      · cases present
      · exact (Option.some.inj present).symm
    · intro column present
      rw [Option.mem_def, key] at present
      split at present
      · exact (Option.some.inj present).symm
      · cases present

/-- The last property of a path that a schema gave out is found whatever was registered since. It agrees
with the path, with the path as it is kept and with the declaration of its owner, and equal paths that
are given out later agree with the path. -/
theorem leafProperty_of_handedOut (naming : Naming) (decls further : List EntityDecl)
    {root : EntityType} {path : Path} (handed : (ofDecls naming decls).HandsOut root path) :
    (∃ property, ((ofDecls naming decls).afterAll further).leafProperty path = .ok property ∧
      Describes naming (decls ++ further) root property path ∧
      ((ofDecls naming decls).afterAll further).lastProperty path.node = .ok property ∧
      property.target? = some path.node.type ∧ property.isCollection = path.node.collection ∧
      property.isQualified = path.node.qualified) ∧
    ∀ other, ((ofDecls naming decls).afterAll further).HandsOut root other →
      ((path == other) = true →
        path.type = other.type ∧ path.isCollection = other.isCollection ∧
          path.isQualified = other.isQualified ∧ path.isEmbedded = other.isEmbedded) ∧
      ((path.node == other.node) = true →
        path.node.type = other.node.type ∧ path.node.collection = other.node.collection ∧
          path.node.qualified = other.node.qualified ∧
          path.node.embedded = other.node.embedded) := by
  have all : (ofDecls naming decls).afterAll further = ofDecls naming (decls ++ further) :=
    List.foldl_append.symm
  have has := (handed.hasPath (distinctNames_ofDecls naming decls)).grown (extends_afterAll _ further)
  rw [all] at has ⊢
  constructor
  · obtain ⟨property, looked, described⟩ := has.described
    refine ⟨property, looked, described, has.lastProperty_node.trans looked, ?_, ?_, ?_⟩
    · rw [path.type_node, described.target]
    · rw [path.collection_node, described.collection]
    · rw [path.qualified_node, described.qualified]
  · intro other handed
    have distinct := distinctNames_ofDecls naming (decls ++ further)
    have same (equal : (path == other) = true) : path = other :=
      has.eq_of_segments distinct (handed.hasPath distinct) (Path.beq_iff_segments.mp equal)
    rw [Path.beq_node]
    constructor
    · intro equal
      rw [← same equal]
      exact ⟨rfl, rfl, rfl, rfl⟩
    · intro equal
      rw [← same equal]
      exact ⟨rfl, rfl, rfl, rfl⟩

/-- Lines of orders, in a table whose name is declared, and their notes, registered one after the
other. -/
private def early : List EntityDecl :=
  [⟨⟨"order"⟩, some "orders", [.plain "line" (.collection ⟨"order_line"⟩ .list)]⟩,
    ⟨⟨"order_line"⟩, none, [.plain "note" (.embedded ⟨"note"⟩ none)]⟩]

private def late : List EntityDecl := [⟨⟨"order"⟩, none, []⟩, ⟨⟨"note"⟩, none, []⟩]

private def lines : Path := ⟨.root ⟨"order"⟩, ⟨"line", ⟨"order_line"⟩, true, true, false⟩⟩

theorem lines_described :
    (ofDecls .snake early).HandsOut ⟨"order"⟩ lines ∧
    ∃ property, ((ofDecls .snake early).afterAll late).leafProperty lines = .ok property ∧
      Describes .snake (early ++ late) ⟨"order"⟩ property lines ∧
      ((ofDecls .snake early).afterAll late).lastProperty lines.node = .ok property ∧
      lines.node.collection = true ∧ lines.node.qualified = true ∧
      property.reverseColumn = some "orders" ∧ property.keyColumn = some "orders_key" := by
  have handed : (ofDecls .snake early).HandsOut ⟨"order"⟩ lines :=
    .resolved (show (ofDecls .snake early).resolve ⟨"order"⟩ "line" = .ok lines from rfl)
  obtain ⟨⟨property, found, described, kept, _, collection, qualified⟩, _⟩ :=
    leafProperty_of_handedOut .snake early late handed
  refine ⟨handed, property, found, described, kept, ?_⟩
  cases found
  exact ⟨collection.symm, qualified.symm, rfl, rfl⟩

end Schema

end WritePlan
