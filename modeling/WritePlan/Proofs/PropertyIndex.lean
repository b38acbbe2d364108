import WritePlan.IndexedMapping
import WritePlan.Proofs.Catalogue
import Mathlib.Data.List.Nodup

/-! The indexes of a kept mapping. Each notes the place of the first property with a mark, be it a
name, the role of the id or that of the version; properties are entered while no mark is doubled.
So declarations are accepted exactly if their names and roles are unique, and every look-up comes to
the declared property. -/
namespace WritePlan

section Marks

variable {α : Type} {front : List α} {mark : α → Bool}

/-- If an item has a mark for the second time, then it and an earlier one have it. -/
private theorem two_marked_iff (item : α) (single : front.countP mark ≤ 1) :
    1 < (front ++ [item]).countP mark ↔ mark item = true ∧ ∃ earlier ∈ front, mark earlier = true := by
  rw [← List.countP_pos_iff, List.countP_append, List.countP_singleton]
  by_cases marked : mark item = true
  · rw [if_pos marked, and_iff_right marked]
    omega
  · rw [if_neg marked, iff_false_intro (mt And.left marked), iff_false]
    omega

/-- The item that is found first is the only one with the mark. -/
private theorem find?_eq_some_of_single {items : List α} {item : α} (single : items.countP mark ≤ 1) :
    items.find? mark = some item ↔ item ∈ items ∧ mark item = true := by
  induction items with
  | nil => simp
  | cons first rest ih =>
    rw [List.countP_cons] at single
    by_cases marked : mark first = true
    · rw [if_pos marked] at single
      have others : ∀ other ∈ rest, ¬mark other = true := List.countP_eq_zero.mp (by omega)
      rw [List.find?_cons_of_pos marked, Option.some.injEq, List.mem_cons]
      constructor
      · rintro rfl
        exact ⟨.inl rfl, marked⟩
      · intro ⟨member, own⟩
        rcases member with same | later
        · exact same.symm
        · exact absurd own (others item later)
    · rw [if_neg marked] at single
      rw [List.find?_cons_of_neg marked, ih single, List.mem_cons]
      refine and_congr_left fun own => ⟨.inr, fun member => member.resolve_left ?_⟩
      rintro rfl
      exact marked own

/-- The next place is noted for a mark that was not found before. -/
private theorem findIdx?_concat {item : α} (fresh : mark item = true → front.findIdx? mark = none) :
    (front ++ [item]).findIdx? mark =
      if mark item then some front.length else front.findIdx? mark := by
  rw [List.findIdx?_append, List.findIdx?_singleton]
  split
  · rename_i marked
    rw [fresh marked]
    simp
  · simp

end Marks

namespace Entity

theorem lookup_put_self (name : String) (value : Value) (properties : List (String × Value)) :
    (put name value properties).lookup name = some value := by
  induction properties with
  | nil => exact List.lookup_cons_self
  | cons head rest ih =>
    rw [put]
    split
    · exact List.lookup_cons_self
    · split
      · exact List.lookup_cons_self
      · rename_i different
        have apart : (name == head.1) = false := beq_false_of_ne different
        rw [List.lookup_cons, apart]
        exact ih

theorem lookup_put_of_ne {name other : String} (apart : other ≠ name) (value : Value)
    (properties : List (String × Value)) :
    (put name value properties).lookup other = properties.lookup other := by
  have passed : (other == name) = false := beq_false_of_ne apart
  induction properties with
  | nil => rw [put, List.lookup_cons, passed]
  | cons head rest ih =>
    rw [put]
    split
    · rw [List.lookup_cons, passed]
    · split
      · rename_i same
        rw [List.lookup_cons, List.lookup_cons, ← same, passed]
      · rw [List.lookup_cons, List.lookup_cons, ih]

theorem get?_setAll (writes : List (String × Value)) (entity : Entity) (name : String) :
    (entity.setAll writes).get? name = (writes.reverse.lookup name).or (entity.get? name) := by
  induction writes generalizing entity with
  | nil => rfl
  | cons entry rest ih =>
    have later := ih (entity.set entry.1 entry.2)
    rw [List.reverse_cons, List.lookup_append, Option.or_assoc]
    refine later.trans (congrArg _ ?_)
    by_cases own : name = entry.1
    · rw [own, List.lookup_cons_self]
      exact lookup_put_self entry.1 entry.2 entity.properties
    · rw [List.lookup_cons, beq_false_of_ne own]
      exact lookup_put_of_ne own entry.2 entity.properties

end Entity

/-- Property names differ, and there is at most one id and one version property. -/
structure WellDeclared (properties : List PropertyDecl) : Prop where
  names : (properties.map PropertyDecl.name).Nodup
  id : properties.countP PropertyDecl.isId ≤ 1
  version : properties.countP PropertyDecl.isVersion ≤ 1

/-- What is wrong with the properties up to one that is one too many. A repeated name is told before a
second id, and that before a second version. -/
inductive Complaint (type : EntityType) (properties : List PropertyDecl) (last : String) :
    ConfigFault → Prop
  | name (repeated : ¬(properties.map PropertyDecl.name).Nodup) :
    Complaint type properties last (.repeatedProperty type last)
  | id (distinct : (properties.map PropertyDecl.name).Nodup)
    (second : 1 < properties.countP PropertyDecl.isId) :
    Complaint type properties last (.severalIds type)
  | version (distinct : (properties.map PropertyDecl.name).Nodup)
    (single : properties.countP PropertyDecl.isId ≤ 1)
    (second : 1 < properties.countP PropertyDecl.isVersion) :
    Complaint type properties last (.severalVersions type)

theorem Complaint.not_sound {type : EntityType} {properties : List PropertyDecl} {last : String}
    {fault : ConfigFault} (complaint : Complaint type properties last fault) :
    ¬WellDeclared properties := by
  intro sound
  cases complaint with
  | name repeated => exact repeated sound.names
  | id _ second => exact Nat.not_lt.mpr sound.id second
  | version _ _ second => exact Nat.not_lt.mpr sound.version second

theorem Complaint.unique {type : EntityType} {properties : List PropertyDecl} {last : String}
    {fault other : ConfigFault} (complaint : Complaint type properties last fault)
    (too : Complaint type properties last other) : fault = other := by
  cases complaint with
  | name repeated =>
    cases too with
    | name => rfl
    | id distinct => exact absurd distinct repeated
    | version distinct => exact absurd distinct repeated
  | id distinct second =>
    cases too with
    | name repeated => exact absurd distinct repeated
    | id => rfl
    | version _ single => exact absurd second (Nat.not_lt.mpr single)
  | version distinct single =>
    cases too with
    | name repeated => exact absurd distinct repeated
    | id _ second => exact absurd second (Nat.not_lt.mpr single)
    | version => rfl

namespace WellDeclared

variable {front rest : List PropertyDecl}

theorem of_append (sound : WellDeclared (front ++ rest)) : WellDeclared front where
  names := by
    have names := sound.names
    rw [List.map_append] at names
    exact names.of_append_left
  id := Nat.le_trans (List.sublist_append_left front rest).countP_le sound.id
  version := Nat.le_trans (List.sublist_append_left front rest).countP_le sound.version

/-- A name is repeated if the last property has that of an earlier one. -/
private theorem nodup_concat (sound : WellDeclared front) (property : PropertyDecl) :
    ((front ++ [property]).map PropertyDecl.name).Nodup ↔
      property.name ∉ front.map PropertyDecl.name := by
  rw [List.map_append, List.map_singleton, ← List.concat_eq_append, List.nodup_concat]
  exact and_iff_left sound.names

private theorem countP_name_le (sound : WellDeclared front) (name : String) :
    (front.countP fun own => own.name == name) ≤ 1 := by
  have count := List.nodup_iff_count_le_one.mp sound.names name
  rwa [List.count, List.countP_map] at count

end WellDeclared

namespace IndexedMapping

/-- The mapping holds the properties that were entered, and notes where the first one of each name and
of each role is. -/
structure Indexes (naming : Naming) (type : EntityType) (table : String)
    (entered : List PropertyDecl) (mapping : IndexedMapping) : Prop where
  sound : WellDeclared entered
  ofType : mapping.type = type
  inTable : mapping.table = table
  properties : mapping.properties.toList = entered.map (PropertyMapping.ofDecl naming type table)
  positions : ∀ name, mapping.positions[name]? = entered.findIdx? fun own => own.name == name
  id : mapping.idPosition? = entered.findIdx? PropertyDecl.isId
  version : mapping.versionPosition? = entered.findIdx? PropertyDecl.isVersion

variable {naming : Naming} {type : EntityType} {table : String} {entered more : List PropertyDecl}
  {mapping next : IndexedMapping} {property : PropertyDecl}

theorem indexes_empty : Indexes naming type table [] (empty type table) where
  sound := ⟨List.nodup_nil, Nat.zero_le _, Nat.zero_le _⟩
  ofType := rfl
  inTable := rfl
  properties := rfl
  positions name := by simp [empty]
  id := rfl
  version := rfl

namespace Indexes

variable (indexes : Indexes naming type table entered mapping)
include indexes

theorem size : mapping.properties.size = entered.length := by
  rw [← Array.length_toList, indexes.properties, List.length_map]

theorem contains_iff (name : String) :
    mapping.positions.contains name = true ↔ name ∈ entered.map PropertyDecl.name := by
  rw [Std.HashMap.contains_eq_isSome_getElem?, indexes.positions, List.findIdx?_isSome]
  simp

theorem idPosition?_isSome :
    mapping.idPosition?.isSome = true ↔ ∃ own ∈ entered, own.isId = true := by
  rw [indexes.id, List.findIdx?_isSome, List.any_eq_true]

theorem versionPosition?_isSome :
    mapping.versionPosition?.isSome = true ↔ ∃ own ∈ entered, own.isVersion = true := by
  rw [indexes.version, List.findIdx?_isSome, List.any_eq_true]

/-- A property is refused if it makes the declarations unsound; else it is indexed too. -/
theorem enter_cases (property : PropertyDecl) :
    (∃ fault, Complaint type (entered ++ [property]) property.name fault ∧
      enter naming mapping property = .error (.invalidConfig fault)) ∨
    ∃ next, enter naming mapping property = .ok next ∧
      Indexes naming type table (entered ++ [property]) next := by
  have names := indexes.sound.nodup_concat property
  rw [← indexes.contains_iff] at names
  have ids := two_marked_iff property indexes.sound.id
  rw [← indexes.idPosition?_isSome] at ids
  have versions := two_marked_iff property indexes.sound.version
  rw [← indexes.versionPosition?_isSome] at versions
  unfold enter
  rw [indexes.ofType, indexes.inTable]
  split
  · rename_i repeated
    exact .inl ⟨_, .name fun distinct => names.mp distinct repeated, rfl⟩
  · rename_i fresh
    have distinct := names.mpr fresh
    split
    · rename_i second
      exact .inl ⟨_, .id distinct (ids.mpr (Bool.and_eq_true_iff.mp second)), rfl⟩
    · rename_i oneId
      have single := Nat.not_lt.mp fun second => oneId (Bool.and_eq_true_iff.mpr (ids.mp second))
      split
      · rename_i second
        exact .inl ⟨_, .version distinct single (versions.mpr (Bool.and_eq_true_iff.mp second)), rfl⟩
      · rename_i oneVersion
        have alone := Nat.not_lt.mp fun second =>
          oneVersion (Bool.and_eq_true_iff.mpr (versions.mp second))
        refine .inr ⟨_, rfl, ⟨distinct, single, alone⟩, rfl, rfl, ?_, ?_, ?_, ?_⟩
        · rw [Array.toList_push, indexes.properties, List.map_append, List.map_singleton]
        · intro name
          rw [Std.HashMap.getElem?_insert, findIdx?_concat, indexes.size, indexes.positions]
          intro own
          rw [← indexes.positions, ← beq_iff_eq.mp own]
          exact Std.HashMap.getElem?_eq_none_of_contains_eq_false (Bool.eq_false_iff.mpr fresh)
        · rw [findIdx?_concat, indexes.size, indexes.id]
          intro own
          rw [← indexes.id]
          simpa [own] using oneId
        · rw [findIdx?_concat, indexes.size, indexes.version]
          intro own
          rw [← indexes.version]
          simpa [own] using oneVersion

theorem enter (made : IndexedMapping.enter naming mapping property = .ok next) :
    Indexes naming type table (entered ++ [property]) next := by
  rcases indexes.enter_cases property with ⟨_, _, failed⟩ | ⟨_, other, grown⟩
  · cases failed.symm.trans made
  · exact Except.ok.inj (other.symm.trans made) ▸ grown

theorem foldlM_enter (run : more.foldlM (IndexedMapping.enter naming) mapping = .ok next) :
    Indexes naming type table (entered ++ more) next := by
  induction more generalizing entered mapping with
  | nil =>
    cases run
    simpa using indexes
  | cons property rest ih =>
    rw [List.foldlM_cons, bind_eq_ok] at run
    obtain ⟨middle, first, later⟩ := run
    simpa using ih (indexes.enter first) later

end Indexes

private theorem exists_foldlM_enter (naming : Naming) (type : EntityType) (table : String)
    {properties : List PropertyDecl} (sound : WellDeclared properties) :
    ∃ mapping, properties.foldlM (enter naming) (empty type table) = .ok mapping := by
  cases run : properties.foldlM (enter naming) (empty type table) with
  | ok mapping => exact ⟨mapping, rfl⟩
  | error fault =>
    obtain ⟨front, property, rest, middle, rfl, before, failed⟩ := foldlM_eq_error.mp run
    have indexes : Indexes naming type table front middle := indexes_empty.foldlM_enter before
    rcases indexes.enter_cases property with ⟨_, complaint, _⟩ | ⟨_, made, _⟩
    · rw [List.append_cons] at sound
      exact absurd sound.of_append complaint.not_sound
    · cases made.symm.trans failed

theorem indexes_ofDecl {decl : EntityDecl} (made : ofDecl naming decl = .ok mapping) :
    Indexes naming decl.type (decl.tableIn naming) decl.properties mapping :=
  indexes_empty.foldlM_enter made

namespace Indexes

variable (indexes : Indexes naming type table entered mapping)
include indexes

/-- At the place of a mark lies the first property that has it. -/
theorem at?_findIdx? (mark : PropertyDecl → Bool) :
    mapping.at? (entered.findIdx? mark) =
      (entered.find? mark).map (PropertyMapping.ofDecl naming type table) := by
  rw [at?, List.find?_eq_bind_findIdx?_getElem?, Option.map_bind]
  congr 1
  funext position
  rw [← Array.getElem?_toList, indexes.properties, List.getElem?_map]
  rfl

theorem property?_eq (name : String) :
    mapping.property? name = (entered.find? fun own => own.name == name).map
      (PropertyMapping.ofDecl naming type table) := by
  rw [IndexedMapping.property?, indexes.positions, indexes.at?_findIdx?]

theorem idProperty?_eq : mapping.idProperty? =
    (entered.find? PropertyDecl.isId).map (PropertyMapping.ofDecl naming type table) := by
  rw [idProperty?, indexes.id, indexes.at?_findIdx?]

theorem versionProperty?_eq : mapping.versionProperty? =
    (entered.find? PropertyDecl.isVersion).map (PropertyMapping.ofDecl naming type table) := by
  rw [versionProperty?, indexes.version, indexes.at?_findIdx?]

end Indexes

/-- The settled value of a property is the one that was written last, unless it is null. -/
theorem settled?_setAll (type : EntityType) (writes : List (String × Value)) :
    EntityMapping.settled? ((Entity.empty type).setAll writes) = fun property =>
      (writes.reverse.lookup property.name).filter fun value => !value.isNull := by
  funext property
  rw [EntityMapping.settled?, Entity.get?_setAll]
  exact congrArg _ (Option.or_none ..)

theorem idValue?_setAll (mapping : IndexedMapping) (type : EntityType)
    (writes : List (String × Value)) :
    mapping.idValue? ((Entity.empty type).setAll writes) = mapping.idProperty?.bind fun property =>
      (writes.reverse.lookup property.name).filter fun value => !value.isNull := by
  rw [idValue?, settled?_setAll]

theorem versionValue?_setAll (mapping : IndexedMapping) (type : EntityType)
    (writes : List (String × Value)) :
    mapping.versionValue? ((Entity.empty type).setAll writes) =
      mapping.versionProperty?.bind fun property =>
        (writes.reverse.lookup property.name).filter fun value => !value.isNull := by
  rw [versionValue?, settled?_setAll]

/-- The mapping is that of the declaration: it has the declared properties in their order, and every
look-up comes to the one property that is declared so. What was noted lies in the array. -/
structure Faithful (naming : Naming) (decl : EntityDecl) (mapping : IndexedMapping) : Prop where
  type : mapping.type = decl.type
  properties : mapping.properties.toList =
    decl.properties.map (PropertyMapping.ofDecl naming decl.type (decl.tableIn naming))
  kept : (mapping.properties.toList.map fun property =>
      (property.name, property.kind, property.isId, property.isVersion)) =
    decl.properties.map fun own => (own.name, own.kind, own.isId, own.isVersion)
  property? : ∀ name property, mapping.property? name = some property ↔
    ∃ own ∈ decl.properties, own.name = name ∧
      property = PropertyMapping.ofDecl naming decl.type (decl.tableIn naming) own
  idProperty? : ∀ property, mapping.idProperty? = some property ↔
    ∃ own ∈ decl.properties, own.isId = true ∧
      property = PropertyMapping.ofDecl naming decl.type (decl.tableIn naming) own
  versionProperty? : ∀ property, mapping.versionProperty? = some property ↔
    ∃ own ∈ decl.properties, own.isVersion = true ∧
      property = PropertyMapping.ofDecl naming decl.type (decl.tableIn naming) own
  idValue? : ∀ type writes, mapping.idValue? ((Entity.empty type).setAll writes) =
    mapping.idProperty?.bind fun property =>
      (writes.reverse.lookup property.name).filter fun value => !value.isNull
  versionValue? : ∀ type writes, mapping.versionValue? ((Entity.empty type).setAll writes) =
    mapping.versionProperty?.bind fun property =>
      (writes.reverse.lookup property.name).filter fun value => !value.isNull
  within : ∀ position : Nat, (∃ name : String, mapping.positions[name]? = some position) ∨
    mapping.idPosition? = some position ∨ mapping.versionPosition? = some position →
      position < mapping.properties.size

private theorem Indexes.found_iff (indexes : Indexes naming type table entered mapping)
    {mark : PropertyDecl → Bool} (single : entered.countP mark ≤ 1) (property : PropertyMapping) :
    mapping.at? (entered.findIdx? mark) = some property ↔
      ∃ own ∈ entered, mark own = true ∧
        property = PropertyMapping.ofDecl naming type table own := by
  rw [indexes.at?_findIdx?, Option.map_eq_some_iff]
  refine exists_congr fun own => ?_
  rw [find?_eq_some_of_single single, and_assoc]
  exact and_congr_right fun _ => and_congr_right fun _ => eq_comm

theorem Indexes.faithful {decl : EntityDecl}
    (indexes : Indexes naming decl.type (decl.tableIn naming) decl.properties mapping) :
    Faithful naming decl mapping := by
  constructor
  case type => exact indexes.ofType
  case properties => exact indexes.properties
  case kept =>
    rw [indexes.properties, List.map_map]
    rfl
  case property? =>
    intro name property
    rw [IndexedMapping.property?, indexes.positions,
      indexes.found_iff (indexes.sound.countP_name_le name)]
    simp only [beq_iff_eq]
  case idProperty? =>
    intro property
    rw [IndexedMapping.idProperty?, indexes.id, indexes.found_iff indexes.sound.id]
  case versionProperty? =>
    intro property
    rw [IndexedMapping.versionProperty?, indexes.version, indexes.found_iff indexes.sound.version]
  case idValue? => exact mapping.idValue?_setAll
  case versionValue? => exact mapping.versionValue?_setAll
  case within =>
    intro position noted
    have below {mark : PropertyDecl → Bool}
        (own : decl.properties.findIdx? mark = some position) :
        position < mapping.properties.size := by
      rw [indexes.size]
      exact (List.findIdx?_eq_some_iff_getElem.mp own).1
    rcases noted with ⟨name, own⟩ | own | own
    · exact below (indexes.positions name ▸ own)
    · exact below (indexes.id ▸ own)
    · exact below (indexes.version ▸ own)

/-- A declaration is accepted exactly if its property names differ and it has at most one id and one
version; the mapping is then faithful to it. Else the complaint is about the first property with which
the declarations up to it are unsound. -/
theorem ofDecl_exact (naming : Naming) (decl : EntityDecl) :
    ((∃ mapping, ofDecl naming decl = .ok mapping) ↔ WellDeclared decl.properties) ∧
    (∀ fault, ofDecl naming decl = .error fault ↔
      ∃ front property rest config, decl.properties = front ++ property :: rest ∧
        WellDeclared front ∧ Complaint decl.type (front ++ [property]) property.name config ∧
        fault = .invalidConfig config) ∧
    ∀ mapping, ofDecl naming decl = .ok mapping → Faithful naming decl mapping := by
  refine ⟨⟨?_, exists_foldlM_enter naming decl.type (decl.tableIn naming)⟩, ?_,
    fun mapping made => (indexes_ofDecl made).faithful⟩
  · intro ⟨mapping, made⟩
    exact (indexes_ofDecl made).sound
  · intro fault
    rw [ofDecl, foldlM_eq_error]
    constructor
    · intro ⟨front, property, rest, middle, split, before, failed⟩
      have indexes : Indexes naming decl.type (decl.tableIn naming) front middle :=
        indexes_empty.foldlM_enter before
      rcases indexes.enter_cases property with ⟨config, complaint, own⟩ | ⟨_, made, _⟩
      · exact ⟨front, property, rest, config, split, indexes.sound, complaint,
          Except.error.inj (failed.symm.trans own)⟩
      · cases made.symm.trans failed
    · intro ⟨front, property, rest, config, split, sound, complaint, own⟩
      obtain ⟨middle, before⟩ := exists_foldlM_enter naming decl.type (decl.tableIn naming) sound
      have indexes : Indexes naming decl.type (decl.tableIn naming) front middle :=
        indexes_empty.foldlM_enter before
      refine ⟨front, property, rest, middle, split, before, ?_⟩
      rcases indexes.enter_cases property with ⟨other, too, failed⟩ | ⟨_, _, grown⟩
      · rw [failed, own, too.unique complaint]
      · exact absurd grown.sound complaint.not_sound

def plain (mapping : IndexedMapping) : EntityMapping :=
  ⟨mapping.type, mapping.table, mapping.properties.toList⟩

/-- Properties are checked by what was seen as they are by what was noted. -/
private theorem checkFrom_eq {names : List String} {hasId hasVersion : Bool}
    (own : mapping.type = type)
    (known : ∀ name, name ∈ names ↔ mapping.positions.contains name = true)
    (ids : hasId = mapping.idPosition?.isSome) (versions : hasVersion = mapping.versionPosition?.isSome) :
    EntityDecl.checkFrom type names hasId hasVersion more =
      (more.foldlM (enter naming) mapping).map fun _ => () := by
  induction more generalizing mapping names hasId hasVersion with
  | nil => rfl
  | cons property rest ih =>
    rw [EntityDecl.checkFrom, List.foldlM_cons, enter]
    simp only [own, known, ids, versions]
    split
    · rfl
    · split
      · rfl
      · split
        · rfl
        · change _ = (rest.foldlM (enter naming) _).map _
          refine ih rfl ?_ ?_ ?_
          · intro name
            rw [List.mem_cons, Std.HashMap.contains_insert, known, Bool.or_eq_true, beq_iff_eq]
            exact or_congr_left eq_comm
          · cases property.isId with
            | true => simp
            | false => simp
          · cases property.isVersion with
            | true => simp
            | false => simp

/-- Mappings are made and looked up with indexes as they are without them. -/
theorem ofDecl_plain (naming : Naming) (decl : EntityDecl) :
    EntityMapping.ofDecl naming decl = (ofDecl naming decl).map plain ∧
    ∀ mapping, ofDecl naming decl = .ok mapping →
      mapping.property? = mapping.plain.property? ∧
        mapping.idProperty? = mapping.plain.idProperty? ∧
        mapping.versionProperty? = mapping.plain.versionProperty? := by
  constructor
  · have checked : decl.check = (ofDecl naming decl).map fun _ => () := by
      have none : ∀ name, name ∈ ([] : List String) ↔
          (empty decl.type (decl.tableIn naming)).positions.contains name = true := by
        simp [empty]
      exact checkFrom_eq rfl none rfl rfl
    rw [EntityMapping.ofDecl, checked]
    cases made : ofDecl naming decl with
    | error fault => rfl
    | ok mapping =>
      have indexes := indexes_ofDecl made
      change Except.ok _ = Except.ok mapping.plain
      rw [plain, indexes.ofType, indexes.inTable, indexes.properties]
      rfl
  · intro mapping made
    have indexes := indexes_ofDecl made
    refine ⟨?_, ?_, ?_⟩
    · funext name
      rw [indexes.property?_eq, EntityMapping.property?, plain, indexes.properties, List.find?_map]
      rfl
    · rw [indexes.idProperty?_eq, EntityMapping.idProperty?, plain, indexes.properties,
        List.find?_map]
      rfl
    · rw [indexes.versionProperty?_eq, EntityMapping.versionProperty?, plain, indexes.properties,
        List.find?_map]
      rfl

end IndexedMapping

end WritePlan
