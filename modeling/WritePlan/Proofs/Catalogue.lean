import WritePlan.Proofs.Registration
import Mathlib.Data.List.Perm.Basic

/-! What a schema holds that was built from declarations: for each type, the mapping of the first
sound declaration of it. The order in which different types are declared makes no difference. -/
namespace WritePlan

def EntityDecl.isSound (decl : EntityDecl) : Bool := decl.check.isOk

/-- The table of the entities: the declared one, else the one that is derived from their type. -/
def EntityDecl.tableIn (decl : EntityDecl) (naming : Naming) : String :=
  decl.table.getD (naming.table decl.type)

def EntityMapping.settled (naming : Naming) (decl : EntityDecl) : EntityMapping :=
  ⟨decl.type, decl.tableIn naming,
    decl.properties.map (PropertyMapping.ofDecl naming decl.type (decl.tableIn naming))⟩

theorem EntityMapping.ofDecl_of_sound {naming : Naming} {decl : EntityDecl}
    (sound : decl.isSound = true) : ofDecl naming decl = .ok (settled naming decl) := by
  cases checked : decl.check with
  | ok => exact ofDecl_eq_ok.mpr ⟨checked, rfl⟩
  | error fault =>
    rw [EntityDecl.isSound, checked] at sound
    cases sound

private theorem EntityMapping.ofDecl_of_unsound (naming : Naming) {decl : EntityDecl}
    (unsound : decl.isSound = false) :
    ∃ fault, ofDecl naming decl = .error (.invalidConfig fault) := by
  cases checked : decl.check with
  | ok =>
    rw [EntityDecl.isSound, checked] at unsound
    cases unsound
  | error own =>
    obtain ⟨fault, rfl⟩ := EntityDecl.fault_of_checkFrom checked
    exact ⟨fault, by rw [ofDecl, checked]; rfl⟩

namespace Schema

/-- The declaration of a type that a schema goes by: the first one that is sound. -/
def declared? (decls : List EntityDecl) (type : EntityType) : Option EntityDecl :=
  decls.find? fun decl => decl.type == type && decl.isSound

variable {naming : Naming} {schema : Schema} {decls : List EntityDecl} {decl : EntityDecl}
  {type : EntityType}

theorem mem_of_declared? (found : declared? decls type = some decl) :
    decl ∈ decls ∧ decl.type = type ∧ decl.isSound = true := by
  have chosen := List.find?_some found
  rw [Bool.and_eq_true, beq_iff_eq] at chosen
  exact ⟨List.mem_of_find?_eq_some found, chosen⟩

/-- What a registration leaves behind: a known type keeps its mapping, a new one has the mapping of
its declaration if that is sound. -/
theorem after_eq (schema : Schema) (decl : EntityDecl) :
    schema.after decl =
      if (schema.mapping? decl.type).isNone && decl.isSound then
        { schema with mappings := schema.mappings ++ [.settled schema.naming decl] }
      else schema := by
  rw [after, run_enroll]
  cases known : schema.mapping? decl.type with
  | some mapping =>
    rw [register_of_known (by rw [known]; rfl)]
    rfl
  | none =>
    rw [register_of_new (by rw [known]; rfl)]
    cases sound : decl.isSound with
    | true =>
      rw [EntityMapping.ofDecl_of_sound sound]
      rfl
    | false =>
      obtain ⟨fault, refused⟩ := EntityMapping.ofDecl_of_unsound schema.naming sound
      rw [refused]
      rfl

@[simp]
theorem naming_after (schema : Schema) (decl : EntityDecl) :
    (schema.after decl).naming = schema.naming := by
  rw [after_eq]
  split
  · rfl
  · rfl

theorem mapping?_after (schema : Schema) (decl : EntityDecl) (type : EntityType) :
    (schema.after decl).mapping? type =
      (schema.mapping? type).or
        ((declared? [decl] type).map (EntityMapping.settled schema.naming)) := by
  rw [after_eq]
  by_cases same : decl.type = type
  · subst same
    cases known : schema.mapping? decl.type with
    | some mapping => simpa using known
    | none =>
      rw [mapping?] at known
      cases sound : decl.isSound with
      | true => simp [mapping?, declared?, known, sound, EntityMapping.settled]
      | false => simp [mapping?, declared?, known, sound]
  · have other : declared? [decl] type = none := by simp [declared?, same]
    rw [other]
    split
    · simp [mapping?, EntityMapping.settled, same]
    · simp

theorem mapping?_afterAll (schema : Schema) (decls : List EntityDecl) (type : EntityType) :
    (schema.afterAll decls).mapping? type =
      (schema.mapping? type).or
        ((declared? decls type).map (EntityMapping.settled schema.naming)) := by
  induction decls generalizing schema with
  | nil => simp [afterAll, declared?]
  | cons decl rest ih =>
    have first : declared? (decl :: rest) type = (declared? [decl] type).or (declared? rest type) :=
      (List.find?_append : ([decl] ++ rest).find? _ = _)
    change ((schema.after decl).afterAll rest).mapping? type = _
    rw [ih, mapping?_after, naming_after, Option.or_assoc, first, Option.map_or]

theorem mapping?_ofDecls (naming : Naming) (decls : List EntityDecl) (type : EntityType) :
    (ofDecls naming decls).mapping? type =
      (declared? decls type).map (EntityMapping.settled naming) :=
  mapping?_afterAll (empty naming) decls type

theorem mem_types : type ∈ schema.types ↔ (schema.mapping? type).isSome = true := by
  rw [types, List.mem_map, mapping?, List.find?_isSome]
  simp only [beq_iff_eq]

private theorem nodup_types_after (once : schema.types.Nodup) (decl : EntityDecl) :
    (schema.after decl).types.Nodup := by
  rw [after_eq]
  split
  · rename_i accepted
    have absent : decl.type ∉ schema.types := by
      rw [Bool.and_eq_true, Option.isNone_iff_eq_none] at accepted
      rw [mem_types, accepted.1]
      decide
    rw [types, List.map_append]
    exact once.append (List.nodup_singleton _) (List.disjoint_singleton.mpr absent)
  · exact once

theorem nodup_types_ofDecls (naming : Naming) (decls : List EntityDecl) :
    (ofDecls naming decls).types.Nodup := by
  have kept (schema : Schema) (once : schema.types.Nodup) : (schema.afterAll decls).types.Nodup := by
    induction decls generalizing schema with
    | nil => exact once
    | cons decl rest ih => exact ih (schema.after decl) (nodup_types_after once decl)
  exact kept (empty naming) List.nodup_nil

section Alike

variable {other : Schema} (alike : schema.mapping? = other.mapping?)
include alike

private theorem require_congr : schema.require = other.require := by
  funext type
  rw [require, require, alike]

private theorem follow_congr : schema.follow = other.follow := by
  funext expression place owner segment others
  induction others generalizing place owner segment with
  | nil => simp only [follow, require_congr alike]
  | cons next others ih => simp only [follow, require_congr alike, ih]

private theorem resolve_congr : schema.resolve = other.resolve := by
  funext root expression
  simp only [resolve, require_congr alike, follow_congr alike]

private theorem pathsBelow_congr : schema.pathsBelow = other.pathsBelow := by
  funext root levels level
  induction levels generalizing level with
  | zero => rfl
  | succ levels ih => simp only [pathsBelow, childPaths, require_congr alike, ih]

private theorem paths_congr : schema.paths = other.paths := by
  funext root
  simp only [paths, require_congr alike, pathsBelow_congr alike]

private theorem leafProperty_congr : schema.leafProperty = other.leafProperty := by
  funext path
  simp only [leafProperty, require_congr alike]

end Alike

/-- The two schemas answer each query in the same way, whether with a result or with an error. -/
structure AnswersAlike (schema other : Schema) : Prop where
  types : schema.types.Perm other.types
  mapping? : ∀ type, schema.mapping? type = other.mapping? type
  require : ∀ type, schema.require type = other.require type
  property : ∀ type name,
    (schema.require type >>= fun mapping => mapping.requireProperty name) =
      (other.require type >>= fun mapping => mapping.requireProperty name)
  resolve : ∀ root expression, schema.resolve root expression = other.resolve root expression
  paths : ∀ root, schema.paths root = other.paths root
  leafProperty : ∀ path, schema.leafProperty path = other.leafProperty path

theorem AnswersAlike.of_mapping? {other : Schema} (once : schema.types.Nodup)
    (too : other.types.Nodup) (alike : schema.mapping? = other.mapping?) :
    AnswersAlike schema other where
  types := by
    refine (List.perm_ext_iff_of_nodup once too).mpr ?_
    intro type
    rw [mem_types, mem_types, alike]
  mapping? type := congrFun alike type
  require type := congrFun (require_congr alike) type
  property type name := by rw [require_congr alike]
  resolve root expression := by rw [resolve_congr alike]
  paths root := by rw [paths_congr alike]
  leafProperty path := by rw [leafProperty_congr alike]

/-- Registers declarations one after the other and tells, for each, what came of it. -/
def reports (schema : Schema) : List EntityDecl → List (EntityDecl × Except Error EntityMapping)
  | [] => []
  | decl :: rest => (decl, (schema.register decl).map Prod.fst) :: (schema.after decl).reports rest

/-- Where all types are new and different, what comes of a declaration depends on it alone. -/
theorem reports_of_distinct (distinct : (decls.map EntityDecl.type).Nodup)
    (new : ∀ decl ∈ decls, schema.mapping? decl.type = none) :
    schema.reports decls = decls.map fun decl => (decl, EntityMapping.ofDecl schema.naming decl) := by
  induction decls generalizing schema with
  | nil => rfl
  | cons decl rest ih =>
    obtain ⟨own, others⟩ := List.nodup_cons.mp distinct
    have here : schema.mapping? decl.type = none := new decl (by simp)
    have later : ∀ next ∈ rest, (schema.after decl).mapping? next.type = none := by
      intro next member
      have different : decl.type ≠ next.type := by
        intro same
        exact own (List.mem_map.mpr ⟨next, member, same.symm⟩)
      have untouched := new next (List.mem_cons_of_mem decl member)
      simp [mapping?_after, untouched, declared?, different]
    have outcome : (schema.register decl).map Prod.fst = EntityMapping.ofDecl schema.naming decl := by
      rw [register_of_new (by rw [here]; rfl)]
      cases EntityMapping.ofDecl schema.naming decl with
      | error fault => rfl
      | ok mapping => rfl
    rw [reports, outcome, ih others later, naming_after, List.map_cons]

theorem declared?_eq_some (distinct : (decls.map EntityDecl.type).Nodup) :
    declared? decls type = some decl ↔ decl ∈ decls ∧ decl.type = type ∧ decl.isSound = true := by
  constructor
  · exact mem_of_declared?
  · intro ⟨member, same, sound⟩
    have found : (declared? decls type).isSome = true := by
      rw [declared?, List.find?_isSome]
      exact ⟨decl, member, by simp [same, sound]⟩
    obtain ⟨first, chosen⟩ := Option.isSome_iff_exists.mp found
    obtain ⟨present, again, _⟩ := mem_of_declared? chosen
    rw [chosen, List.inj_on_of_nodup_map distinct present member (again.trans same.symm)]

theorem declared?_of_perm {other : List EntityDecl} (perm : decls.Perm other)
    (distinct : (decls.map EntityDecl.type).Nodup) : declared? decls type = declared? other type := by
  have too : (other.map EntityDecl.type).Nodup := (perm.map _).nodup_iff.mp distinct
  ext decl
  rw [declared?_eq_some distinct, declared?_eq_some too, perm.mem_iff]

/-- Declarations of different types, sound or not, may be registered in any order: the same comes of
each, and the schemas that are built answer each query in the same way. None is refused but for
its own faults. -/
theorem registered_in_any_order (naming : Naming) {decls other : List EntityDecl}
    (perm : decls.Perm other) (distinct : (decls.map EntityDecl.type).Nodup) :
    ((empty naming).reports decls).Perm ((empty naming).reports other) ∧
    (∀ report ∈ (empty naming).reports decls,
      (∃ mapping, report.2 = .ok mapping) ∨ ∃ fault, report.2 = .error (.invalidConfig fault)) ∧
    AnswersAlike (ofDecls naming decls) (ofDecls naming other) := by
  have told : (empty naming).reports decls = _ := reports_of_distinct distinct fun _ _ => rfl
  have too : (other.map EntityDecl.type).Nodup := (perm.map _).nodup_iff.mp distinct
  refine ⟨?_, ?_, ?_⟩
  · have again : (empty naming).reports other = _ := reports_of_distinct too fun _ _ => rfl
    rw [told, again]
    exact perm.map _
  · intro report member
    rw [told] at member
    obtain ⟨decl, _, rfl⟩ := List.mem_map.mp member
    cases sound : decl.isSound with
    | true => exact .inl ⟨_, EntityMapping.ofDecl_of_sound sound⟩
    | false => exact .inr (EntityMapping.ofDecl_of_unsound _ sound)
  · refine .of_mapping? (nodup_types_ofDecls naming decls) (nodup_types_ofDecls naming other) ?_
    funext type
    rw [mapping?_ofDecls, mapping?_ofDecls, declared?_of_perm perm distinct]

/-- Orders and their lines lead to each other, whichever is declared first, and a draft has two
properties of one name. -/
private def mutualDecls : List EntityDecl :=
  [⟨⟨"order"⟩, some "orders", [.id "id", .plain "line" (.collection ⟨"order_line"⟩ .list)]⟩,
    ⟨⟨"draft"⟩, none, [.id "id", .id "id"]⟩,
    ⟨⟨"order_line"⟩, none, [.id "id", .plain "order" (.entity ⟨"order"⟩)]⟩]

theorem mutualDecls_registered_backwards :
    mutualDecls.Perm mutualDecls.reverse ∧ (mutualDecls.map EntityDecl.type).Nodup ∧
    ((empty .snake).reports mutualDecls).Perm ((empty .snake).reports mutualDecls.reverse) ∧
    AnswersAlike (ofDecls .snake mutualDecls) (ofDecls .snake mutualDecls.reverse) :=
  have perm : mutualDecls.Perm mutualDecls.reverse := (List.reverse_perm _).symm
  have distinct : (mutualDecls.map EntityDecl.type).Nodup := by decide
  have ⟨reported, _, alike⟩ := registered_in_any_order .snake perm distinct
  ⟨perm, distinct, reported, alike⟩

end Schema

end WritePlan
