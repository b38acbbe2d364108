import WritePlan.Proofs.Outcomes
import WritePlan.Schema
import Mathlib.Data.List.Nodup

namespace WritePlan

namespace Schema

/-- Registers a type in the schema at hand. The schema is kept however the registration ends. -/
def enroll (decl : EntityDecl) : EStateM Error Schema EntityMapping := do
  let schema ← get
  if (schema.mapping? decl.type).isSome then throw (.duplicateEntity decl.type)
  let mapping ← MonadExcept.ofExcept (EntityMapping.ofDecl schema.naming decl)
  modify fun schema => { schema with mappings := schema.mappings ++ [mapping] }
  return mapping

def after (schema : Schema) (decl : EntityDecl) : Schema :=
  match (enroll decl).run schema with
  | .ok _ next => next
  | .error _ left => left

/-- The schema that registrations leave behind, some of which may be refused. -/
def afterAll (schema : Schema) (decls : List EntityDecl) : Schema := decls.foldl after schema

/-- The schema that is built by registering declarations, some of which may be refused. -/
def ofDecls (naming : Naming) (decls : List EntityDecl) : Schema := (empty naming).afterAll decls

variable {schema : Schema} {decl : EntityDecl}

theorem register_of_known (known : (schema.mapping? decl.type).isSome = true) :
    schema.register decl = .error (.duplicateEntity decl.type) := by
  simp only [register, known, if_pos]
  rfl

theorem register_of_new (new : (schema.mapping? decl.type).isSome = false) :
    schema.register decl = (EntityMapping.ofDecl schema.naming decl).map fun mapping =>
      (mapping, { schema with mappings := schema.mappings ++ [mapping] }) := by
  simp only [register, new]
  cases EntityMapping.ofDecl schema.naming decl with
  | error fault => rfl
  | ok mapping => rfl

/-- Registering in a schema at hand gives what registration gives, and the same schema where that
gives none. -/
theorem run_enroll (schema : Schema) (decl : EntityDecl) :
    (enroll decl).run schema =
      match schema.register decl with
      | .ok (mapping, next) => .ok mapping next
      | .error fault => .error fault schema := by
  rw [enroll, EStateM.run_bind, EStateM.run_get]
  cases known : (schema.mapping? decl.type).isSome with
  | true =>
    rw [register_of_known known]
    simp only [known]
    rfl
  | false =>
    rw [register_of_new known]
    simp only [known]
    cases EntityMapping.ofDecl schema.naming decl with
    | error fault => rfl
    | ok mapping => rfl

/-- A registration leaves the schema as it was, or appends the mapping of a well declared type that
was not there. -/
theorem after_cases (schema : Schema) (decl : EntityDecl) :
    schema.after decl = schema ∨
      ∃ mapping, schema.mapping? decl.type = none ∧
        EntityMapping.ofDecl schema.naming decl = .ok mapping ∧
        schema.after decl = { schema with mappings := schema.mappings ++ [mapping] } := by
  rw [after, run_enroll]
  cases known : (schema.mapping? decl.type).isSome with
  | true =>
    rw [register_of_known known]
    exact .inl rfl
  | false =>
    have new : schema.mapping? decl.type = none := by simpa using known
    rw [register_of_new known]
    cases made : EntityMapping.ofDecl schema.naming decl with
    | error fault => exact .inl rfl
    | ok mapping => exact .inr ⟨mapping, new, rfl, rfl⟩

theorem mem_of_mapping? {type : EntityType} {mapping : EntityMapping}
    (found : schema.mapping? type = some mapping) :
    mapping ∈ schema.mappings ∧ mapping.type = type := by
  refine ⟨List.mem_of_find?_eq_some found, ?_⟩
  have same := List.find?_some found
  exact beq_iff_eq.mp same

end Schema

private theorem EntityDecl.names_of_checkFrom {type : EntityType} {names : List String}
    {hasId hasVersion : Bool} {properties : List PropertyDecl}
    (checked : checkFrom type names hasId hasVersion properties = .ok ()) :
    (properties.map PropertyDecl.name).Nodup ∧ ∀ property ∈ properties, property.name ∉ names := by
  induction properties generalizing names hasId hasVersion with
  | nil => simp
  | cons property rest ih =>
    unfold checkFrom at checked
    split at checked
    · cases checked
    · rename_i fresh
      split at checked
      · cases checked
      · split at checked
        · cases checked
        · obtain ⟨distinct, apart⟩ := ih checked
          have new : property.name ∉ rest.map PropertyDecl.name := by
            intro repeated
            obtain ⟨other, member, same⟩ := List.mem_map.mp repeated
            exact apart other member (same ▸ List.mem_cons_self)
          refine ⟨List.nodup_cons.mpr ⟨new, distinct⟩, ?_⟩
          intro other member
          rcases List.mem_cons.mp member with rfl | later
          · exact fresh
          · exact fun seen => apart other later (List.mem_cons_of_mem property.name seen)

theorem EntityDecl.fault_of_checkFrom {type : EntityType} {names : List String}
    {hasId hasVersion : Bool} {properties : List PropertyDecl} {fault : Error}
    (refused : checkFrom type names hasId hasVersion properties = .error fault) :
    ∃ config, fault = .invalidConfig config := by
  induction properties generalizing names hasId hasVersion with
  | nil => cases refused
  | cons property rest ih =>
    unfold checkFrom at refused
    split at refused
    · cases refused
      exact ⟨_, rfl⟩
    · split at refused
      · cases refused
        exact ⟨_, rfl⟩
      · split at refused
        · cases refused
          exact ⟨_, rfl⟩
        · exact ih refused

theorem EntityMapping.ofDecl_eq_ok {naming : Naming} {decl : EntityDecl} {mapping : EntityMapping} :
    ofDecl naming decl = .ok mapping ↔
      decl.check = .ok () ∧
        mapping = ⟨decl.type, decl.table.getD (naming.table decl.type),
          decl.properties.map
            (PropertyMapping.ofDecl naming decl.type (decl.table.getD (naming.table decl.type)))⟩ := by
  rw [ofDecl, bind_eq_ok]
  constructor
  · intro made
    obtain ⟨_, checked, settled⟩ := made
    cases settled
    exact ⟨checked, rfl⟩
  · intro found
    obtain ⟨checked, rfl⟩ := found
    exact ⟨(), checked, rfl⟩

def EntityMapping.DistinctNames (mapping : EntityMapping) : Prop :=
  (mapping.properties.map PropertyMapping.name).Nodup

theorem EntityMapping.distinctNames_of_ofDecl {naming : Naming} {decl : EntityDecl}
    {mapping : EntityMapping} (made : ofDecl naming decl = .ok mapping) : mapping.DistinctNames := by
  obtain ⟨checked, rfl⟩ := ofDecl_eq_ok.mp made
  have distinct := (EntityDecl.names_of_checkFrom checked).1
  rw [DistinctNames, List.map_map]
  exact distinct

namespace Schema

variable {schema : Schema}

def DistinctNames (schema : Schema) : Prop := ∀ mapping ∈ schema.mappings, mapping.DistinctNames

theorem DistinctNames.after (distinct : schema.DistinctNames) (decl : EntityDecl) :
    (schema.after decl).DistinctNames := by
  rcases schema.after_cases decl with same | ⟨mapping, _, made, grown⟩
  · rw [same]
    exact distinct
  · rw [grown]
    intro other member
    rcases List.mem_append.mp member with old | new
    · exact distinct other old
    · obtain rfl := List.mem_singleton.mp new
      exact EntityMapping.distinctNames_of_ofDecl made

theorem DistinctNames.afterAll (distinct : schema.DistinctNames) (decls : List EntityDecl) :
    (schema.afterAll decls).DistinctNames := by
  induction decls generalizing schema with
  | nil => exact distinct
  | cons decl rest ih => exact ih (distinct.after decl)

theorem distinctNames_ofDecls (naming : Naming) (decls : List EntityDecl) :
    (ofDecls naming decls).DistinctNames := by
  have bare : (Schema.empty naming).DistinctNames := by
    intro mapping member
    cases member
  exact bare.afterAll decls

/-- What is registered in one schema is registered in the other, in the same way. -/
def Extends (schema later : Schema) : Prop :=
  ∀ type mapping, schema.mapping? type = some mapping → later.mapping? type = some mapping

theorem extends_after (schema : Schema) (decl : EntityDecl) : schema.Extends (schema.after decl) := by
  intro type mapping found
  rcases schema.after_cases decl with same | ⟨new, _, _, grown⟩
  · rw [same]
    exact found
  · rw [grown, mapping?, List.find?_append]
    rw [mapping?] at found
    rw [found]
    rfl

theorem extends_afterAll (schema : Schema) (decls : List EntityDecl) :
    schema.Extends (schema.afterAll decls) := by
  induction decls generalizing schema with
  | nil => exact fun _ _ found => found
  | cons decl rest ih =>
    intro type mapping found
    exact ih (schema.after decl) type mapping (extends_after schema decl type mapping found)

namespace Extends

variable {later : Schema} (grown : schema.Extends later)
include grown

theorem require_kept (type : EntityType) : Kept (schema.require type) (later.require type) := by
  intro settled
  cases found : schema.mapping? type with
  | none =>
    have missing : schema.require type = .error (.unknownEntity type) := by rw [require, found]
    exact absurd missing (settled type)
  | some mapping => rw [require, require, found, grown type mapping found]

private theorem follow_kept (expression : String) (place : Place) (owner : EntityMapping)
    (segment : String) (others : List String) :
    Kept (schema.follow expression place owner segment others)
      (later.follow expression place owner segment others) := by
  induction others generalizing place owner segment with
  | nil =>
    refine Kept.bind (.refl _) fun hop _ => ?_
    exact (grown.require_kept hop.target).bind fun _ _ => .refl _
  | cons next others ih =>
    refine Kept.bind (.refl _) fun hop _ => ?_
    exact (grown.require_kept hop.target).bind fun target _ => ih (.child place hop) target next

theorem resolve_kept (root : EntityType) (expression : String) :
    Kept (schema.resolve root expression) (later.resolve root expression) := by
  cases blank : Text.allBlank expression.toList with
  | true =>
    rw [resolve_of_blank blank, resolve_of_blank blank]
    exact .refl _
  | false =>
    rw [resolve_of_filled blank, resolve_of_filled blank]
    exact (grown.require_kept root).bind fun owner _ => grown.follow_kept expression _ owner _ _

private theorem childPaths_kept (place : Place) (owner : EntityMapping) :
    Kept (schema.childPaths place owner) (later.childPaths place owner) :=
  Kept.mapM fun hop _ => (grown.require_kept hop.target).bind fun _ _ => .refl _

private theorem pathsBelow_kept (root : EntityType) (levels : Nat)
    (level : List (Place × EntityMapping)) :
    Kept (schema.pathsBelow root levels level) (later.pathsBelow root levels level) := by
  induction levels generalizing level with
  | zero => exact .refl _
  | succ levels ih =>
    refine Kept.bind (.mapM fun entry _ => grown.childPaths_kept entry.1 entry.2) fun lists _ => ?_
    exact (ih _).bind fun _ _ => .refl _

theorem paths_kept (root : EntityType) : Kept (schema.paths root) (later.paths root) :=
  (grown.require_kept root).bind fun owner _ => grown.pathsBelow_kept root depthLimit [(.root root, owner)]

end Extends

/-- A refused registration leaves the schema as it was. It is refused because the type is already
there or badly declared. -/
theorem error_of_enroll {decl : EntityDecl} {fault : Error} {left : Schema}
    (refused : (enroll decl).run schema = .error fault left) :
    left = schema ∧ (fault = .duplicateEntity decl.type ∨ ∃ config, fault = .invalidConfig config) := by
  rw [run_enroll] at refused
  cases known : (schema.mapping? decl.type).isSome with
  | true =>
    rw [register_of_known known] at refused
    cases refused
    exact ⟨rfl, .inl rfl⟩
  | false =>
    rw [register_of_new known] at refused
    cases made : EntityMapping.ofDecl schema.naming decl with
    | error own =>
      rw [made] at refused
      cases refused
      refine ⟨rfl, .inr ?_⟩
      cases checked : decl.check with
      | error fault =>
        rw [EntityMapping.ofDecl, checked] at made
        cases made
        exact EntityDecl.fault_of_checkFrom checked
      | ok =>
        rw [EntityMapping.ofDecl_eq_ok.mpr ⟨checked, rfl⟩] at made
        cases made
    | ok mapping =>
      rw [made] at refused
      cases refused

/-- Whatever else is registered, or refused, after a query of a path or of all paths was answered,
the answer stays the same, unless it was that a type is not registered; so does the mapping of a
registered type. A registration that is refused changes nothing at all. -/
theorem answers_kept (schema : Schema) (decls : List EntityDecl) :
    (∀ root expression, Settled (schema.resolve root expression) →
      (schema.afterAll decls).resolve root expression = schema.resolve root expression) ∧
    (∀ root, Settled (schema.paths root) →
      (schema.afterAll decls).paths root = schema.paths root) ∧
    (∀ type mapping, schema.mapping? type = some mapping →
      (schema.afterAll decls).mapping? type = some mapping) ∧
    ∀ decl fault left, (enroll decl).run schema = .error fault left →
      left = schema ∧
        (fault = .duplicateEntity decl.type ∨ ∃ config, fault = .invalidConfig config) := by
  have grown := extends_afterAll schema decls
  exact ⟨grown.resolve_kept, grown.paths_kept, grown, fun _ _ _ => error_of_enroll⟩

/-- A schema in which lines are declared and not yet registered. -/
private def unfinished : Schema :=
  ofDecls .snake
    [⟨⟨"order"⟩, none, [.plain "address" (.embedded ⟨"address"⟩ none),
        .plain "line" (.collection ⟨"order_line"⟩ .list)]⟩,
      ⟨⟨"address"⟩, none, [.plain "street" (.simple .text)]⟩]

private def furtherDecls : List EntityDecl :=
  [⟨⟨"order"⟩, some "orders", []⟩, ⟨⟨"order_line"⟩, none, [.id "id"]⟩]

private def embeddedAddress : Path :=
  ⟨.root ⟨"order"⟩, ⟨"address", ⟨"address"⟩, false, false, true⟩⟩

/-- The second declaration of orders is refused and that of lines accepted. Neither changes what was
answered about addresses. -/
theorem embeddedAddress_kept :
    unfinished.resolve ⟨"order"⟩ "address" = .ok embeddedAddress ∧
    Settled (unfinished.resolve ⟨"order"⟩ "address") ∧
    (unfinished.afterAll furtherDecls).resolve ⟨"order"⟩ "address" = .ok embeddedAddress :=
  have resolved : unfinished.resolve ⟨"order"⟩ "address" = .ok embeddedAddress := rfl
  have settled : Settled (unfinished.resolve ⟨"order"⟩ "address") := by
    intro type missing
    rw [resolved] at missing
    cases missing
  ⟨resolved, settled, ((answers_kept unfinished furtherDecls).1 _ _ settled).trans resolved⟩

end Schema

end WritePlan
