import WritePlan.Mapping
import WritePlan.Text.CodeRange

/-! Schemas: the registered entity types under one naming rule, and the paths through
them. Nested types may be registered in any order; they are looked up when a path goes
through them. -/
namespace WritePlan

open Text

structure Schema where
  naming : Naming
  mappings : List EntityMapping

namespace Schema

def empty (naming : Naming) : Schema := ⟨naming, []⟩

def mapping? (schema : Schema) (type : EntityType) : Option EntityMapping :=
  schema.mappings.find? fun mapping => mapping.type == type

def require (schema : Schema) (type : EntityType) : Except Error EntityMapping :=
  match schema.mapping? type with
  | some mapping => .ok mapping
  | none => .error (.unknownEntity type)

def types (schema : Schema) : List EntityType := schema.mappings.map EntityMapping.type

/-- Registers a type, which must be new and well declared. -/
def register (schema : Schema) (decl : EntityDecl) : Except Error (EntityMapping × Schema) := do
  if (schema.mapping? decl.type).isSome then throw (.duplicateEntity decl.type)
  let mapping ← EntityMapping.ofDecl schema.naming decl
  return (mapping, { schema with mappings := schema.mappings ++ [mapping] })

/-- The texts between dots, the first apart from the others. -/
def splitDots : List Char → List Char × List (List Char)
  | [] => ([], [])
  | c :: rest =>
    let (segment, others) := splitDots rest
    if c = '.' then ([], segment :: others) else (c :: segment, others)

theorem intercalate_splitDots (text : List Char) :
    ['.'].intercalate ((splitDots text).1 :: (splitDots text).2) = text := by
  induction text with
  | nil => rfl
  | cons c rest ih =>
    unfold splitDots
    split
    rename_i segment others parts
    rw [parts] at ih
    split
    · rename_i dot
      subst dot
      simpa [List.intercalate, List.intersperse] using ih
    · cases others with
      | nil => simpa [List.intercalate] using ih
      | cons next more => simpa [List.intercalate, List.intersperse] using ih

theorem not_mem_splitDots (text : List Char) :
    ∀ part ∈ (splitDots text).1 :: (splitDots text).2, '.' ∉ part := by
  induction text with
  | nil => simp [splitDots]
  | cons c rest ih =>
    unfold splitDots
    split
    rename_i segment others parts
    rw [parts] at ih
    split
    · simpa using ih
    · rename_i other
      intro part member
      rcases List.mem_cons.mp member with same | later
      · subst same
        simpa [Ne.symm other] using ih segment (by simp)
      · exact ih part (by simp [later])

/-- The step that a segment of an expression names at an owner. -/
def hopNamed (owner : EntityMapping) (expression segment : String) : Except Error Hop := do
  if segment = "" then throw (.invalidPath (.emptySegment expression))
  let property ← owner.requireProperty segment
  match property.hop? with
  | some hop => return hop
  | none => throw (.notTraversable owner.type segment expression)

/-- Follows the segments of an expression from a place whose mapping is known. Each entity
reached must be registered, the last one too. -/
def follow (schema : Schema) (expression : String) (place : Place) (owner : EntityMapping)
    (segment : String) : List String → Except Error Path
  | [] => do
    let hop ← hopNamed owner expression segment
    let _ ← schema.require hop.target
    return ⟨place, hop⟩
  | next :: others => do
    let hop ← hopNamed owner expression segment
    let target ← schema.require hop.target
    schema.follow expression (.child place hop) target next others

def resolve (schema : Schema) (root : EntityType) (expression : String) : Except Error Path := do
  if allBlank expression.toList then throw (.invalidPath (.blank root))
  let owner ← schema.require root
  let (first, others) := splitDots expression.toList
  schema.follow expression (.root root) owner (String.ofList first) (others.map String.ofList)

theorem resolve_of_blank {schema : Schema} {root : EntityType} {expression : String}
    (blank : allBlank expression.toList = true) :
    schema.resolve root expression = .error (.invalidPath (.blank root)) := by
  simp only [resolve, blank, if_pos]
  rfl

theorem resolve_of_filled {schema : Schema} {root : EntityType} {expression : String}
    (filled : allBlank expression.toList = false) :
    schema.resolve root expression =
      schema.require root >>= fun owner =>
        schema.follow expression (.root root) owner (String.ofList (splitDots expression.toList).1)
          ((splitDots expression.toList).2.map String.ofList) := by
  simp only [resolve, filled]
  rfl

def leafProperty (schema : Schema) (path : Path) : Except Error PropertyMapping := do
  (← schema.require path.above.type).requireProperty path.leaf

def childPaths (schema : Schema) (place : Place) (owner : EntityMapping) :
    Except Error (List (Path × EntityMapping)) :=
  owner.hops.mapM fun hop => do return (⟨place, hop⟩, ← schema.require hop.target)

/-- Graphs with a cycle would otherwise have paths without end. -/
def depthLimit : Nat := 32

/-- The paths below the places of one depth, level by level, where so many more levels are
allowed. -/
def pathsBelow (schema : Schema) (root : EntityType) :
    Nat → List (Place × EntityMapping) → Except Error (List Path)
  | 0, level =>
    if level.all fun (_, owner) => owner.hops.isEmpty then .ok []
    else .error (.invalidPath (.tooDeep root depthLimit))
  | levels + 1, level => do
    let next := (← level.mapM fun (place, owner) => schema.childPaths place owner).flatten
    let deeper ← schema.pathsBelow root levels (next.map fun (path, target) => (path.place, target))
    return next.map Prod.fst ++ deeper

/-- All paths below a root type: shallower paths first, and those of one depth in the
order of declaration along the way. -/
def paths (schema : Schema) (root : EntityType) : Except Error (List Path) := do
  schema.pathsBelow root depthLimit [(.root root, ← schema.require root)]

end Schema

end WritePlan
