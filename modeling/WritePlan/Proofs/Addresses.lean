import WritePlan.Proofs.Listing

/-! Dotted forms as addresses: a path is found again by its own dotted form where the names along it
can be told from the form. Declared names are not restricted, so some paths have no address. -/
namespace WritePlan

open Text

namespace Path

variable {path other : Path}

/-- No name along the path holds a dot. -/
def Dotless (path : Path) : Prop := ∀ name ∈ path.segments, '.' ∉ name.toList

/-- The dotted form of the path is an expression for it: no name along the path holds a dot or is
empty, and a name that stands alone is not blank. -/
structure Addressable (path : Path) : Prop where
  dotless : path.Dotless
  filled : ∀ name ∈ path.segments, name ≠ ""
  visible : ∀ name, path.segments = [name] → allBlank name.toList = false

theorem segments_ne_nil (path : Path) : path.segments ≠ [] :=
  List.append_ne_nil_of_right_ne_nil _ (List.cons_ne_nil _ _)

theorem segmentsOf_dotted (dotless : path.Dotless) : Schema.segmentsOf path.dotted = path.segments :=
  Schema.segmentsOf_intercalate path.segments_ne_nil dotless

private theorem segments_of_dotted (dotless : path.Dotless) (too : other.Dotless)
    (same : path.dotted = other.dotted) : path.segments = other.segments := by
  rw [← segmentsOf_dotted dotless, ← segmentsOf_dotted too, same]

private theorem dotted_of_single {name : String}
    (alone : path.segments = [name]) : path.dotted = name := by
  rw [dotted, alone]
  rfl

/-- Only the dotted form of a blank name that stands alone is blank: where there are more names,
there is a dot. -/
private theorem allBlank_dotted
    (visible : ∀ name, path.segments = [name] → allBlank name.toList = false) :
    allBlank path.dotted.toList = false := by
  cases names : path.segments with
  | nil => exact absurd names path.segments_ne_nil
  | cons first rest =>
    cases rest with
    | nil =>
      rw [dotted_of_single names]
      exact visible first names
    | cons next others =>
      have dot : '.' ∈ path.dotted.toList := by
        rw [dotted, names, String.toList_intercalate]
        simp [List.intercalate]
      exact List.all_eq_false.mpr ⟨'.', dot, by decide⟩

end Path

namespace Schema

variable {schema : Schema} {root : EntityType} {path : Path}

/-- The paths below a root that a schema gives out: those in the list of all paths, those that
expressions resolve to, and the enclosing paths of such paths. -/
inductive HandsOut (schema : Schema) (root : EntityType) : Path → Prop
  | listed {paths : List Path} {path : Path} (all : schema.paths root = .ok paths)
    (member : path ∈ paths) : HandsOut schema root path
  | resolved {expression : String} {path : Path} (found : schema.resolve root expression = .ok path) :
    HandsOut schema root path
  | parent {path above : Path} (below : HandsOut schema root path)
    (parent : path.parent? = some above) : HandsOut schema root above

theorem HandsOut.hasPath (distinct : schema.DistinctNames) (handed : schema.HandsOut root path) :
    schema.HasPath root path := by
  induction handed with
  | listed all member => exact ((mem_paths distinct all).1 _).mp member
  | resolved found => exact ((resolve_eq_ok distinct).mp found).1
  | parent _ parent ih => exact ih.parent parent

private theorem resolve_dotted (distinct : schema.DistinctNames) (has : schema.HasPath root path)
    (addressable : path.Addressable) : schema.resolve root path.dotted = .ok path := by
  have names := Path.segmentsOf_dotted addressable.dotless
  refine (resolve_eq_ok distinct).mpr ⟨has, names.symm, ?_, ?_⟩
  · exact Path.allBlank_dotted addressable.visible
  · rw [names]
    exact addressable.filled

private theorem addressable_of_resolve_dotted (distinct : schema.DistinctNames) {found : Path}
    (resolved : schema.resolve root path.dotted = .ok found) (same : (found == path) = true) :
    path.Addressable := by
  obtain ⟨_, names, visible, filled⟩ := (resolve_eq_ok distinct).mp resolved
  rw [Path.beq_iff_segments.mp same] at names
  constructor
  · intro name member
    exact dotless_segmentsOf (names ▸ member)
  · intro name member
    exact filled name (names ▸ member)
  · intro name alone
    rw [← Path.dotted_of_single alone]
    exact visible

/-- A path that a schema gives out below a root is resolved from its own dotted form exactly if it is
addressable. Paths without dots in their names that have the same dotted form are the same. -/
theorem resolve_dotted_iff (naming : Naming) (decls : List EntityDecl) {root : EntityType}
    {path : Path} (handed : (ofDecls naming decls).HandsOut root path) :
    ((∃ found, (ofDecls naming decls).resolve root path.dotted = .ok found ∧
        (found == path) = true) ↔ path.Addressable) ∧
      ∀ other, (ofDecls naming decls).HandsOut root other → path.Dotless → other.Dotless →
        path.dotted = other.dotted → path = other := by
  have distinct := distinctNames_ofDecls naming decls
  have has := handed.hasPath distinct
  constructor
  · constructor
    · intro addressed
      obtain ⟨found, resolved, same⟩ := addressed
      exact addressable_of_resolve_dotted distinct resolved same
    · intro addressable
      exact ⟨path, resolve_dotted distinct has addressable, Path.beq_iff_segments.mpr rfl⟩
  · intro other handed dotless too same
    exact has.eq_of_segments distinct (handed.hasPath distinct)
      (Path.segments_of_dotted dotless too same)

/-- Property names with dots: one that could be read as two other names, and one that could not. -/
private def shipping : List EntityDecl :=
  [⟨⟨"order"⟩, none, [.plain "ship" (.entity ⟨"shipment"⟩), .plain "ship.to" (.entity ⟨"address"⟩),
      .plain "bill.to" (.entity ⟨"address"⟩)]⟩,
    ⟨⟨"shipment"⟩, none, [.plain "to" (.entity ⟨"address"⟩)]⟩,
    ⟨⟨"address"⟩, none, [.plain "street" (.simple .text)]⟩]

/-- A path of one property, which leads from an order to an entity of the type. -/
private def fromOrder (name : String) (target : EntityType) : Path :=
  ⟨.root ⟨"order"⟩, ⟨name, target, false, false, false⟩⟩

private def shipTo : Path :=
  ⟨(fromOrder "ship" ⟨"shipment"⟩).place, ⟨"to", ⟨"address"⟩, false, false, false⟩⟩

private theorem shipping_paths :
    (ofDecls .snake shipping).paths ⟨"order"⟩ =
      .ok [fromOrder "ship" ⟨"shipment"⟩, fromOrder "ship.to" ⟨"address"⟩,
        fromOrder "bill.to" ⟨"address"⟩, shipTo] := rfl

theorem shipTo_resolved :
    (ofDecls .snake shipping).HandsOut ⟨"order"⟩ shipTo ∧
    ∃ found, (ofDecls .snake shipping).resolve ⟨"order"⟩ shipTo.dotted = .ok found ∧
      (found == shipTo) = true :=
  have handed : (ofDecls .snake shipping).HandsOut ⟨"order"⟩ shipTo :=
    .listed shipping_paths (by simp)
  have addressable : shipTo.Addressable := by
    constructor
    · unfold Path.Dotless
      decide
    · decide
    · intro name alone
      cases alone
  ⟨handed, (resolve_dotted_iff .snake shipping handed).1.mpr addressable⟩

/-- The list of all paths holds one that its dotted form does not resolve to, because the form is
read as two names. It also holds two paths, of one name and of two, that have one dotted form. -/
theorem billTo_not_resolved :
    (ofDecls .snake shipping).HandsOut ⟨"order"⟩ (fromOrder "bill.to" ⟨"address"⟩) ∧
    (ofDecls .snake shipping).resolve ⟨"order"⟩ (fromOrder "bill.to" ⟨"address"⟩).dotted =
      .error (.unknownProperty ⟨"order"⟩ "bill") ∧
    (ofDecls .snake shipping).HandsOut ⟨"order"⟩ (fromOrder "ship.to" ⟨"address"⟩) ∧
    (ofDecls .snake shipping).HandsOut ⟨"order"⟩ shipTo ∧
    (fromOrder "ship.to" ⟨"address"⟩ == shipTo) = false ∧
    (fromOrder "ship.to" ⟨"address"⟩).dotted = shipTo.dotted :=
  ⟨.listed shipping_paths (by simp), rfl, .listed shipping_paths (by simp),
    .listed shipping_paths (by simp), rfl, rfl⟩

end Schema

end WritePlan
