import WritePlan.Proofs.Catalogue
import WritePlan.Proofs.Expansion
import WritePlan.Proofs.Listing

/-! The list of all paths as a whole. It is what an expansion without a bound on its rounds comes to,
which ends for every schema, whatever cycles it has; it answers for the walks from the root, and
where it is given, parents stand before children and siblings in the order of declaration. -/
namespace WritePlan

namespace Schema

variable {schema : Schema} {root : EntityType}

/-- Takes a step from a place. Places at the depth limit must lead no further. -/
def stepFrom (schema : Schema) (root : EntityType) (place : Place) (hop : Hop) :
    Except Error (Path × EntityMapping) :=
  if 32 ≤ place.depth then .error (.invalidPath (.tooDeep root 32))
  else (schema.require hop.target).map fun target => (⟨place, hop⟩, target)

def stepsFrom (schema : Schema) (root : EntityType) (entry : Place × EntityMapping) :
    Except Error (List (Path × EntityMapping)) :=
  entry.2.hops.mapM (schema.stepFrom root entry.1)

def expand (schema : Schema) (root : EntityType) (pending : List (Place × EntityMapping)) :
    Except Error (List (Path × EntityMapping)) :=
  (pending.mapM (schema.stepsFrom root)).map List.flatten

def pendingAfter (round : List (Path × EntityMapping)) : List (Place × EntityMapping) :=
  round.map fun (path, target) => (path.place, target)

/-- Round after round, while places are pending, comes to this result in the end. -/
inductive Expands (schema : Schema) (root : EntityType) :
    List (Place × EntityMapping) → Except Error (List Path) → Prop
  | done : Expands schema root [] (.ok [])
  | refused {pending : List (Place × EntityMapping)} {fault : Error} (waiting : pending ≠ [])
    (round : schema.expand root pending = .error fault) : Expands schema root pending (.error fault)
  | onward {pending : List (Place × EntityMapping)} {next : List (Path × EntityMapping)}
    {result : Except Error (List Path)} (waiting : pending ≠ [])
    (round : schema.expand root pending = .ok next)
    (rest : Expands schema root (pendingAfter next) result) :
    Expands schema root pending (result.map (next.map Prod.fst ++ ·))

theorem Expands.result_eq {pending : List (Place × EntityMapping)}
    {result other : Except Error (List Path)} (expands : schema.Expands root pending result)
    (too : schema.Expands root pending other) : result = other := by
  induction expands generalizing other with
  | done =>
    cases too with
    | done => rfl
    | refused waiting => exact absurd rfl waiting
    | onward waiting => exact absurd rfl waiting
  | refused waiting round =>
    cases too with
    | done => exact absurd rfl waiting
    | refused _ again => exact congrArg Except.error (Except.error.inj (round.symm.trans again))
    | onward _ again => cases round.symm.trans again
  | onward waiting round _ ih =>
    cases too with
    | done => exact absurd rfl waiting
    | refused _ again => cases round.symm.trans again
    | onward _ again rest =>
      obtain rfl := Except.ok.inj (round.symm.trans again)
      rw [ih rest]

private theorem stepsFrom_of_shallow {entry : Place × EntityMapping} (shallow : entry.1.depth < 32) :
    schema.stepsFrom root entry = schema.childPaths entry.1 entry.2 := by
  rw [stepsFrom, childPaths]
  congr 1
  funext hop
  rw [stepFrom, if_neg (Nat.not_le.mpr shallow)]
  cases schema.require hop.target with
  | error fault => rfl
  | ok target => rfl

private theorem stepsFrom_at_limit {entry : Place × EntityMapping} (deep : entry.1.depth = 32) :
    schema.stepsFrom root entry =
      if entry.2.hops.isEmpty then .ok [] else .error (.invalidPath (.tooDeep root 32)) := by
  rw [stepsFrom]
  cases entry.2.hops with
  | nil => rfl
  | cons hop more =>
    rw [List.mapM_cons, stepFrom, if_pos deep.ge]
    rfl

theorem expand_of_shallow {pending : List (Place × EntityMapping)}
    (shallow : ∀ entry ∈ pending, entry.1.depth < 32) :
    schema.expand root pending =
      (pending.mapM fun (place, owner) => schema.childPaths place owner).map List.flatten := by
  rw [expand, mapM_congr_of_mem fun entry member => stepsFrom_of_shallow (shallow entry member)]

/-- At the depth limit, a round fails if any pending place leads on. -/
theorem expand_at_limit {pending : List (Place × EntityMapping)}
    (deep : ∀ entry ∈ pending, entry.1.depth = 32) :
    schema.expand root pending =
      if pending.all fun (_, owner) => owner.hops.isEmpty then .ok []
      else .error (.invalidPath (.tooDeep root 32)) := by
  induction pending with
  | nil => rfl
  | cons entry rest ih =>
    obtain ⟨place, owner⟩ := entry
    have others := ih fun other later => deep other (List.mem_cons_of_mem _ later)
    rw [expand] at others ⊢
    rw [List.mapM_cons, List.all_cons, stepsFrom_at_limit (deep (place, owner) (by simp))]
    change Except.map List.flatten (bind (if owner.hops.isEmpty then _ else _) _) =
      if owner.hops.isEmpty && _ then _ else _
    cases owner.hops.isEmpty with
    | false => rfl
    | true =>
      rw [Bool.true_and, ← others]
      cases rest.mapM (schema.stepsFrom root) with
      | error fault => rfl
      | ok lists => rfl

theorem pathsBelow_of_childPaths {levels : Nat} {level : List (Place × EntityMapping)}
    {lists : List (List (Path × EntityMapping))}
    (listed : level.mapM (fun (place, owner) => schema.childPaths place owner) = .ok lists) :
    schema.pathsBelow root (levels + 1) level =
      (schema.pathsBelow root levels (pendingAfter lists.flatten)).map
        (lists.flatten.map Prod.fst ++ ·) := by
  rw [pathsBelow, listed]
  rfl

private theorem pathsBelow_nil (levels : Nat) : schema.pathsBelow root levels [] = .ok [] := by
  induction levels with
  | zero => rfl
  | succ levels ih =>
    have none : ([] : List (Place × EntityMapping)).mapM
        (fun (place, owner) => schema.childPaths place owner) = .ok [] := rfl
    rw [pathsBelow_of_childPaths none]
    exact congrArg (Except.map _) ih

/-- The expansion of places with so many levels to go ends, with the paths below them. -/
private theorem expands_pathsBelow {levels : Nat} {pending : List (Place × EntityMapping)}
    (left : ∀ entry ∈ pending, entry.1.depth + levels = 32) :
    schema.Expands root pending (schema.pathsBelow root levels pending) := by
  induction levels generalizing pending with
  | zero =>
    by_cases waiting : pending = []
    · rw [waiting, pathsBelow_nil]
      exact .done
    have round : schema.expand root pending = _ := expand_at_limit left
    rw [pathsBelow]
    split
    · rename_i flat
      rw [if_pos flat] at round
      exact .onward waiting round .done
    · rename_i onward
      rw [if_neg onward] at round
      exact .refused waiting round
  | succ levels ih =>
    by_cases waiting : pending = []
    · rw [waiting, pathsBelow_nil]
      exact .done
    have round : schema.expand root pending = _ :=
      expand_of_shallow fun entry member => by
        have deep := left entry member
        omega
    cases listed : pending.mapM fun (place, owner) => schema.childPaths place owner with
    | error fault =>
      rw [listed] at round
      rw [pathsBelow, listed]
      exact .refused waiting round
    | ok lists =>
      rw [listed] at round
      rw [pathsBelow_of_childPaths listed]
      refine .onward waiting round (ih ?_)
      intro entry member
      obtain ⟨⟨path, target⟩, inside, rfl⟩ := List.mem_map.mp member
      obtain ⟨nested, present, own⟩ := List.mem_flatten.mp inside
      obtain ⟨above, before, below⟩ := (mem_mapM listed).mp present
      have place := ((mem_childPaths below).mp own).1
      have deep := left above before
      change path.above.depth + 1 + levels = 32
      rw [place]
      omega

private theorem expands_paths {owner : EntityMapping} (found : schema.mapping? root = some owner) :
    schema.Expands root [(.root root, owner)] (schema.paths root) := by
  rw [paths, require_eq_ok.mpr found]
  apply expands_pathsBelow
  intro entry member
  obtain rfl := List.mem_singleton.mp member
  rfl

/-- The paths of all walks from the root, each with its itinerary, in the order of walks. -/
structure AllWalks (schema : Schema) (root : EntityType) (walks : List (List Nat × Path)) :
    Prop where
  mem_iff : ∀ positions path, (positions, path) ∈ walks ↔ schema.Leads root positions path.place
  sorted : walks.Pairwise fun walk later => List.Shortlex (· < ·) walk.1 later.1

/-- Parents stand before their children, depths never decrease, and the children of one place stand
in the order in which their properties are declared. -/
structure TopDown (schema : Schema) (paths : List Path) : Prop where
  parents : ∀ before path after, paths = before ++ path :: after →
    ∀ above, path.parent? = some above → above ∈ before
  depths : paths.Pairwise fun path later => path.depth ≤ later.depth
  siblings : paths.Pairwise fun path later => path.above = later.above →
    ∃ owner position next, schema.mapping? path.above.type = some owner ∧
      owner.Exit position path.hop ∧ owner.Exit next later.hop ∧ position < next

private theorem length_le_of_shortlex {first second : List Nat}
    (before : List.Shortlex (· < ·) first second) : first.length ≤ second.length := by
  rcases List.shortlex_def.mp before with shorter | ⟨same, _⟩
  · exact shorter.le
  · exact same.le

private theorem lt_of_lex_append {front : List Nat} {position next : Nat}
    (before : List.Lex (· < ·) (front ++ [position]) (front ++ [next])) : position < next := by
  induction front with
  | nil =>
    cases before with
    | rel smaller => exact smaller
    | cons empty => cases empty
  | cons first rest ih =>
    cases before with
    | rel smaller => exact absurd smaller (Nat.lt_irrefl first)
    | cons later => exact ih later

theorem AllWalks.topDown {walks : List (List Nat × Path)} (distinct : schema.DistinctNames)
    (all : schema.AllWalks root walks) : schema.TopDown (walks.map Prod.snd) := by
  constructor
  case parents =>
    intro before path after split above parent
    obtain ⟨front, back, rfl, rfl, cut⟩ := List.map_eq_append_iff.mp split
    obtain ⟨walk, rest, rfl, rfl, rfl⟩ := List.map_eq_cons_iff.mp cut
    have leads := (all.mem_iff walk.1 walk.2).mp (by simp)
    obtain ⟨shorter, position, owner, whole, reached, _⟩ := leads.above
    rw [Path.above_of_parent? parent] at reached
    have own : shorter.length < walk.1.length := by simp [whole]
    rcases List.mem_append.mp ((all.mem_iff shorter above).mpr reached) with earlier | later
    · exact List.mem_map_of_mem (f := Prod.snd) earlier
    · -- Nothing that is shorter than the walk stands behind it.
      have behind := (List.pairwise_cons.mp (List.pairwise_append.mp all.sorted).2.1).1
      rcases List.mem_cons.mp later with same | beyond
      · rw [← same] at own
        exact absurd own (Nat.lt_irrefl _)
      · exact absurd (length_le_of_shortlex (behind _ beyond)) (Nat.not_le.mpr own)
  case depths =>
    refine List.pairwise_map.mpr (all.sorted.imp_of_mem ?_)
    intro walk later present too before
    have deep : walk.2.depth = walk.1.length := ((all.mem_iff _ _).mp present).depth_eq
    have deeper : later.2.depth = later.1.length := ((all.mem_iff _ _).mp too).depth_eq
    rw [deep, deeper]
    exact length_le_of_shortlex before
  case siblings =>
    refine List.pairwise_map.mpr (all.sorted.imp_of_mem ?_)
    intro walk later present too before same
    obtain ⟨front, position, owner, whole, reached, found, exit⟩ :=
      ((all.mem_iff _ _).mp present).above
    obtain ⟨other, next, mapping, all, again, registered, leaves⟩ :=
      ((all.mem_iff _ _).mp too).above
    rw [← same] at again registered
    obtain rfl := reached.positions_eq distinct again
    obtain rfl := Option.some.inj (found.symm.trans registered)
    rw [whole, all, List.shortlex_iff_lex (by simp)] at before
    exact ⟨owner, position, next, found, exit, leaves, lt_of_lex_append before⟩

/-- Some walk from the root comes to a type again. -/
def Cyclic (schema : Schema) (root : EntityType) : Prop :=
  ∃ positions place more again, schema.Leads root positions place ∧ more ≠ [] ∧
    schema.Leads root (positions ++ more) again ∧ again.type = place.type

theorem Cyclic.exists_leads (cyclic : schema.Cyclic root) (length : Nat) :
    ∃ positions place, schema.Leads root positions place ∧ positions.length = length := by
  obtain ⟨positions, place, more, again, leads, moves, onward, same⟩ := cyclic
  obtain ⟨longer, there, reached, _, enough⟩ := leads.exists_longer onward moves same length
  obtain ⟨between, halfway⟩ := reached.take length
  exact ⟨longer.take length, between, halfway, List.length_take_of_le enough⟩

/-- The list of all paths below a root, for every schema that was built from declarations. The
expansion ends, with this answer: that the root is not registered; else the type at the end of the
first walk of at most 32 steps whose last type is not registered; else, if there is a walk of 33
steps, that the types nest too deep; else the paths of all walks in their order, from the top down.
No list is given where a cycle is reached. -/
theorem paths_by_walks (naming : Naming) (decls : List EntityDecl) (root : EntityType) :
    let schema := ofDecls naming decls
    (schema.mapping? root = none → schema.paths root = .error (.unknownEntity root)) ∧
    ∀ owner, schema.mapping? root = some owner →
      (∀ result, schema.Expands root [(.root root, owner)] result ↔ schema.paths root = result) ∧
      ((∃ positions place, schema.Dangles root positions place) →
        ∃ positions place, schema.DanglesFirst root positions place ∧
          schema.paths root = .error (.unknownEntity place.type)) ∧
      ((¬∃ positions place, schema.Dangles root positions place) →
        (∃ positions place, schema.Leads root positions place ∧ positions.length = 33) →
          schema.paths root = .error (.invalidPath (.tooDeep root 32))) ∧
      ((¬∃ positions place, schema.Dangles root positions place) →
        (¬∃ positions place, schema.Leads root positions place ∧ positions.length = 33) →
          ∃ walks, schema.AllWalks root walks ∧ schema.TopDown (walks.map Prod.snd) ∧
            schema.paths root = .ok (walks.map Prod.snd)) ∧
      (schema.Cyclic root → ∀ paths, schema.paths root ≠ .ok paths) := by
  intro schema
  constructor
  · intro missing
    rw [paths, require, missing]
    rfl
  · intro owner found
    refine ⟨?_, ?_⟩
    · intro result
      have ends := expands_paths found
      exact ⟨ends.result_eq, fun same => same ▸ ends⟩
    have answer := paths_answer found
    generalize schema.paths root = result at answer ⊢
    cases answer with
    | unknown first =>
      refine ⟨fun _ => ⟨_, _, first, rfl⟩, ?_, ?_, ?_⟩
      · intro closed
        exact absurd ⟨_, _, first.1⟩ closed
      · intro closed
        exact absurd ⟨_, _, first.1⟩ closed
      · intro _ paths same
        cases same
    | tooDeep closed leads long =>
      refine ⟨?_, fun _ _ => rfl, ?_, ?_⟩
      · rintro ⟨positions, place, dangles⟩
        exact absurd dangles (closed positions place)
      · intro _ shallow
        exact absurd ⟨_, _, leads, long⟩ shallow
      · intro _ paths same
        cases same
    | @all closed shallow walks mem_iff sorted =>
      have all : schema.AllWalks root walks := by
        refine ⟨?_, sorted⟩
        intro positions path
        rw [mem_iff, and_iff_left_iff_imp]
        intro leads
        obtain ⟨front, position, _, rfl, _⟩ := leads.above
        simp
      refine ⟨?_, ?_, ?_, ?_⟩
      · rintro ⟨positions, place, dangles⟩
        exact absurd dangles (closed positions place)
      · rintro _ ⟨positions, place, leads, long⟩
        exact absurd long (shallow positions place leads)
      · intro _ _
        exact ⟨walks, all, all.topDown (distinctNames_ofDecls naming decls), rfl⟩
      · intro cyclic
        obtain ⟨positions, place, leads, long⟩ := cyclic.exists_leads 33
        exact absurd long (shallow positions place leads)

/-- Employees whose managers are employees too, and whose offices are not registered. -/
private def employee : EntityDecl :=
  ⟨⟨"employee"⟩, none, [.id "id", .plain "manager" (.entity ⟨"employee"⟩),
    .plain "office" (.entity ⟨"office"⟩)]⟩

private def manager : Hop := ⟨"manager", ⟨"employee"⟩, false, false, false⟩

private def office : Hop := ⟨"office", ⟨"office"⟩, false, false, false⟩

/-- The missing office is complained about, although the managers never end. -/
theorem employee_by_walks :
    (ofDecls .snake [employee]).mapping? ⟨"employee"⟩ = some (.settled .snake employee) ∧
    (ofDecls .snake [employee]).Dangles ⟨"employee"⟩ [2] (.child (.root ⟨"employee"⟩) office) ∧
    (ofDecls .snake [employee]).Cyclic ⟨"employee"⟩ ∧
    (∃ positions place, (ofDecls .snake [employee]).DanglesFirst ⟨"employee"⟩ positions place ∧
      (ofDecls .snake [employee]).paths ⟨"employee"⟩ = .error (.unknownEntity place.type)) ∧
    ∀ paths, (ofDecls .snake [employee]).paths ⟨"employee"⟩ ≠ .ok paths :=
  have found : (ofDecls .snake [employee]).mapping? ⟨"employee"⟩ =
      some (.settled .snake employee) := rfl
  have dangles : (ofDecls .snake [employee]).Dangles ⟨"employee"⟩ [2]
      (.child (.root ⟨"employee"⟩) office) :=
    ⟨.step .start found ⟨_, rfl, rfl⟩, by decide, rfl⟩
  have reached : (ofDecls .snake [employee]).Leads ⟨"employee"⟩ [1]
      (.child (.root ⟨"employee"⟩) manager) := .step .start found ⟨_, rfl, rfl⟩
  have cyclic : (ofDecls .snake [employee]).Cyclic ⟨"employee"⟩ :=
    ⟨[], .root ⟨"employee"⟩, [1], _, .start, by decide, reached, rfl⟩
  have ⟨_, missing, _, _, endless⟩ := (paths_by_walks .snake [employee] ⟨"employee"⟩).2 _ found
  ⟨found, dangles, cyclic, missing ⟨_, _, dangles⟩, endless cyclic⟩

end Schema

end WritePlan
