import WritePlan.Proofs.Walks
import Mathlib.Data.List.Induction
import Mathlib.Data.List.Shortlex

/-! Itineraries: walks from a root, each told by the positions at which the properties along it are
declared. A walk goes on from registered types only, but may end anywhere. Shorter itineraries come
first, and those of one length in the order of their positions. -/
namespace WritePlan

namespace EntityMapping

variable {mapping : EntityMapping}

def exits (mapping : EntityMapping) : List (Nat × Hop) :=
  mapping.properties.zipIdx.filterMap fun entry => entry.1.hop?.map fun hop => (entry.2, hop)

/-- The property that is declared at the position leads on by the step. -/
def Exit (mapping : EntityMapping) (position : Nat) (hop : Hop) : Prop :=
  ∃ property, mapping.properties[position]? = some property ∧ property.hop? = some hop

theorem mem_exits {position : Nat} {hop : Hop} :
    (position, hop) ∈ mapping.exits ↔ mapping.Exit position hop := by
  rw [exits, List.mem_filterMap]
  constructor
  · intro found
    obtain ⟨⟨property, place⟩, member, made⟩ := found
    obtain ⟨step, leads, same⟩ := Option.map_eq_some_iff.mp made
    cases same
    exact ⟨property, List.mem_zipIdx_iff_getElem?.mp member, leads⟩
  · intro ⟨property, declared, leads⟩
    refine ⟨(property, position), List.mem_zipIdx_iff_getElem?.mpr declared, ?_⟩
    rw [leads]
    rfl

theorem map_snd_exits : mapping.exits.map Prod.snd = mapping.hops := by
  rw [exits, hops, List.map_filterMap]
  conv_rhs => rw [← List.zipIdx_map_fst 0 mapping.properties, List.filterMap_map]
  congr 1
  funext entry
  simp [Function.comp_def]

private theorem exits_pairwise : mapping.exits.Pairwise fun exit later => exit.1 < later.1 := by
  have ascending : mapping.properties.zipIdx.Pairwise fun entry later => entry.2 < later.2 := by
    rw [← List.pairwise_map (f := Prod.snd) (R := (· < ·)), List.zipIdx_map_snd]
    exact List.pairwise_lt_range'
  refine List.pairwise_filterMap.mpr (ascending.imp ?_)
  intro entry later before exit made next following
  obtain ⟨_, _, rfl⟩ := Option.map_eq_some_iff.mp made
  obtain ⟨_, _, rfl⟩ := Option.map_eq_some_iff.mp following
  exact before

theorem Exit.position_eq (distinct : mapping.DistinctNames) {position other : Nat} {hop : Hop}
    (exit : mapping.Exit position hop) (too : mapping.Exit other hop) : position = other := by
  obtain ⟨property, here, leads⟩ := exit
  obtain ⟨again, there, same⟩ := too
  have names : property.name = again.name := (name_of_hop? leads).symm.trans (name_of_hop? same)
  obtain ⟨inside, own⟩ := List.getElem?_eq_some_iff.mp here
  obtain ⟨within, its⟩ := List.getElem?_eq_some_iff.mp there
  have first : position < (mapping.properties.map PropertyMapping.name).length := by simpa using inside
  have second : other < (mapping.properties.map PropertyMapping.name).length := by simpa using within
  have equal : (mapping.properties.map PropertyMapping.name)[position] =
      (mapping.properties.map PropertyMapping.name)[other] := by
    rw [List.getElem_map, List.getElem_map, own, its, names]
  exact (List.Nodup.getElem_inj_iff distinct).mp equal

end EntityMapping

namespace Schema

variable {schema : Schema} {root : EntityType} {positions : List Nat} {place : Place}

/-- The properties at these positions lead from the root to the place, each declared by the
registered type that the one before leads to. -/
inductive Leads (schema : Schema) (root : EntityType) : List Nat → Place → Prop
  | start : Leads schema root [] (.root root)
  | step {positions : List Nat} {place : Place} {owner : EntityMapping} {position : Nat} {hop : Hop}
    (before : Leads schema root positions place) (found : schema.mapping? place.type = some owner)
    (exit : owner.Exit position hop) : Leads schema root (positions ++ [position]) (.child place hop)

namespace Leads

theorem depth_eq (leads : schema.Leads root positions place) : place.depth = positions.length := by
  induction leads with
  | start => rfl
  | step _ _ _ ih => simp [Place.depth, ih]

/-- How a walk that takes at least one step ends. -/
theorem snoc {position : Nat} (leads : schema.Leads root (positions ++ [position]) place) :
    ∃ above owner hop, place = .child above hop ∧ schema.Leads root positions above ∧
      schema.mapping? above.type = some owner ∧ owner.Exit position hop := by
  generalize taken : positions ++ [position] = all at leads
  cases leads with
  | start => simp at taken
  | step before found exit =>
    obtain ⟨rfl, same⟩ := List.append_inj' taken rfl
    obtain rfl := List.singleton_inj.mp same
    exact ⟨_, _, _, rfl, before, found, exit⟩

theorem above {path : Path} (leads : schema.Leads root positions path.place) :
    ∃ front position owner, positions = front ++ [position] ∧ schema.Leads root front path.above ∧
      schema.mapping? path.above.type = some owner ∧ owner.Exit position path.hop := by
  generalize reached : path.place = place at leads
  cases leads with
  | start => cases reached
  | step before found exit =>
    cases reached
    exact ⟨_, _, _, rfl, before, found, exit⟩

/-- Only the empty itinerary ends at the root. -/
theorem exists_path (leads : schema.Leads root positions place) (moves : positions ≠ []) :
    ∃ path : Path, path.place = place := by
  cases leads with
  | start => exact absurd rfl moves
  | @step _ place _ _ hop => exact ⟨⟨place, hop⟩, rfl⟩

theorem place_eq {other : Place} (leads : schema.Leads root positions place)
    (too : schema.Leads root positions other) : place = other := by
  induction leads generalizing other with
  | start =>
    generalize none : [] = positions at too
    cases too with
    | start => rfl
    | step => simp at none
  | step before found exit ih =>
    obtain ⟨above, owner, hop, rfl, onward, registered, again⟩ := too.snoc
    obtain rfl := ih onward
    obtain rfl := Option.some.inj (found.symm.trans registered)
    obtain ⟨property, declared, step⟩ := exit
    obtain ⟨same, twice, next⟩ := again
    obtain rfl := Option.some.inj (declared.symm.trans twice)
    obtain rfl := Option.some.inj (step.symm.trans next)
    rfl

/-- Where names are distinct, a place has one itinerary at most. -/
theorem positions_eq (distinct : schema.DistinctNames) {others : List Nat}
    (leads : schema.Leads root positions place) (too : schema.Leads root others place) :
    positions = others := by
  induction leads generalizing others with
  | start =>
    cases too with
    | start => rfl
  | step before found exit ih =>
    cases too with
    | step onward registered again =>
      obtain rfl := ih onward
      obtain rfl := Option.some.inj (found.symm.trans registered)
      rw [exit.position_eq (distinct _ (mem_of_mapping? found).1) again]

/-- Every part of an itinerary from the root is one. -/
theorem front {front rest : List Nat} (leads : schema.Leads root (front ++ rest) place) :
    ∃ between, schema.Leads root front between := by
  induction rest using List.reverseRecOn generalizing place with
  | nil => exact ⟨place, by simpa using leads⟩
  | append_singleton rest position ih =>
    rw [← List.append_assoc] at leads
    obtain ⟨above, _, _, _, before, _⟩ := leads.snoc
    exact ih before

theorem take (leads : schema.Leads root positions place) (length : Nat) :
    ∃ between, schema.Leads root (positions.take length) between := by
  rw [← List.take_append_drop length positions] at leads
  exact front leads

/-- What follows a place can follow any other place of its type. -/
theorem transplant {others more : List Nat} {last there : Place}
    (leads : schema.Leads root positions place)
    (onward : schema.Leads root (positions ++ more) last)
    (elsewhere : schema.Leads root others there) (same : there.type = place.type) :
    ∃ beyond, schema.Leads root (others ++ more) beyond ∧ beyond.type = last.type := by
  induction more using List.reverseRecOn generalizing last with
  | nil =>
    obtain rfl := leads.place_eq (by simpa using onward)
    exact ⟨there, by simpa using elsewhere, same⟩
  | append_singleton more position ih =>
    rw [← List.append_assoc] at onward
    obtain ⟨above, owner, hop, rfl, before, found, exit⟩ := onward.snoc
    obtain ⟨beyond, reached, type⟩ := ih before
    refine ⟨.child beyond hop, ?_, rfl⟩
    rw [← List.append_assoc]
    exact .step reached (type ▸ found) exit

/-- A walk that comes to a type again can be drawn out to any length. -/
theorem exists_longer {more : List Nat} {again : Place} (leads : schema.Leads root positions place)
    (onward : schema.Leads root (positions ++ more) again) (moves : more ≠ [])
    (same : again.type = place.type) (length : Nat) :
    ∃ longer there, schema.Leads root longer there ∧ there.type = place.type ∧
      length ≤ longer.length := by
  induction length with
  | zero => exact ⟨positions, place, leads, rfl, Nat.zero_le _⟩
  | succ length ih =>
    obtain ⟨longer, there, reached, type, enough⟩ := ih
    obtain ⟨beyond, further, back⟩ := leads.transplant onward reached type
    refine ⟨longer ++ more, beyond, further, back.trans same, ?_⟩
    have step := List.length_pos_of_ne_nil moves
    rw [List.length_append]
    omega

end Leads

/-- What is appended to lists of one length makes no difference to their order. -/
private theorem lex_append {first second more others : List Nat}
    (before : List.Lex (· < ·) first second) (same : first.length = second.length) :
    List.Lex (· < ·) (first ++ more) (second ++ others) := by
  induction before with
  | nil => cases same
  | cons _ ih => exact .cons (ih (Nat.succ.inj same))
  | rel smaller => exact .rel smaller

/-- A place that a walk comes to, with its itinerary and the mapping of its type. -/
abbrev Stop := List Nat × Place × EntityMapping

/-- The paths one step beyond a stop. -/
def onwardFrom (stop : Stop) : List (List Nat × Path) :=
  stop.2.2.exits.map fun (position, hop) => (stop.1 ++ [position], ⟨stop.2.1, hop⟩)

/-- The stops of all walks of one length in their order. All types up to that length are
registered. -/
structure Stops (schema : Schema) (root : EntityType) (length : Nat) (stops : List Stop) : Prop where
  mem_iff : ∀ positions place owner, (positions, place, owner) ∈ stops ↔
    schema.Leads root positions place ∧ positions.length = length ∧
      schema.mapping? place.type = some owner
  sorted : stops.Pairwise fun stop later => List.Lex (· < ·) stop.1 later.1
  registered : ∀ positions place, schema.Leads root positions place → positions.length ≤ length →
    ∃ owner, schema.mapping? place.type = some owner

variable {length : Nat} {stops : List Stop}

theorem Stops.of_root {owner : EntityMapping} (found : schema.mapping? root = some owner) :
    schema.Stops root 0 [([], .root root, owner)] := by
  have only {positions : List Nat} {place : Place} (leads : schema.Leads root positions place)
      (short : positions.length ≤ 0) : positions = [] ∧ place = .root root := by
    obtain rfl := List.length_eq_zero_iff.mp (Nat.le_zero.mp short)
    exact ⟨rfl, leads.place_eq .start⟩
  constructor
  case mem_iff =>
    intro positions place mapping
    rw [List.mem_singleton, Prod.mk.injEq, Prod.mk.injEq]
    constructor
    · intro same
      obtain ⟨rfl, rfl, rfl⟩ := same
      exact ⟨.start, rfl, found⟩
    · intro ⟨leads, short, registered⟩
      obtain ⟨rfl, rfl⟩ := only leads short.le
      exact ⟨rfl, rfl, Option.some.inj (registered.symm.trans found)⟩
  case sorted => exact List.pairwise_singleton _ _
  case registered =>
    intro positions place leads short
    obtain ⟨rfl, rfl⟩ := only leads short
    exact ⟨owner, found⟩

namespace Stops

variable (here : schema.Stops root length stops)
include here

theorem mem_onward {path : Path} :
    (positions, path) ∈ stops.flatMap onwardFrom ↔
      schema.Leads root positions path.place ∧ positions.length = length + 1 := by
  rw [List.mem_flatMap]
  constructor
  · intro found
    obtain ⟨⟨front, place, owner⟩, member, beyond⟩ := found
    obtain ⟨⟨position, hop⟩, exit, same⟩ := List.mem_map.mp beyond
    cases same
    obtain ⟨leads, long, registered⟩ := (here.mem_iff _ _ _).mp member
    exact ⟨.step leads registered (EntityMapping.mem_exits.mp exit), by simp [long]⟩
  · intro ⟨leads, long⟩
    obtain ⟨front, position, owner, rfl, before, registered, exit⟩ := leads.above
    have shorter : front.length = length := by simpa using long
    refine ⟨(front, path.above, owner), (here.mem_iff _ _ _).mpr ⟨before, shorter, registered⟩, ?_⟩
    exact List.mem_map.mpr ⟨(position, path.hop), EntityMapping.mem_exits.mpr exit, rfl⟩

theorem onward_sorted :
    (stops.flatMap onwardFrom).Pairwise fun walk later => List.Lex (· < ·) walk.1 later.1 := by
  rw [List.pairwise_flatMap]
  constructor
  · intro stop _
    refine List.pairwise_map.mpr (EntityMapping.exits_pairwise.imp ?_)
    intro exit later before
    exact (List.Lex.rel before).append_left _ _
  · refine here.sorted.imp_of_mem ?_
    intro stop other present too before walk onward later following
    obtain ⟨_, _, rfl⟩ := List.mem_map.mp onward
    obtain ⟨_, _, rfl⟩ := List.mem_map.mp following
    have long := ((here.mem_iff _ _ _).mp present).2.1
    have same := ((here.mem_iff _ _ _).mp too).2.1
    exact lex_append before (long.trans same.symm)

end Stops

end Schema

end WritePlan
