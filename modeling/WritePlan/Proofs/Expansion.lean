import WritePlan.Proofs.Itineraries

/-! What the query for all paths answers, told by the walks from the root: the first walk that comes
to a type that is not registered, or that some walk is too long, or the paths of all walks in their
order. -/
namespace WritePlan

namespace Schema

variable {schema : Schema} {root : EntityType} {length : Nat} {stops : List Stop}

/-- Where a walk comes to, if the type there is registered. -/
def arrive (schema : Schema) (walk : List Nat × Path) :
    Except Error (List Nat × Path × EntityMapping) :=
  (schema.require walk.2.type).map fun target => (walk.1, walk.2, target)

def stopAt (arrival : List Nat × Path × EntityMapping) : Stop :=
  (arrival.1, arrival.2.1.place, arrival.2.2)

theorem arrive_eq_ok {walk : List Nat × Path} {arrival : List Nat × Path × EntityMapping} :
    schema.arrive walk = .ok arrival ↔
      schema.mapping? walk.2.type = some arrival.2.2 ∧ (arrival.1, arrival.2.1) = walk := by
  obtain ⟨positions, path, target⟩ := arrival
  rw [arrive, require]
  cases schema.mapping? walk.2.type with
  | none => simp [Except.map]
  | some mapping => simp [Except.map, Prod.ext_iff]; tauto

theorem arrive_eq_error {walk : List Nat × Path} {fault : Error}
    (failed : schema.arrive walk = .error fault) :
    schema.mapping? walk.2.type = none ∧ fault = .unknownEntity walk.2.type := by
  rw [arrive, require] at failed
  cases found : schema.mapping? walk.2.type with
  | none =>
    rw [found] at failed
    cases failed
    exact ⟨rfl, rfl⟩
  | some mapping =>
    rw [found] at failed
    cases failed

private theorem childPaths_stop (stop : Stop) :
    schema.childPaths stop.2.1 stop.2.2 =
      ((onwardFrom stop).mapM schema.arrive).map (List.map Prod.snd) := by
  rw [childPaths, ← EntityMapping.map_snd_exits, List.mapM_map, onwardFrom, List.mapM_map,
    ← mapM_map_result]
  congr 1
  funext exit
  simp only [Function.comp_apply, arrive, Path.type]
  cases schema.require exit.2.target with
  | error fault => rfl
  | ok target => rfl

private theorem pathsBelow_succ (levels : Nat) (level : List (Place × EntityMapping)) :
    schema.pathsBelow root (levels + 1) level =
      level.mapM (fun entry => schema.childPaths entry.1 entry.2) >>= fun lists =>
        (schema.pathsBelow root levels (lists.flatten.map fun child => (child.1.place, child.2))).map
          (lists.flatten.map Prod.fst ++ ·) := by
  rw [pathsBelow]
  rfl

/-- A level is expanded by following all walks one step further. -/
theorem pathsBelow_stops (levels : Nat) (stops : List Stop) :
    schema.pathsBelow root (levels + 1) (stops.map Prod.snd) =
      (stops.flatMap onwardFrom).mapM schema.arrive >>= fun arrivals =>
        (schema.pathsBelow root levels ((arrivals.map stopAt).map Prod.snd)).map
          (arrivals.map (fun arrival => arrival.2.1) ++ ·) := by
  have level : (stops.map Prod.snd).mapM (fun entry => schema.childPaths entry.1 entry.2) =
      (stops.mapM fun stop => (onwardFrom stop).mapM schema.arrive).map
        (List.map (List.map Prod.snd)) := by
    rw [List.mapM_map, ← mapM_map_result]
    congr 1
    funext stop
    exact childPaths_stop stop
  rw [pathsBelow_succ, level, mapM_flatMap]
  cases stops.mapM fun stop => (onwardFrom stop).mapM schema.arrive with
  | error fault => rfl
  | ok lists =>
    simp only [Except.map, bind, Except.bind, ← List.map_flatten, List.map_map]
    rfl

/-- Where all walks arrive, their ends are the stops of the next level. -/
theorem Stops.next {arrivals : List (List Nat × Path × EntityMapping)}
    (here : schema.Stops root length stops)
    (arrived : (stops.flatMap onwardFrom).mapM schema.arrive = .ok arrivals) :
    schema.Stops root (length + 1) (arrivals.map stopAt) := by
  have ends {positions : List Nat} {place : Place} (leads : schema.Leads root positions place)
      (long : positions.length = length + 1) :
      ∃ target, schema.mapping? place.type = some target ∧
        (positions, place, target) ∈ arrivals.map stopAt := by
    obtain ⟨path, rfl⟩ := leads.exists_path (List.ne_nil_of_length_eq_add_one long)
    have onward := here.mem_onward.mpr ⟨leads, long⟩
    obtain ⟨arrival, came⟩ := ok_of_mapM arrived onward
    obtain ⟨registered, same⟩ := arrive_eq_ok.mp came
    cases same
    exact ⟨_, registered, List.mem_map_of_mem ((mem_mapM arrived).mpr ⟨_, onward, came⟩)⟩
  constructor
  case mem_iff =>
    intro positions place owner
    constructor
    · intro found
      obtain ⟨⟨_, path, _⟩, member, same⟩ := List.mem_map.mp found
      cases same
      obtain ⟨walk, onward, came⟩ := (mem_mapM arrived).mp member
      obtain ⟨registered, rfl⟩ := arrive_eq_ok.mp came
      obtain ⟨leads, long⟩ := here.mem_onward.mp onward
      exact ⟨leads, long, registered⟩
    · intro ⟨leads, long, registered⟩
      obtain ⟨target, found, member⟩ := ends leads long
      obtain rfl := Option.some.inj (registered.symm.trans found)
      exact member
  case sorted =>
    have walks : arrivals.map (fun arrival => (arrival.1, arrival.2.1)) = stops.flatMap onwardFrom := by
      rw [← List.map_id (stops.flatMap onwardFrom)]
      apply map_mapM arrived
      intro walk _ arrival came
      exact (arrive_eq_ok.mp came).2
    have sorted := here.onward_sorted
    rw [← walks, List.pairwise_map] at sorted
    exact List.pairwise_map.mpr sorted
  case registered =>
    intro positions place leads short
    rcases Nat.lt_succ_iff_lt_or_eq.mp (Nat.lt_succ_of_le short) with shorter | long
    · exact here.registered positions place leads (Nat.le_of_lt_succ shorter)
    · obtain ⟨target, found, _⟩ := ends leads long
      exact ⟨target, found⟩

/-- The walk keeps to the depth limit and ends at a type that is not registered. -/
structure Dangles (schema : Schema) (root : EntityType) (positions : List Nat) (place : Place) :
    Prop where
  leads : schema.Leads root positions place
  short : positions.length ≤ 32
  unknown : schema.mapping? place.type = none

/-- The walk is the first of those that dangle: no other is shorter, or as long and declared
earlier. -/
def DanglesFirst (schema : Schema) (root : EntityType) (positions : List Nat) (place : Place) :
    Prop :=
  schema.Dangles root positions place ∧
    ∀ others there, schema.Dangles root others there → others ≠ positions →
      List.Shortlex (· < ·) positions others

inductive Answer (schema : Schema) (root : EntityType) (length : Nat) :
    Except Error (List Path) → Prop
  | unknown {positions : List Nat} {place : Place}
    (first : schema.DanglesFirst root positions place) :
    Answer schema root length (.error (.unknownEntity place.type))
  | tooDeep (closed : ∀ positions place, ¬schema.Dangles root positions place)
    {positions : List Nat} {place : Place} (leads : schema.Leads root positions place)
    (long : positions.length = 33) :
    Answer schema root length (.error (.invalidPath (.tooDeep root 32)))
  | all (closed : ∀ positions place, ¬schema.Dangles root positions place)
    (shallow : ∀ positions place, schema.Leads root positions place → positions.length ≠ 33)
    {walks : List (List Nat × Path)}
    (mem_iff : ∀ positions path, (positions, path) ∈ walks ↔
      schema.Leads root positions path.place ∧ length < positions.length)
    (sorted : walks.Pairwise fun walk later => List.Shortlex (· < ·) walk.1 later.1) :
    Answer schema root length (.ok (walks.map Prod.snd))

private theorem Stops.dangles_longer {positions : List Nat} {place : Place}
    (here : schema.Stops root length stops) (dangles : schema.Dangles root positions place) :
    length < positions.length := by
  by_contra short
  obtain ⟨owner, found⟩ := here.registered positions place dangles.leads (Nat.le_of_not_lt short)
  rw [dangles.unknown] at found
  cases found

/-- The first walk of a level that does not arrive is the first one to dangle. -/
private theorem Stops.danglesFirst {front rest : List (List Nat × Path)} {walk : List Nat × Path}
    (here : schema.Stops root length stops) (short : length < 32)
    (onward : stops.flatMap onwardFrom = front ++ walk :: rest)
    (arrive : ∀ earlier ∈ front, ∃ arrival, schema.arrive earlier = .ok arrival)
    (unknown : schema.mapping? walk.2.type = none) :
    schema.DanglesFirst root walk.1 walk.2.place := by
  have member : walk ∈ stops.flatMap onwardFrom := by simp [onward]
  obtain ⟨leads, long⟩ := here.mem_onward.mp member
  refine ⟨⟨leads, by omega, unknown⟩, ?_⟩
  intro others there dangles different
  have longer := here.dangles_longer dangles
  by_cases same : others.length = length + 1
  · -- Of one length, only the walks in front of this one come earlier, and those arrive.
    obtain ⟨path, rfl⟩ := dangles.leads.exists_path (List.ne_nil_of_length_eq_add_one same)
    have present := here.mem_onward.mpr ⟨dangles.leads, same⟩
    have sorted := here.onward_sorted
    rw [onward] at present sorted
    rcases List.mem_append.mp present with earlier | later
    · obtain ⟨arrival, came⟩ := arrive _ earlier
      have found := (arrive_eq_ok.mp came).1
      have missing : schema.mapping? path.type = none := dangles.unknown
      rw [missing] at found
      cases found
    · rcases List.mem_cons.mp later with itself | beyond
      · exact absurd (congrArg Prod.fst itself) different
      · have before := (List.pairwise_cons.mp (List.pairwise_append.mp sorted).2.1).1 _ beyond
        exact .of_lex (long.trans same.symm) before
  · exact .of_length_lt (by omega)

/-- A walk beyond a level passes one of its stops and goes on from there. -/
private theorem Stops.passed {positions : List Nat} {place : Place}
    (here : schema.Stops root length stops)
    (leads : schema.Leads root positions place) (longer : length < positions.length) :
    ∃ stop ∈ stops, stop.2.2.hops ≠ [] := by
  obtain ⟨between, reached⟩ := leads.take (length + 1)
  have long : (positions.take (length + 1)).length = length + 1 := by
    rw [List.length_take]
    omega
  obtain ⟨path, rfl⟩ := reached.exists_path (List.ne_nil_of_length_eq_add_one long)
  obtain ⟨stop, member, onward⟩ := List.mem_flatMap.mp (here.mem_onward.mpr ⟨reached, long⟩)
  refine ⟨stop, member, ?_⟩
  rw [← EntityMapping.map_snd_exits]
  intro closed
  have none : stop.2.2.exits = [] := List.map_eq_nil_iff.mp closed
  simp [onwardFrom, none] at onward

/-- Where no stop of the last level leads on, all walks have been followed; where one does, there is
a walk beyond the limit. -/
private theorem Stops.answer_last (here : schema.Stops root 32 stops) :
    schema.Answer root 32 (schema.pathsBelow root 0 (stops.map Prod.snd)) := by
  have closed (positions : List Nat) (place : Place) : ¬schema.Dangles root positions place := by
    intro dangles
    exact Nat.not_lt.mpr dangles.short (here.dangles_longer dangles)
  rw [pathsBelow]
  split
  · rename_i flat
    have ended {positions : List Nat} {place : Place}
        (leads : schema.Leads root positions place) : ¬32 < positions.length := by
      intro longer
      obtain ⟨stop, member, onward⟩ := here.passed leads longer
      have still := List.all_eq_true.mp flat _ (List.mem_map_of_mem member)
      exact onward (List.isEmpty_iff.mp still)
    have none (positions : List Nat) (path : Path) : (positions, path) ∈ [] ↔
        schema.Leads root positions path.place ∧ 32 < positions.length := by
      simp only [List.not_mem_nil, false_iff, not_and]
      exact ended
    refine Answer.all closed ?_ none .nil
    intro positions place leads long
    exact ended leads (by omega)
  · rename_i goes
    have goesOn : ∃ stop ∈ stops, stop.2.2.exits ≠ [] := by
      by_contra still
      refine goes (List.all_eq_true.mpr ?_)
      intro entry member
      obtain ⟨stop, present, rfl⟩ := List.mem_map.mp member
      have none : stop.2.2.exits = [] := by
        by_contra some
        exact still ⟨stop, present, some⟩
      change stop.2.2.hops.isEmpty = true
      rw [← EntityMapping.map_snd_exits, none]
      rfl
    obtain ⟨stop, member, some⟩ := goesOn
    obtain ⟨exit, inside⟩ := List.exists_mem_of_ne_nil _ some
    have onward : (stop.1 ++ [exit.1], Path.mk stop.2.1 exit.2) ∈ stops.flatMap onwardFrom :=
      List.mem_flatMap.mpr ⟨stop, member, List.mem_map_of_mem inside⟩
    obtain ⟨leads, long⟩ := here.mem_onward.mp onward
    exact .tooDeep closed leads long

private theorem Stops.answer_cons {arrivals : List (List Nat × Path × EntityMapping)}
    {deeper : Except Error (List Path)} (here : schema.Stops root length stops)
    (arrived : (stops.flatMap onwardFrom).mapM schema.arrive = .ok arrivals)
    (answer : schema.Answer root (length + 1) deeper) :
    schema.Answer root length (deeper.map (arrivals.map (fun arrival => arrival.2.1) ++ ·)) := by
  cases answer with
  | unknown first => exact .unknown first
  | tooDeep closed leads long => exact .tooDeep closed leads long
  | @all closed shallow walks mem_iff sorted =>
    have paths : arrivals.map (fun arrival => arrival.2.1) =
        (stops.flatMap onwardFrom).map Prod.snd := by
      refine map_mapM arrived ?_
      intro walk _ arrival came
      rw [← (arrive_eq_ok.mp came).2]
    have joined : (Except.ok (walks.map Prod.snd)).map
        (arrivals.map (fun arrival => arrival.2.1) ++ ·) =
          (.ok ((stops.flatMap onwardFrom ++ walks).map Prod.snd) : Except Error (List Path)) := by
      rw [paths, List.map_append]
      rfl
    rw [joined]
    refine .all closed shallow ?_ ?_
    · intro positions path
      rw [List.mem_append, here.mem_onward, mem_iff, ← and_or_left]
      exact and_congr_right fun _ => by omega
    · refine List.pairwise_append.mpr ⟨here.onward_sorted.imp_of_mem ?_, sorted, ?_⟩
      · intro walk later present too before
        have long := (here.mem_onward.mp present).2
        have same := (here.mem_onward.mp too).2
        exact .of_lex (long.trans same.symm) before
      · intro walk present later beyond
        have long := (here.mem_onward.mp present).2
        have longer := ((mem_iff _ _).mp beyond).2
        exact .of_length_lt (by omega)

theorem Stops.answer {levels : Nat} (here : schema.Stops root length stops)
    (left : length + levels = 32) :
    schema.Answer root length (schema.pathsBelow root levels (stops.map Prod.snd)) := by
  induction levels generalizing length stops with
  | zero =>
    obtain rfl : length = 32 := left
    exact here.answer_last
  | succ levels ih =>
    rw [pathsBelow_stops]
    cases arrived : (stops.flatMap onwardFrom).mapM schema.arrive with
    | error fault =>
      obtain ⟨front, walk, rest, onward, arrive, failed⟩ := exists_of_mapM_eq_error arrived
      obtain ⟨unknown, rfl⟩ := arrive_eq_error failed
      exact .unknown (here.danglesFirst (by omega) onward arrive unknown)
    | ok arrivals => exact here.answer_cons arrived (ih (here.next arrived) (by omega))

theorem paths_answer {owner : EntityMapping} (found : schema.mapping? root = some owner) :
    schema.Answer root 0 (schema.paths root) := by
  have below : schema.Answer root 0 (schema.pathsBelow root depthLimit _) :=
    (Stops.of_root found).answer rfl
  rw [paths, require_eq_ok.mpr found]
  exact below

end Schema

end WritePlan
