import WritePlan.Proofs.Locating
import WritePlan.Proofs.AllPaths

namespace WritePlan

namespace Schema

variable {schema : Schema} {root : EntityType}

def keptPlace (entry : Place × EntityMapping) : Option PathNode × EntityMapping :=
  (entry.1.node?, entry.2)

def keptStep (entry : Path × EntityMapping) : PathNode × EntityMapping := (entry.1.node, entry.2)

private theorem deep_node? (place : Place) :
    (place.node?.any fun node => depthLimit ≤ node.depth) = decide (32 ≤ place.depth) := by
  cases place with
  | root => rfl
  | child above hop =>
    have depth := (Path.mk above hop).depth_node
    exact congrArg (fun depth => decide (32 ≤ depth)) depth

private theorem stepDown_node? {place : Place} (rooted : place.rootType = root) (hop : Hop) :
    schema.stepDown root place.node? hop = (schema.stepFrom root place hop).map keptStep := by
  rw [stepDown, stepFrom, deep_node?]
  by_cases deep : 32 ≤ place.depth
  · rw [if_pos (decide_eq_true deep), if_pos deep]
    rfl
  · rw [if_neg (by simpa using deep), if_neg deep]
    subst rooted
    cases schema.require hop.target with
    | error fault => rfl
    | ok target => rfl

private theorem nodesBelow_nil (rounds : Nat) : schema.nodesBelow root rounds [] = .ok [] := by
  induction rounds with
  | zero => rfl
  | succ rounds ih =>
    rw [nodesBelow, List.mapM_nil]
    change (schema.nodesBelow root rounds [] >>= _) = _
    rw [ih]
    rfl

/-- One round below the paths that are pending, and the rounds after it. -/
private theorem nodesBelow_round (rounds : Nat) (pending : List (Option PathNode × EntityMapping)) :
    schema.nodesBelow root (rounds + 1) pending =
      (pending.mapM fun entry => entry.2.hops.mapM (schema.stepDown root entry.1)) >>= fun lists =>
        (schema.nodesBelow root rounds
          (lists.flatten.map fun entry => (some entry.1, entry.2))).map
            (lists.flatten.map Prod.fst ++ ·) := by
  rw [nodesBelow]
  change (pending.mapM (fun entry => entry.2.hops.mapM (schema.stepDown root entry.1)) >>= _) = _
  cases pending.mapM fun entry => entry.2.hops.mapM (schema.stepDown root entry.1) with
  | error fault => rfl
  | ok lists =>
    change (schema.nodesBelow root rounds (lists.flatten.map fun entry => (some entry.1, entry.2)) >>=
      _) = (schema.nodesBelow root rounds (lists.flatten.map fun entry => (some entry.1, entry.2))).map _
    cases schema.nodesBelow root rounds
        (lists.flatten.map fun entry => (some entry.1, entry.2)) with
    | error fault => rfl
    | ok deeper => rfl

variable {pending : List (Place × EntityMapping)}

private theorem nodesBelow_succ (rooted : ∀ entry ∈ pending, entry.1.rootType = root) (rounds : Nat) :
    schema.nodesBelow root (rounds + 1) (pending.map keptPlace) =
      schema.expand root pending >>= fun next =>
        (schema.nodesBelow root rounds ((pendingAfter next).map keptPlace)).map
          ((next.map Prod.fst).map Path.node ++ ·) := by
  have round : ((pending.map keptPlace).mapM fun entry =>
      entry.2.hops.mapM (schema.stepDown root entry.1)) =
        (pending.mapM (schema.stepsFrom root)).map (List.map (List.map keptStep)) := by
    rw [List.mapM_map, ← mapM_map_result]
    refine mapM_congr_of_mem fun entry member => ?_
    change entry.2.hops.mapM (schema.stepDown root entry.1.node?) = _
    rw [stepsFrom, ← mapM_map_result]
    exact mapM_congr_of_mem fun hop _ => stepDown_node? (rooted entry member) hop
  rw [nodesBelow_round, round, expand]
  cases pending.mapM (schema.stepsFrom root) with
  | error fault => rfl
  | ok lists =>
    have paths : ((lists.map (List.map keptStep)).flatten).map Prod.fst =
        (lists.flatten.map Prod.fst).map Path.node := by
      simp [← List.map_flatten, keptStep, Function.comp_def]
    have places : ((lists.map (List.map keptStep)).flatten).map
        (fun entry => (some entry.1, entry.2)) = (pendingAfter lists.flatten).map keptPlace := by
      rw [← List.map_flatten, List.map_map, pendingAfter, List.map_map]
      rfl
    change (schema.nodesBelow root rounds (List.map _ (List.flatten _))).map
      (List.map Prod.fst (List.flatten _) ++ ·) = _
    rw [paths, places]
    rfl

/-- Below places with so many levels to go, one round more comes to all paths, and any number of
further rounds to the same. -/
theorem nodesBelow_eq_pathsBelow {levels : Nat} (further : Nat)
    (rooted : ∀ entry ∈ pending, entry.1.rootType = root)
    (left : ∀ entry ∈ pending, entry.1.depth + levels = 32) :
    schema.nodesBelow root (levels + 1 + further) (pending.map keptPlace) =
      (schema.pathsBelow root levels pending).map (List.map Path.node) := by
  induction levels generalizing pending with
  | zero =>
    rw [Nat.zero_add, Nat.add_comm 1 further, nodesBelow_succ rooted, expand_at_limit left,
      pathsBelow]
    split
    · change (schema.nodesBelow root further []).map _ = _
      rw [nodesBelow_nil]
      rfl
    · rfl
  | succ levels ih =>
    rw [Nat.add_right_comm (levels + 1) 1 further, nodesBelow_succ rooted, expand_of_shallow]
    · generalize listed : List.mapM (m := Except Error) _ pending = listing
      cases listing with
      | error fault =>
        rw [pathsBelow, listed]
        rfl
      | ok lists =>
        have found : ∀ entry ∈ pendingAfter lists.flatten,
            entry.1.rootType = root ∧ entry.1.depth + levels = 32 := by
          intro entry member
          obtain ⟨⟨path, target⟩, inside, rfl⟩ := List.mem_map.mp member
          obtain ⟨nested, present, own⟩ := List.mem_flatten.mp inside
          obtain ⟨above, before, below⟩ := (mem_mapM listed).mp present
          have place := ((mem_childPaths below).mp own).1
          have deep := left above before
          refine ⟨?_, ?_⟩
          · exact (congrArg Place.rootType place).trans (rooted above before)
          · change path.above.depth + 1 + levels = 32
            rw [place]
            omega
        change (schema.nodesBelow root (levels + 1 + further) _).map _ = _
        rw [ih (fun entry member => (found entry member).1) fun entry member =>
          (found entry member).2, pathsBelow_of_childPaths listed]
        cases schema.pathsBelow root levels (pendingAfter lists.flatten) with
        | error fault => rfl
        | ok deeper => exact congrArg Except.ok (List.map_append ..).symm
    · intro entry member
      have deep := left entry member
      omega

/-- Once the paths at the depth limit have been looked at, no path is pending: any number of further
rounds comes to the same list. -/
theorem nodes_of_rounds (further : Nat) :
    (schema.require root >>= fun owner =>
      schema.nodesBelow root (depthLimit + 1 + further) [(none, owner)]) =
        (schema.paths root).map (List.map Path.node) := by
  rw [paths]
  cases schema.require root with
  | error fault => rfl
  | ok owner =>
    have rooted : ∀ entry ∈ [(Place.root root, owner)], entry.1.rootType = root :=
      List.forall_mem_singleton.mpr rfl
    have left : ∀ entry ∈ [(Place.root root, owner)], entry.1.depth + depthLimit = 32 :=
      List.forall_mem_singleton.mpr rfl
    exact nodesBelow_eq_pathsBelow further rooted left

theorem nodes_eq_paths : schema.nodes root = (schema.paths root).map (List.map Path.node) :=
  nodes_of_rounds 0

/-- The kept paths below a root that a schema gives out: those in the list of all paths, those that
expressions locate, and the enclosing paths of such paths. -/
inductive Offers (schema : Schema) (root : EntityType) : PathNode → Prop
  | listed {nodes : List PathNode} {node : PathNode} (all : schema.nodes root = .ok nodes)
    (member : node ∈ nodes) : Offers schema root node
  | located {expression : String} {node : PathNode}
    (found : schema.locate root expression = .ok node) : Offers schema root node
  | parent {node above : PathNode} (below : Offers schema root node)
    (parent : node.parent? = some above) : Offers schema root above

/-- Whatever a schema gives out is the path to one of its places. -/
theorem Offers.exists_path (distinct : schema.DistinctNames) {node : PathNode}
    (offered : schema.Offers root node) : ∃ path, schema.HasPath root path ∧ node = path.node := by
  induction offered with
  | listed all member =>
    rw [nodes_eq_paths] at all
    cases listed : schema.paths root with
    | error fault =>
      rw [listed] at all
      cases all
    | ok paths =>
      rw [listed] at all
      cases all
      obtain ⟨path, inside, rfl⟩ := List.mem_map.mp member
      exact ⟨path, ((mem_paths distinct listed).1 path).mp inside, rfl⟩
  | located found =>
    obtain ⟨_, _, path, has, _, same⟩ := (locate_eq_ok distinct).mp found
    exact ⟨path, has, same⟩
  | parent _ parent ih =>
    obtain ⟨path, has, rfl⟩ := ih
    rw [Path.parent?_node, Option.map_eq_some_iff] at parent
    obtain ⟨above, encloses, rfl⟩ := parent
    exact ⟨above, has.parent encloses, rfl⟩

end Schema

/-- Some schema that was built from declarations gives the path out. -/
def PathNode.Offered (node : PathNode) : Prop :=
  ∃ naming decls root, (Schema.ofDecls naming decls).Offers root node

theorem PathNode.Offered.exists_path {node : PathNode} (offered : node.Offered) :
    ∃ path : Path, node = path.node := by
  obtain ⟨naming, decls, root, below⟩ := offered
  obtain ⟨path, _, same⟩ := below.exists_path (Schema.distinctNames_ofDecls naming decls)
  exact ⟨path, same⟩

end WritePlan
