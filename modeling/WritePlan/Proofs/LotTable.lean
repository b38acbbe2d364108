import WritePlan.Lots
import WritePlan.Proofs.GroupTable

namespace WritePlan

namespace LotKey

def groupKey : LotKey → GroupKey
  | .delete path => ⟨path.segments, some .delete⟩
  | .deleteAll path => ⟨path.segments, none⟩
  | .insert path source => ⟨path.segments, some (.insert source)⟩
  | .update path => ⟨path.segments, some .update⟩

variable {a b : LotKey}

theorem beq_iff_groupKey : (a == b) = true ↔ a.groupKey = b.groupKey := by
  change instBEqLotKey.beq a b = true ↔ _
  cases a <;> cases b <;> simp [instBEqLotKey.beq, groupKey, Path.beq_iff_segments]

instance : EquivBEq LotKey where
  rfl := beq_iff_groupKey.mpr rfl
  symm same := beq_iff_groupKey.mpr (beq_iff_groupKey.mp same).symm
  trans first second :=
    beq_iff_groupKey.mpr ((beq_iff_groupKey.mp first).trans (beq_iff_groupKey.mp second))

instance : LawfulHashable LotKey where
  hash_eq a b same := by
    have keys := beq_iff_groupKey.mp same
    cases a <;> cases b <;> simp_all [hash, instHashableLotKey.hash, groupKey]

end LotKey

@[simp] theorem ChildStep.groupKey_lotKey (step : ChildStep) : step.lotKey.groupKey = step.groupKey := by
  obtain ⟨path, work⟩ := step
  cases work <;> rfl

namespace LotRows

def steps : LotRows → Array ChildStep
  | .deletes rows => rows.map RowDelete.step
  | .deleteAlls rows => rows.map RowDeleteAll.step
  | .inserts rows => rows.map RowInsert.step
  | .updates rows => rows.map RowUpdate.step

/-- The kind of batches that the rows are put into, for inserts with the source of the first row. -/
def batchKind? : LotRows → Option BatchKind
  | .deletes _ => some .delete
  | .deleteAlls _ => none
  | .inserts rows => some (.insert ((rows[0]?.map RowInsert.source).getD .absent))
  | .updates _ => some .update

theorem push?_of_kind {rows : LotRows} {step : ChildStep}
    (kinds : rows.batchKind? = step.work.batchKind?) :
    ∃ more, rows.push? step = some more ∧ more.steps = rows.steps.push step ∧
      more.batchKind? = rows.batchKind? := by
  obtain ⟨path, work⟩ := step
  cases rows with
  | deletes rows =>
    cases work <;> cases kinds
    exact ⟨_, rfl, by simp [steps, RowDelete.step], rfl⟩
  | deleteAlls rows =>
    cases work <;> cases kinds
    exact ⟨_, rfl, by simp [steps, RowDeleteAll.step], rfl⟩
  | inserts rows =>
    cases work with
    | insert entity source qualifiers =>
      refine ⟨_, rfl, by simp [steps, RowInsert.step], ?_⟩
      have own : (rows[0]?.map RowInsert.source).getD .absent = source := by
        simpa [batchKind?, RowWork.batchKind?] using kinds
      rw [batchKind?, batchKind?, Array.getElem?_push]
      split
      · rename_i first
        simp [← own, ← first]
      · rfl
    | _ => cases kinds
  | updates rows =>
    cases work <;> cases kinds
    exact ⟨_, rfl, by simp [steps, RowUpdate.step], rfl⟩

/-- A step opens a list of rows of its own kind. -/
private theorem push?_bare (step : ChildStep) :
    ∃ rows, (bare step.work).push? step = some rows ∧ rows.steps = #[step] ∧
      rows.batchKind? = step.work.batchKind? := by
  obtain ⟨path, work⟩ := step
  cases work with
  | insert entity source qualifiers => exact ⟨_, rfl, by simp [steps, RowInsert.step], rfl⟩
  | update entity => exact ⟨_, rfl, by simp [steps, RowUpdate.step], rfl⟩
  | delete rootId key => exact ⟨_, rfl, by simp [steps, RowDelete.step], rfl⟩
  | deleteAll => exact ⟨_, rfl, by simp [steps, RowDeleteAll.step], rfl⟩

end LotRows

def Lot.group (lot : Lot) : Group := ⟨lot.rows.batchKind?, lot.path, lot.rows.steps⟩

namespace LotTable

/-- The lots are the groups of a group table, and each key has the same position in both. -/
structure Agrees (table : LotTable) (groups : GroupTable) : Prop where
  lots : table.lots.toList.map Lot.group = groups.groups.toList
  positions : ∀ key : LotKey, table.positions[key]? = groups.positions[key.groupKey]?

variable {table : LotTable} {groups : GroupTable} {steps : List ChildStep}

theorem agrees_empty (order : PathOrder) : (empty order).Agrees .empty where
  lots := by simp [empty, GroupTable.empty]
  positions key := by simp [empty, GroupTable.empty]

theorem Agrees.size (agrees : table.Agrees groups) : table.lots.size = groups.groups.size := by
  simpa using congrArg List.length agrees.lots

theorem Agrees.getElem? (agrees : table.Agrees groups) (position : Nat) :
    groups.groups[position]? = table.lots[position]?.map Lot.group := by
  rw [← Array.getElem?_toList, ← agrees.lots, List.getElem?_map, Array.getElem?_toList]

theorem place_of_seen {key : LotKey} {position : Nat} (found : table.positions[key]? = some position)
    (inside : position < table.lots.size) (path : Path) (bare : LotRows) :
    table.place key path bare =
      (position, { table with positions := table.positions.insertIfNew key table.lots.size }) := by
  simp [place, found, Nat.ne_of_lt inside]

theorem place_of_new {key : LotKey} (missing : table.positions[key]? = none) (path : Path)
    (bare : LotRows) :
    table.place key path bare =
      (table.lots.size,
        { table with
          lots := table.lots.push ⟨path, bare⟩
          positions := table.positions.insertIfNew key table.lots.size }) := by
  simp [place, missing]

/-- The two ways to fail aside, a step goes to the end of the lot that its key has. -/
private theorem add_of_placed {step : ChildStep} {position : Nat} {placed : LotTable} {lot : Lot}
    {rows : LotRows}
    (place : table.place step.lotKey step.path (.bare step.work) = (position, placed))
    (held : placed.lots[position]? = some lot) (pushed : lot.rows.push? step = some rows) :
    table.add step =
      .ok { placed with lots := placed.lots.setIfInBounds position { lot with rows := rows } } := by
  unfold add
  rw [place]
  simp only [held, pushed]
  rfl

/-- Adding a step succeeds and keeps lots and groups in agreement. -/
theorem Agrees.add (agrees : table.Agrees groups) (indexes : groups.Indexes steps) (step : ChildStep) :
    ∃ next, table.add step = .ok next ∧ next.order = table.order ∧ next.Agrees (groups.add step) := by
  cases held : groups.positions[step.groupKey]? with
  | some position =>
    have found : table.positions[step.lotKey]? = some position := by
      rw [agrees.positions, step.groupKey_lotKey, held]
    have key := (indexes.positions _ _).mp held
    rw [indexes.gathers.keysOf_getElem?, Array.getElem?_toList, agrees.getElem?, Option.map_map] at key
    obtain ⟨lot, present, own⟩ := Option.map_eq_some_iff.mp key
    obtain ⟨inside, _⟩ := Array.getElem?_eq_some_iff.mp present
    have kinds : lot.rows.batchKind? = step.work.batchKind? := congrArg GroupKey.kind own
    obtain ⟨rows, pushed, longer, kind⟩ := LotRows.push?_of_kind kinds
    refine ⟨_, add_of_placed (place_of_seen found inside ..) present pushed, rfl, ?_⟩
    have known : step.lotKey ∈ table.positions := Std.HashMap.mem_iff_isSome_getElem?.mpr (by rw [found]; rfl)
    have joined : Lot.group { lot with rows := rows } = Group.push step lot.group := by
      simp only [Lot.group, Group.push, longer, kind]
    rw [GroupTable.add_of_seen held]
    constructor
    · rw [Array.toList_setIfInBounds, List.map_set, agrees.lots, Array.toList_modify,
        List.modify_eq_set_getElem?, Array.getElem?_toList, agrees.getElem?, present, joined]
      rfl
    · intro other
      rw [Std.HashMap.getElem?_insertIfNew, if_neg fun new => new.2 known, agrees.positions]
  | none =>
    have missing : table.positions[step.lotKey]? = none := by
      rw [agrees.positions, step.groupKey_lotKey, held]
    obtain ⟨rows, pushed, only, kind⟩ := LotRows.push?_bare step
    refine ⟨_, add_of_placed (place_of_new missing ..) Array.getElem?_push_size pushed, rfl, ?_⟩
    have opened : Lot.group ⟨step.path, rows⟩ = Group.single step := by
      simp only [Lot.group, Group.single, only, kind]
    rw [GroupTable.add_of_new held]
    constructor
    · simp [agrees.lots, opened]
    · intro other
      have unknown : step.lotKey ∉ table.positions := by
        simp [Std.HashMap.mem_iff_isSome_getElem?, missing]
      simp only [Std.HashMap.getElem?_insertIfNew, Std.HashMap.getElem?_insert, unknown,
        LotKey.beq_iff_groupKey, step.groupKey_lotKey, beq_iff_eq, agrees.size, agrees.positions,
        not_false_eq_true, and_true]

theorem Agrees.addAll (agrees : table.Agrees groups) (indexes : groups.Indexes steps)
    (more : List ChildStep) :
    ∃ last, table.addAll more = .ok last ∧ last.order = table.order ∧
      last.Agrees (more.foldl GroupTable.add groups) := by
  induction more generalizing table groups steps with
  | nil => exact ⟨table, rfl, rfl, agrees⟩
  | cons step rest ih =>
    obtain ⟨next, added, order, agree⟩ := agrees.add indexes step
    obtain ⟨last, run, kept, alike⟩ := ih agree (indexes.add step)
    refine ⟨last, ?_, kept.trans order, alike⟩
    rw [LotTable.addAll, List.foldlM_cons, added]
    exact run

/-- Whatever steps are added to an empty table, in whatever order, none of them fails, and the lots
are the groups of the steps. -/
theorem addAll_agrees (order : PathOrder) (steps : List ChildStep) :
    ∃ table, (empty order).addAll steps = .ok table ∧ table.order = order ∧
      table.Agrees (.ofSteps steps) := by
  obtain ⟨table, run, kept, agrees⟩ := (agrees_empty order).addAll GroupTable.indexes_empty steps
  exact ⟨table, run, kept, agrees⟩

end LotTable

/-- Rows of the kind that belongs to a key. -/
inductive LotRows.AreFor : LotRows → LotKey → Prop
  | deletes (rows : Array RowDelete) (path : Path) : AreFor (.deletes rows) (.delete path)
  | deleteAlls (rows : Array RowDeleteAll) (path : Path) : AreFor (.deleteAlls rows) (.deleteAll path)
  | inserts (rows : Array RowInsert) (path : Path) (source : IdSource) :
      AreFor (.inserts rows) (.insert path source)
  | updates (rows : Array RowUpdate) (path : Path) : AreFor (.updates rows) (.update path)

/-- A lot is the one of a key: it has all steps of the key in order, at least one of them, and the
path of the first. -/
structure Lot.Serves (lot : Lot) (key : LotKey) (steps : List ChildStep) : Prop where
  kind : lot.rows.AreFor key
  members : lot.rows.steps.toList = steps.filter fun step => step.lotKey == key
  filled : lot.rows.steps ≠ #[]
  first : lot.rows.steps[0]?.map ChildStep.path = some lot.path

private theorem LotRows.areFor_of_kind {rows : LotRows} {key : LotKey}
    (kinds : rows.batchKind? = key.groupKey.kind) :
    rows.AreFor key := by
  cases rows with
  | deletes rows =>
    cases key <;> cases kinds
    exact .deletes ..
  | deleteAlls rows =>
    cases key <;> cases kinds
    exact .deleteAlls ..
  | inserts rows =>
    cases key <;> cases kinds
    exact .inserts ..
  | updates rows =>
    cases key <;> cases kinds
    exact .updates ..

namespace LotTable

variable {table : LotTable} {steps : List ChildStep}

theorem Agrees.uniform (agrees : table.Agrees (.ofSteps steps)) {lot : Lot}
    (member : lot ∈ table.lots) : lot.group.Uniform :=
  (GroupTable.indexes_ofSteps steps).gathers.uniform
    (agrees.lots ▸ List.mem_map_of_mem (Array.mem_toList_iff.mpr member))

/-- The keys of the steps have the positions from zero on. -/
theorem Agrees.found_iff (agrees : table.Agrees (.ofSteps steps)) (key : LotKey) (position : Nat) :
    table.positions[key]? = some position ↔ (keysOf steps)[position]? = some key.groupKey := by
  rw [agrees.positions, (GroupTable.indexes_ofSteps steps).positions]

private theorem Agrees.exists_key (agrees : table.Agrees (.ofSteps steps)) {position : Nat}
    (inside : position < table.lots.size) : ∃ key : LotKey, table.positions[key]? = some position := by
  have known : position < (keysOf steps).length := by
    rwa [← (GroupTable.indexes_ofSteps steps).size, ← agrees.size]
  obtain ⟨step, _, own⟩ := mem_keysOf.mp (List.getElem_mem known)
  refine ⟨step.lotKey, (agrees.found_iff _ _).mpr ?_⟩
  rw [step.groupKey_lotKey, own, List.getElem?_eq_getElem known]

theorem Agrees.serves (agrees : table.Agrees (.ofSteps steps)) {key : LotKey} {position : Nat}
    (found : table.positions[key]? = some position) :
    ∃ lot, table.lots[position]? = some lot ∧ lot.Serves key steps := by
  have gathers := (GroupTable.indexes_ofSteps steps).gathers
  rw [agrees.found_iff, gathers.keysOf_getElem?, Array.getElem?_toList, agrees.getElem?,
    Option.map_map] at found
  obtain ⟨lot, present, own⟩ := Option.map_eq_some_iff.mp found
  have member := Array.mem_of_getElem? present
  have uniform := agrees.uniform member
  refine ⟨lot, present, LotRows.areFor_of_kind (congrArg GroupKey.kind own), ?_, ?_, ?_⟩
  · have members := gathers.members lot.group
      (agrees.lots ▸ List.mem_map_of_mem (Array.mem_toList_iff.mpr member))
    have keys : lot.group.key = key.groupKey := own
    rw [keys, stepsOf] at members
    refine members.trans (List.filter_congr fun step _ => Bool.eq_iff_iff.mpr ?_)
    rw [decide_eq_true_eq, LotKey.beq_iff_groupKey, step.groupKey_lotKey]
  · exact fun empty => uniform.ne_nil (congrArg Array.toList empty)
  · have first := uniform.first
    rwa [List.head?_eq_getElem?, Group.steps, Array.getElem?_toList] at first

/-- A key gets the next position just if none of the steps has it. -/
theorem Agrees.place_next_iff (agrees : table.Agrees (.ofSteps steps)) (key : LotKey) (path : Path)
    (bare : LotRows) :
    (table.place key path bare).1 = table.lots.size ↔
      ∀ step ∈ steps, (step.lotKey == key) = false := by
  have new : key.groupKey ∉ keysOf steps ↔ ∀ step ∈ steps, (step.lotKey == key) = false := by
    simp [mem_keysOf, Bool.eq_false_iff, LotKey.beq_iff_groupKey]
  cases held : table.positions[key]? with
  | some position =>
    obtain ⟨lot, present, _⟩ := agrees.serves held
    obtain ⟨inside, _⟩ := Array.getElem?_eq_some_iff.mp present
    have known := List.mem_of_getElem? ((agrees.found_iff key position).mp held)
    rw [place_of_seen held inside, ← new]
    exact iff_of_false (Nat.ne_of_lt inside) fun absent => absent known
  | none =>
    rw [place_of_new held, ← new]
    refine iff_of_true rfl fun known => ?_
    obtain ⟨position, found⟩ := List.getElem?_of_mem known
    rw [(agrees.found_iff key position).mpr found] at held
    cases held

/-- Whatever steps are added to an empty table, in whatever order, no addition fails: the lot that it
looks for is there and keeps rows of the right kind. The keys seen so far, each of them once, have the
positions from zero on, in the order of first sight, and a key gets the next position just if it is new.
At the position of a key is the lot of all its steps. Lots of inserts have a first row, from which their
source is taken. -/
theorem lots_represent_steps (order : PathOrder) (steps : List ChildStep) :
    ∃ table, (empty order).addAll steps = .ok table ∧
      (keysOf steps).Nodup ∧ table.lots.size = (keysOf steps).length ∧
      (∀ (key : LotKey) (position : Nat), table.positions[key]? = some position ↔
        (keysOf steps)[position]? = some key.groupKey) ∧
      (∀ position < table.lots.size, ∃ key : LotKey, table.positions[key]? = some position) ∧
      (∀ (key : LotKey) (position : Nat), table.positions[key]? = some position →
        ∃ lot, table.lots[position]? = some lot ∧ lot.Serves key steps) ∧
      (∀ (key : LotKey) (path : Path) (bare : LotRows),
        (table.place key path bare).1 = table.lots.size ↔
          ∀ step ∈ steps, (step.lotKey == key) = false) ∧
      ∀ lot ∈ table.lots, ∀ rows, lot.rows = .inserts rows → rows[0]?.isSome = true := by
  obtain ⟨table, run, _, agrees⟩ := addAll_agrees order steps
  refine ⟨table, run, keysOf_nodup steps, agrees.size.trans (GroupTable.indexes_ofSteps steps).size,
    agrees.found_iff, fun _ => agrees.exists_key, fun _ _ => agrees.serves, agrees.place_next_iff, ?_⟩
  intro lot member rows own
  have some := (agrees.uniform member).ne_nil
  have filled : 0 < rows.size := by
    simpa [Group.steps, Lot.group, own, LotRows.steps, Array.size_pos_iff] using some
  rw [Array.getElem?_eq_getElem filled]
  rfl

end LotTable

end WritePlan
