import WritePlan.Proofs.Conservation
import WritePlan.Proofs.JsonText
import WritePlan.Proofs.LotTable
import WritePlan.Proofs.Numerals
import WritePlan.Proofs.Policies
import WritePlan.Session

namespace WritePlan

/-- A loop comes to an end with a result: after finitely many rounds that go on, one gives it. -/
inductive EndsWith {α β : Type} (round : α → α ⊕ β) : α → β → Prop
  | last {held : α} {result : β} (ended : round held = .inr result) : EndsWith round held result
  | more {held next : α} {result : β} (goesOn : round held = .inl next)
      (rest : EndsWith round next result) : EndsWith round held result

theorem EndsWith.repeatM_eq {α β : Type} [Nonempty β] {round : α → α ⊕ β} {held : α} {result : β}
    (ends : EndsWith round held result) :
    (repeatM (fun held => pure (round held)) held : Id β) = pure result := by
  induction ends with
  | last ended => rw [repeatM_eq_of_monadTail, repeatM.body, ended]; rfl
  | more goesOn _ ih => rw [repeatM_eq_of_monadTail, repeatM.body, goesOn]; exact ih

variable {ρ σ : Type} {single : ρ → Action} {batch : List ρ → Action} {consume : σ → Action → σ}

/-- Every piece of a size above zero takes something off the rows, so that the rounds come to an end.
The pieces are those that the rows are cut into. -/
theorem emitRound_endsWith {size : Nat} (positive : 0 < size) (rows : List ρ) (state : σ) :
    EndsWith (emitRound size single batch consume) (rows, state)
      (((chunks (some size) rows).map (.ofPiece single batch)).foldl consume state) := by
  obtain ⟨more, rfl⟩ := Nat.exists_eq_succ_of_ne_zero positive.ne'
  rw [chunks, Nat.succ_sub_one]
  fun_induction chunksOf more rows generalizing state with
  | case1 => exact .last rfl
  | case2 first rest ih => exact .more rfl (ih _)

theorem emitPieces_eq {size : Nat} (positive : 0 < size) (rows : List ρ) (state : σ) :
    emitPieces size single batch consume rows state =
      ((chunks (some size) rows).map (.ofPiece single batch)).foldl consume state := by
  have : Nonempty σ := ⟨state⟩
  rw [emitPieces, (emitRound_endsWith positive rows state).repeatM_eq, Id.run_pure]

/-- Pieces of size zero take nothing off the rows, so that there is always another round. -/
theorem emitRound_zero_endless {rows : List ρ} (left : rows ≠ []) (state result : σ) :
    ¬ EndsWith (emitRound 0 single batch consume) (rows, state) result := by
  intro ends
  generalize start : (rows, state) = held at ends
  induction ends generalizing state with
  | last ended =>
    subst start
    simp [emitRound, left] at ended
  | more goesOn _ ih =>
    subst start
    simp only [emitRound, List.isEmpty_iff, left, if_false, List.drop_zero, Sum.inl.injEq] at goesOn
    exact ih _ goesOn

theorem Action.ofPiece_of_step (path : Path) (kind : BatchKind) (step : ρ → ChildStep) (piece : List ρ) :
    Action.ofPiece (fun row => .child (step row)) (fun piece => .batch path kind (piece.map step)) piece =
      .ofChunk path kind (piece.map step) := by
  match piece with
  | [] => rfl
  | [_] => rfl
  | _ :: _ :: _ => rfl

private theorem Lot.batched_eq {size : Nat} (positive : 0 < size) (lot : Lot) (state : σ)
    (kind : BatchKind) (step : ρ → ChildStep) (rows : Array ρ) :
    Lot.emit.batched lot size consume state kind step rows =
      ((chunks (some size) (rows.map step).toList).map (.ofChunk lot.path kind)).foldl consume state := by
  rw [emit.batched, emitPieces_eq positive, Array.toList_map, chunks, chunks, chunksOf_map, List.map_map]
  congr 2
  funext piece
  exact Action.ofPiece_of_step ..

theorem Lot.emit_eq {size : Nat} (positive : 0 < size) (lot : Lot) (state : σ) :
    lot.emit size consume state = (lot.group.actions (some size)).foldl consume state := by
  obtain ⟨path, rows⟩ := lot
  cases rows with
  | deletes rows => exact batched_eq positive ..
  | deleteAlls rows =>
    simp [emit, Group.actions, group, LotRows.batchKind?, LotRows.steps, List.foldl_map]
  | inserts rows => exact batched_eq positive ..
  | updates rows => exact batched_eq positive ..

def PathOrder.before : PathOrder → Nat → Nat → Bool
  | .deepestFirst => deeperFirst
  | .shallowestFirst => shallowerFirst

private theorem PathOrder.isLE_compare (order : PathOrder) (first second : Path) :
    (order.compare first second).isLE = order.before first.depth second.depth := by
  cases order with
  | deepestFirst => exact Bool.eq_iff_iff.mpr (Nat.isLE_compare.trans decide_eq_true_iff.symm)
  | shallowestFirst => exact Bool.eq_iff_iff.mpr (Nat.isLE_compare.trans decide_eq_true_iff.symm)

theorem LotTable.Agrees.emit_eq {table : LotTable} {groups : GroupTable} (agrees : table.Agrees groups)
    {size : Nat} (positive : 0 < size) (state : σ) :
    table.emit size consume state =
      (groups.actions table.order.before (some size)).foldl consume state := by
  have sorted : groups.sorted table.order.before =
      (table.lots.toList.mergeSort fun first second =>
        (table.order.compare first.path second.path).isLE).map Lot.group := by
    rw [GroupTable.sorted, ← agrees.lots]
    refine (List.map_mergeSort fun first _ second _ => ?_).symm
    exact table.order.isLE_compare first.path second.path
  rw [GroupTable.actions_eq, sorted, List.flatMap_map, List.foldl_flatMap, emit]
  simp only [Lot.emit_eq positive]

/-- No policy allows pieces without members, not even one that is refused. -/
theorem BatchPolicy.pieceSize_pos (policy : BatchPolicy) : 0 < policy.pieceSize := by
  unfold pieceSize
  cases limit : policy.chunkSize with
  | none => decide
  | some most => exact chunkSize_pos most limit

theorem memberCount_pos_of_mem_stream {size : Option Nat} {steps : List Step} {action : Action}
    (member : action ∈ stream size steps) : 1 ≤ action.memberCount := by
  cases action with
  | root step => exact Nat.le_refl 1
  | child step => exact Nat.le_refl 1
  | batch path kind members =>
    obtain ⟨key, own⟩ := batch_mem_stream.mp member
    have several := own.several
    rw [Action.memberCount, Action.steps, List.length_map]
    omega

namespace Accumulator

variable (accumulator : Accumulator)

/-- What the lots hand on is a stream, in pieces of the size that the policy gives. -/
theorem dispatch_eq (state : σ) :
    accumulator.dispatch consume state =
      .ok ((stream (some accumulator.policy.pieceSize) accumulator.steps).foldl consume state) := by
  have positive := accumulator.policy.pieceSize_pos
  obtain ⟨deletes, deletesRun, deepest, deletesAgree⟩ := LotTable.addAll_agrees .deepestFirst
    (childrenIn .childDeletes accumulator.steps)
  obtain ⟨writes, writesRun, shallowest, writesAgree⟩ := LotTable.addAll_agrees .shallowestFirst
    (childrenIn .childWrites accumulator.steps)
  unfold childrenIn at *
  simp only [dispatch, deletesRun, writesRun, bind, Except.bind, deletesAgree.emit_eq positive,
    writesAgree.emit_eq positive, deepest, shallowest, stream, List.foldl_append, PathOrder.before]
  rfl

/-- As long as the steps can be counted in a machine word, no limit is the largest limit. -/
theorem actions_eq_stream (counted : accumulator.steps.length < UInt64.size) :
    accumulator.actions = stream (some accumulator.policy.pieceSize) accumulator.steps := by
  rw [actions, BatchPolicy.pieceSize]
  cases accumulator.policy.chunkSize with
  | some most => rfl
  | none =>
    refine (stream_of_fits ?_).symm
    intro key _ most limit
    cases limit
    calc (WritePlan.stepsOf key (childrenOf accumulator.steps)).length
      _ ≤ (childrenOf accumulator.steps).length := List.length_filter_le ..
      _ ≤ accumulator.steps.length := List.length_filterMap_le ..
      _ ≤ UInt64.size - 1 := by omega

theorem dispatch_eq_actions (counted : accumulator.steps.length < UInt64.size) (state : σ) :
    accumulator.dispatch consume state = .ok (accumulator.actions.foldl consume state) := by
  rw [dispatch_eq, accumulator.actions_eq_stream counted]

theorem withPolicy_eq_error {policy : BatchPolicy} :
    accumulator.withPolicy policy = .error (.invalidConfig .emptyBatches) ↔
      policy.maxBatchSize = some 0 := by
  unfold withPolicy BatchPolicy.validate
  split <;> simp_all [bind, Except.bind, pure, Except.pure]

end Accumulator

namespace BatchPolicy

/-- A policy is read from text unless it allows only batches without members. -/
theorem parse_of_policy {text : String} {policy : BatchPolicy}
    (found : (Json.parse? text).bind ofJson? = some policy) :
    parse text = if policy.maxBatchSize = some 0 then .error (.invalidConfig .emptyBatches) else .ok policy := by
  unfold parse validate
  rw [found]
  by_cases empty : policy.maxBatchSize = some 0
  · simp [empty, bind, Except.bind]
  · simp [empty, bind, Except.bind, pure, Except.pure]

theorem parse_render {json : Json} {policy : BatchPolicy} (readable : json.Readable)
    (found : ofJson? json = some policy) :
    parse json.render =
      if policy.maxBatchSize = some 0 then .error (.invalidConfig .emptyBatches) else .ok policy := by
  apply parse_of_policy
  rw [Json.parse?_render readable, Option.bind_some, found]

private theorem maxBatchSizeOfJson?_ofInt {most : Nat} (countable : most < UInt64.size) :
    maxBatchSizeOfJson? (.number (.ofInt most)) = some (some most) := by
  rw [maxBatchSizeOfJson?, Numeral.toInt?_ofInt, Option.bind_eq_bind, Option.bind_some]
  exact if_pos ⟨Int.natCast_nonneg most, countable⟩

private theorem ofJson?_limit (enabled : Bool) {most : Nat} (countable : most < UInt64.size) :
    ofJson? (.ofMembers [("enabled", .boolean enabled),
      ("max_batch_size", .number (.ofInt most))]) = some ⟨enabled, some most⟩ := by
  simp [ofJson?, Json.ofMembers, Json.members?, Json.textOf?_unitsOf, Json.uniqueMember?, ofParts?,
    enabledOfJson?, maxBatchSizeOfJson?_ofInt countable]

/-- Every limit can be written down. A policy is read from the text, but the limit zero is refused. -/
theorem parse_limit (enabled : Bool) {most : Nat} (countable : most < UInt64.size) :
    parse (Json.ofMembers [("enabled", .boolean enabled),
        ("max_batch_size", .number (.ofInt most))]).render =
      if most = 0 then .error (.invalidConfig .emptyBatches) else .ok ⟨enabled, some most⟩ := by
  refine (parse_render (Json.readable_ofMembers ?_) (ofJson?_limit enabled countable)).trans ?_
  · simp only [List.forall_mem_cons]
    exact ⟨Json.readable_boolean enabled, Json.readable_number (Numeral.canonical_ofInt most), nofun⟩
  · simp only [Option.some.injEq]

example : parse "\x7b\"max_batch_size\": 0\x7d" = .error (.invalidConfig .emptyBatches) := by
  decide

end BatchPolicy

namespace Session

/-- How an accumulator can come into a session: it was there before, it is new, or one that was there
has taken in a change or a policy. -/
inductive Origin (session : Session) : Accumulator → Prop
  | kept {held : Accumulator} (member : held ∈ session.accumulators) : Origin session held
  | begun (kind : ChangeKind) (type : EntityType) : Origin session (.new kind type)
  | grown {held next : Accumulator} {change : Change} (member : held ∈ session.accumulators)
      (added : held.add change = .ok next) : Origin session next
  | configured {held next : Accumulator} {policy : BatchPolicy} (member : held ∈ session.accumulators)
      (accepted : held.withPolicy policy = .ok next) : Origin session next

variable {session : Session} {accumulator : Accumulator}

private theorem mem_alter {position : Nat} {change : Accumulator → Except Error Accumulator}
    (member : accumulator ∈ (session.alter position change).accumulators) :
    accumulator ∈ session.accumulators ∨
      ∃ held ∈ session.accumulators, change held = .ok accumulator := by
  unfold alter at member
  split at member
  · rename_i next altered
    obtain ⟨held, present, accepted⟩ := Option.map_eq_some_iff.mp altered
    rcases List.mem_or_eq_of_mem_set member with old | rfl
    · exact .inl old
    · exact .inr ⟨held, List.mem_of_getElem? present, accepted⟩
  · exact .inl member

private theorem Origin.of_addChange {position change : Nat}
    (member : accumulator ∈ (session.addChange position change).accumulators) :
    session.Origin accumulator := by
  unfold addChange at member
  split at member
  · rcases mem_alter member with old | ⟨held, present, added⟩
    · exact .kept old
    · exact .grown present added
  · exact .kept member

theorem accumulators_addAction (change action : Nat) :
    (session.addAction change action).accumulators = session.accumulators := by
  unfold addAction
  split <;> rfl

theorem accumulators_emit (position : Nat) :
    (session.emit position).accumulators = session.accumulators := by
  unfold emit
  split <;> rfl

theorem accumulators_split (action : Nat) :
    (session.split action).accumulators = session.accumulators := by
  unfold split
  split <;> rfl

theorem Origin.of_perform {operation : Operation}
    (member : accumulator ∈ (session.perform operation).accumulators) : session.Origin accumulator := by
  cases operation with
  | beginAccumulator kind type =>
    rcases List.mem_append.mp member with old | new
    · exact .kept old
    · obtain rfl := List.mem_singleton.mp new
      exact .begun kind type
  | addChange position change => exact .of_addChange member
  | configure position policy =>
    rcases mem_alter member with old | ⟨held, present, accepted⟩
    · exact .kept old
    · exact .configured present accepted
  | addAction change action => exact .kept (accumulators_addAction change action ▸ member)
  | emit position => exact .kept (accumulators_emit position ▸ member)
  | split action => exact .kept (accumulators_split action ▸ member)
  | make | beginSave | beginSaveVersioned | beginDelete | beginDeleteByType => exact .kept member

/-- No accumulator of the session has a policy that asks for batches without members. -/
def Valid (session : Session) : Prop :=
  ∀ accumulator ∈ session.accumulators, accumulator.policy.maxBatchSize ≠ some 0

theorem Valid.of_origin (valid : session.Valid) (origin : session.Origin accumulator) :
    accumulator.policy.maxBatchSize ≠ some 0 := by
  cases origin with
  | kept member => exact valid _ member
  | begun kind type => nofun
  | @grown held _ _ member added =>
    obtain ⟨_, rfl⟩ := Accumulator.add_eq_ok.mp added
    exact valid held member
  | configured member accepted =>
    obtain ⟨checked, rfl⟩ := Accumulator.withPolicy_eq_ok.mp accepted
    exact BatchPolicy.validate_eq_ok.mp checked

theorem valid_run (operations : List Operation) : (run operations).Valid := by
  refine List.foldlRecOn operations Session.perform ?_ fun _ valid _ _ _ member =>
    valid.of_origin (.of_perform member)
  intro accumulator member
  cases member

end Session

/-- Rows cut into pieces of at most some size, none of them empty. -/
structure CutInto (size : Nat) (rows : List ρ) (pieces : List (List ρ)) : Prop where
  whole : pieces.flatten = rows
  filled : ∀ piece ∈ pieces, piece ≠ []
  bounded : ∀ piece ∈ pieces, piece.length ≤ size

theorem cutInto_chunks {size : Nat} (positive : 0 < size) (rows : List ρ) :
    CutInto size rows (chunks (some size) rows) where
  whole := flatten_chunks (some size) rows
  filled _ := chunks_ne_nil
  bounded piece member := by
    have short := (length_of_mem_chunksOf member).2
    omega

/-- Under every policy, valid or not, the rounds of handing rows on come to an end. What has been handed
on then are pieces of the rows, all of them filled. With pieces of size zero there would be no end, while
there are rows. So a whole accumulator hands its actions on, each of which stands for a step at least, and
all together for all steps. Policies that ask for pieces of size zero are refused, when they are offered
to an accumulator and when they are read, and no accumulator ever has one. -/
theorem emission_ends :
    (∀ policy : BatchPolicy, 1 ≤ policy.pieceSize) ∧
    (∀ (policy : BatchPolicy) (ρ : Type) (rows : List ρ), ∃ pieces,
      CutInto policy.pieceSize rows pieces ∧
      ∀ (single : ρ → Action) (batch : List ρ → Action) (σ : Type) (consume : σ → Action → σ) (state : σ),
        let result := (pieces.map (.ofPiece single batch)).foldl consume state
        EndsWith (emitRound policy.pieceSize single batch consume) (rows, state) result ∧
        emitPieces policy.pieceSize single batch consume rows state = result) ∧
    (∀ (ρ : Type) (rows : List ρ), rows ≠ [] →
      ∀ (single : ρ → Action) (batch : List ρ → Action) (σ : Type) (consume : σ → Action → σ)
        (state result : σ), ¬ EndsWith (emitRound 0 single batch consume) (rows, state) result) ∧
    (∀ accumulator : Accumulator, ∃ actions : List Action,
      (∀ action ∈ actions, 1 ≤ action.memberCount) ∧
      (actions.flatMap Action.steps).Perm accumulator.steps ∧
      ∀ (σ : Type) (consume : σ → Action → σ) (state : σ),
        accumulator.dispatch consume state = .ok (actions.foldl consume state)) ∧
    (∀ (accumulator : Accumulator) (policy : BatchPolicy),
      accumulator.withPolicy policy = .error (.invalidConfig .emptyBatches) ↔
        policy.maxBatchSize = some 0) ∧
    (∀ (text : String) (policy : BatchPolicy), (Json.parse? text).bind BatchPolicy.ofJson? = some policy →
      BatchPolicy.parse text =
        if policy.maxBatchSize = some 0 then .error (.invalidConfig .emptyBatches) else .ok policy) ∧
    ∀ operations : List Operation, ∀ accumulator ∈ (Session.run operations).accumulators,
      accumulator.policy.maxBatchSize ≠ some 0 := by
  refine ⟨BatchPolicy.pieceSize_pos, ?_, ?_, ?_, ?_, ?_, Session.valid_run⟩
  · intro policy ρ rows
    have positive := policy.pieceSize_pos
    exact ⟨_, cutInto_chunks positive rows, fun _ _ _ _ state =>
      ⟨emitRound_endsWith positive rows state, emitPieces_eq positive rows state⟩⟩
  · intro ρ rows left single batch σ consume state result
    exact emitRound_zero_endless left state result
  · intro accumulator
    refine ⟨stream (some accumulator.policy.pieceSize) accumulator.steps,
      fun _ => memberCount_pos_of_mem_stream, ?_, fun _ _ state => accumulator.dispatch_eq state⟩
    rw [steps_stream]
    exact schedule_perm accumulator.steps
  · intro accumulator policy
    exact accumulator.withPolicy_eq_error
  · intro text policy found
    exact BatchPolicy.parse_of_policy found

end WritePlan
