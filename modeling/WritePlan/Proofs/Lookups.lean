import WritePlan.Lookup
import WritePlan.Proofs.Policies

/-! Look-ups in a stream, told by what was accumulated. A search for batches comes to the first piece
of the first key that has enough steps, because that piece is a batch if any is. -/
namespace WritePlan

/-- A test for batches of wanted kinds for an entity type. -/
structure Seeks (wanted : BatchKind → Prop) (type : EntityType) (test : Action → Bool) : Prop where
  batch : ∀ path kind members,
    test (.batch path kind members) = true ↔ wanted kind ∧ path.type = type
  isBatch : ∀ action, test action = true → action.isBatch = true

/-- The key is of a wanted kind, and has at least two steps, of which the first is for the type. -/
structure Qualifies (children : List ChildStep) (wanted : BatchKind → Prop) (type : EntityType)
    (key : GroupKey) : Prop where
  kind : ∃ kind ∈ key.kind, wanted kind
  several : 2 ≤ (stepsOf key children).length
  type : ∃ first ∈ (stepsOf key children).head?, first.path.type = type

/-- The first batch of a key: as many of its first steps as the size allows, with the path of the very
first. -/
def FirstBatch (size : Option Nat) (children : List ChildStep) (key : GroupKey)
    (action : Action) : Prop :=
  ∃ kind ∈ key.kind, ∃ first ∈ (stepsOf key children).head?, action = .batch first.path kind
    ((stepsOf key children).take (size.getD (stepsOf key children).length))

/-- Among the keys that qualify, the key is the nearest, and the first that was seen of those that are
as near. -/
structure Foremost (children : List ChildStep) (nearer : Nat → Nat → Prop)
    (qualifies : GroupKey → Prop) (key : GroupKey) : Prop where
  qualified : qualifies key
  first : ∀ other, qualifies other → other ≠ key → nearer key.depth other.depth ∨
    key.depth = other.depth ∧ key.firstSight children < other.firstSight children

theorem Qualifies.seen {children : List ChildStep} {wanted : BatchKind → Prop} {type : EntityType}
    {key : GroupKey} (qualifies : Qualifies children wanted type key) : key ∈ keysOf children := by
  by_contra absent
  have several := qualifies.several
  rw [stepsOf_eq_nil.mpr absent] at several
  cases several

section Keys

variable {size : Option Nat} {children : List ChildStep} {wanted : BatchKind → Prop}
  {type : EntityType} {test : Action → Bool} {key : GroupKey} {action : Action}

/-- If batches have room for two, then the search among the actions of a key that qualifies ends with
the first one. -/
private theorem Seeks.find?_of_qualifies (seeks : Seeks wanted type test)
    (room : ∀ most ∈ size, 2 ≤ most) (qualifies : Qualifies children wanted type key) :
    ∃ action, FirstBatch size children key action ∧
      (key.actions size (stepsOf key children)).find? test = some action := by
  obtain ⟨⟨kind, batched, wants⟩, several, first, head, own⟩ := qualifies
  have filled : stepsOf key children ≠ [] := List.ne_nil_of_length_pos (by omega)
  have positive : ∀ most ∈ size, 0 < most := fun most limit =>
    Nat.lt_of_lt_of_le Nat.two_pos (room most limit)
  obtain ⟨rest, cut⟩ := List.head?_eq_some_iff.mp (head?_chunks positive filled)
  refine ⟨_, ⟨kind, batched, first, head, rfl⟩, ?_⟩
  rw [GroupKey.actions_of_some batched head, cut, List.map_cons]
  generalize piece : (stepsOf key children).take _ = front
  have long : 2 ≤ front.length := by
    rw [← piece, List.length_take]
    cases size with
    | none => simpa using several
    | some most => exact Nat.le_min.mpr ⟨room most rfl, several⟩
  have made : Action.ofChunk first.path kind front = .batch first.path kind front :=
    (Action.ofChunk_eq_batch (List.ne_nil_of_length_pos (by omega))).mpr ⟨rfl, rfl, rfl, long⟩
  rw [made]
  exact List.find?_cons_of_pos ((seeks.batch ..).mpr ⟨wants, own⟩)

private theorem Seeks.qualifies_of_mem (seeks : Seeks wanted type test)
    (member : action ∈ key.actions size (stepsOf key children)) (passed : test action = true) :
    Qualifies children wanted type key := by
  obtain ⟨path, kind, members, rfl⟩ := Action.exists_batch (seeks.isBatch action passed)
  obtain ⟨wants, own⟩ := (seeks.batch ..).mp passed
  cases head : (stepsOf key children).head? with
  | none =>
    rw [List.head?_eq_none_iff.mp head, GroupKey.actions_nil] at member
    cases member
  | some first =>
    rw [GroupKey.actions_eq_group head] at member
    obtain ⟨batched, path, piece, several⟩ := Group.batch_mem_actions.mp member
    have bound : members.length ≤ (stepsOf key children).length := by
      have whole := congrArg List.length (flatten_chunks size (stepsOf key children))
      rw [← whole]
      exact (List.sublist_flatten_of_mem piece).length_le
    refine ⟨⟨kind, batched, wants⟩, several.trans bound, first, head, ?_⟩
    rw [← own]
    exact congrArg Path.type path

theorem FirstBatch.unique {other : Action} (first : FirstBatch size children key action)
    (too : FirstBatch size children key other) : action = other := by
  obtain ⟨kind, batched, head, own, rfl⟩ := first
  obtain ⟨_, again, _, same, rfl⟩ := too
  obtain rfl := Option.some.inj (batched.symm.trans again)
  obtain rfl := Option.some.inj (own.symm.trans same)
  rfl

theorem Seeks.find?_actions (seeks : Seeks wanted type test) (room : ∀ most ∈ size, 2 ≤ most) :
    (key.actions size (stepsOf key children)).find? test = some action ↔
      Qualifies children wanted type key ∧ FirstBatch size children key action := by
  constructor
  · intro found
    have qualifies := seeks.qualifies_of_mem (List.mem_of_find?_eq_some found) (List.find?_some found)
    obtain ⟨other, first, same⟩ := seeks.find?_of_qualifies room qualifies
    obtain rfl := Option.some.inj (same.symm.trans found)
    exact ⟨qualifies, first⟩
  · intro ⟨qualifies, first⟩
    obtain ⟨other, too, found⟩ := seeks.find?_of_qualifies room qualifies
    rw [found, too.unique first]

end Keys

private theorem findSome?_flatMap {α β γ : Type} (items : List α) (g : α → List β)
    (f : β → Option γ) :
    (items.flatMap g).findSome? f = items.findSome? fun item => (g item).findSome? f := by
  induction items with
  | nil => rfl
  | cons item rest ih =>
    rw [List.flatMap_cons, List.findSome?_append, ih, List.findSome?_cons]
    cases (g item).findSome? f with
    | none => rfl
    | some result => rfl

namespace Phase

/-- Whether rows of one depth are worked on before those of another depth. -/
def Nearer : Phase → Nat → Nat → Prop
  | .childDeletes => (· > ·)
  | _ => (· < ·)

/-- A phase takes its keys by depth, and keys of one depth as they were first seen. -/
theorem keys_pairwise_nearer (phase : Phase) (steps : List Step) :
    (phase.keys steps).Pairwise fun first second => phase.Nearer first.depth second.depth ∨
      first.depth = second.depth ∧
        first.firstSight (childrenOf steps) < second.firstSight (childrenOf steps) := by
  have sorted : (phase.keys steps).Pairwise fun first second =>
      phase.Nearer first.depth second.depth ∨ first.depth = second.depth := by
    cases phase with
    | childDeletes =>
      refine (List.pairwise_mergeSort (deeperFirst_order.trans_by GroupKey.depth)
        (deeperFirst_order.total_by GroupKey.depth) _).imp fun before => ?_
      exact (Nat.lt_or_eq_of_le (of_decide_eq_true before)).imp_right Eq.symm
    | childWrites =>
      refine (List.pairwise_mergeSort (shallowerFirst_order.trans_by GroupKey.depth)
        (shallowerFirst_order.total_by GroupKey.depth) _).imp fun before => ?_
      exact Nat.lt_or_eq_of_le (of_decide_eq_true before)
    | _ => exact .nil
  refine (sorted.and keys_pairwise_firstSight).imp fun ⟨before, tied⟩ => ?_
  exact before.imp_right fun same => ⟨same, tied same⟩

end Phase

/-- The keys of a stream in the order of execution. -/
def keysSent (steps : List Step) : List GroupKey := Phase.all.flatMap fun phase => phase.keys steps

theorem mem_keysSent {steps : List Step} {key : GroupKey} :
    key ∈ keysSent steps ↔ key ∈ keysOf (childrenOf steps) := by
  rw [keysSent, List.mem_flatMap]
  constructor
  · intro ⟨phase, _, member⟩
    exact (Phase.mem_keys.mp member).1
  · intro seen
    have listed : key.phase ∈ Phase.all := by cases key.phase <;> decide
    exact ⟨key.phase, listed, Phase.mem_keys.mpr ⟨seen, rfl⟩⟩

theorem keysSent_pairwise (steps : List Step) :
    (keysSent steps).Pairwise fun first second => first.phase = second.phase →
      first.phase.Nearer first.depth second.depth ∨ first.depth = second.depth ∧
        first.firstSight (childrenOf steps) < second.firstSight (childrenOf steps) := by
  rw [keysSent, List.pairwise_flatMap]
  refine ⟨?_, ?_⟩
  · intro phase _
    refine (phase.keys_pairwise_nearer steps).imp_of_mem fun left _ before _ => ?_
    rw [(Phase.mem_keys.mp left).2]
    exact before
  · have different : Phase.all.Pairwise (· ≠ ·) := by decide
    refine different.imp fun apart first left second right same => ?_
    rw [(Phase.mem_keys.mp left).2, (Phase.mem_keys.mp right).2] at same
    exact absurd same apart

section Streams

variable {size : Option Nat} {steps : List Step} {wanted : BatchKind → Prop} {type : EntityType}
  {test : Action → Bool} {action : Action}

private theorem Seeks.find?_rootActions (seeks : Seeks wanted type test) (phase : Phase) :
    (rootActions phase steps).find? test = none := by
  rw [List.find?_eq_none]
  intro action member passed
  obtain ⟨step, _, rfl⟩ := List.mem_map.mp member
  have batch := seeks.isBatch _ passed
  cases step <;> cases batch

theorem Seeks.find?_stream (seeks : Seeks wanted type test) :
    (stream size steps).find? test = (keysSent steps).findSome? fun key =>
      (key.actions size (stepsOf key (childrenOf steps))).find? test := by
  have inPhase (phase : Phase) : (streamIn size steps phase).find? test =
      (phase.keys steps).findSome? fun key =>
        (key.actions size (stepsOf key (childrenOf steps))).find? test := by
    rw [streamIn_eq_keys, List.find?_append, seeks.find?_rootActions, Option.none_or,
      List.find?_flatMap]
  rw [stream_eq_flatMap, List.find?_flatMap, keysSent, findSome?_flatMap]
  simp only [inPhase]

/-- Batches with room for two are found if a key qualifies. -/
private theorem Seeks.exists_find?_iff (seeks : Seeks wanted type test)
    (room : ∀ most ∈ size, 2 ≤ most) :
    (∃ action, (stream size steps).find? test = some action) ↔
      ∃ key, Qualifies (childrenOf steps) wanted type key := by
  rw [seeks.find?_stream]
  constructor
  · intro ⟨action, found⟩
    obtain ⟨key, _, own⟩ := List.exists_of_findSome?_eq_some found
    exact ⟨key, ((seeks.find?_actions room).mp own).1⟩
  · intro ⟨key, qualifies⟩
    obtain ⟨action, _, own⟩ := seeks.find?_of_qualifies room qualifies
    have seen : key ∈ keysSent steps := mem_keysSent.mpr qualifies.seen
    rw [← Option.isSome_iff_exists, List.findSome?_isSome_iff]
    exact ⟨key, seen, by rw [own]; rfl⟩

/-- What is found is the first batch of the foremost key that qualifies. -/
private theorem Seeks.foremost_of_find? (seeks : Seeks wanted type test)
    (room : ∀ most ∈ size, 2 ≤ most)
    {phase : Phase} (alike : ∀ key : GroupKey, ∀ kind ∈ key.kind, wanted kind → key.phase = phase)
    (found : (stream size steps).find? test = some action) :
    ∃ key, Foremost (childrenOf steps) phase.Nearer (Qualifies (childrenOf steps) wanted type) key ∧
      FirstBatch size (childrenOf steps) key action := by
  rw [seeks.find?_stream, List.findSome?_eq_some_iff] at found
  obtain ⟨front, key, back, split, own, passed⟩ := found
  obtain ⟨qualifies, first⟩ := (seeks.find?_actions room).mp own
  have phases (key : GroupKey) (qualifies : Qualifies (childrenOf steps) wanted type key) :
      key.phase = phase := by
    obtain ⟨kind, batched, wants⟩ := qualifies.kind
    exact alike key kind batched wants
  refine ⟨key, ⟨qualifies, ?_⟩, first⟩
  intro other too apart
  have seen : other ∈ keysSent steps := mem_keysSent.mpr too.seen
  have ordered := keysSent_pairwise steps
  rw [split] at seen ordered
  rcases List.mem_append.mp seen with earlier | later
  · -- Keys in front would have been found.
    obtain ⟨_, _, missed⟩ := seeks.find?_of_qualifies room too
    rw [passed other earlier] at missed
    cases missed
  · have behind := (List.mem_cons.mp later).resolve_left apart
    have before := (List.pairwise_cons.mp (List.pairwise_append.mp ordered).2.1).1 other behind
    rw [phases key qualifies, phases other too] at before
    exact before rfl

end Streams

/-- What a look-up answers in the stream of an accumulator. It finds an action exactly if batches have
room for two members and a key qualifies, namely the first batch of the foremost such key. Else it
says what is missing. -/
structure Answers (accumulator : Accumulator) (wanted : BatchKind → Prop) (type : EntityType)
    (nearer : Nat → Nat → Prop) (sought : SoughtAction) (answer : Except Error Action) : Prop where
  found_iff : (∃ action, answer = .ok action) ↔
    (∀ most ∈ accumulator.policy.chunkSize, 2 ≤ most) ∧
      ∃ key, Qualifies (childrenOf accumulator.steps) wanted type key
  foremost : ∀ action, answer = .ok action → ∃ key,
    Foremost (childrenOf accumulator.steps) nearer
        (Qualifies (childrenOf accumulator.steps) wanted type) key ∧
      FirstBatch accumulator.policy.chunkSize (childrenOf accumulator.steps) key action
  missing : (¬∃ action, answer = .ok action) → answer = .error (.actionNotFound sought)

namespace Accumulator

variable {accumulator : Accumulator} {wanted : BatchKind → Prop} {type : EntityType}
  {test : Action → Bool} {sought : SoughtAction}

private theorem room_of_batch {action : Action} (member : action ∈ accumulator.actions)
    (batch : action.isBatch = true) : ∀ most ∈ accumulator.policy.chunkSize, 2 ≤ most := by
  intro most limit
  by_contra small
  have positive := BatchPolicy.chunkSize_pos most limit
  obtain rfl : most = 1 := by omega
  rw [actions, limit] at member
  rw [not_batch_of_mem_plain member] at batch
  cases batch

theorem answers_of_seeks (seeks : Seeks wanted type test) {phase : Phase}
    (alike : ∀ key : GroupKey, ∀ kind ∈ key.kind, wanted kind → key.phase = phase) :
    Answers accumulator wanted type phase.Nearer sought
      ((accumulator.actions.find? test).elim (.error (.actionNotFound sought)) .ok) := by
  have found_iff : (∃ action, accumulator.actions.find? test = some action) ↔
      (∀ most ∈ accumulator.policy.chunkSize, 2 ≤ most) ∧
        ∃ key, Qualifies (childrenOf accumulator.steps) wanted type key := by
    constructor
    · intro ⟨action, found⟩
      have room := room_of_batch (List.mem_of_find?_eq_some found)
        (seeks.isBatch action (List.find?_some found))
      exact ⟨room, (seeks.exists_find?_iff room).mp ⟨action, found⟩⟩
    · intro ⟨room, qualifies⟩
      exact (seeks.exists_find?_iff room).mpr qualifies
  cases found : accumulator.actions.find? test with
  | none =>
    rw [found] at found_iff
    refine ⟨?_, ?_, fun _ => rfl⟩
    · rw [← found_iff]
      simp
    · intro action same
      cases same
  | some action =>
    have room := (found_iff.mp ⟨action, found⟩).1
    refine ⟨⟨fun _ => found_iff.mp ⟨action, found⟩, fun _ => ⟨action, rfl⟩⟩, ?_, ?_⟩
    · intro other same
      cases same
      exact seeks.foremost_of_find? room alike found
    · intro missing
      exact absurd ⟨action, rfl⟩ missing

end Accumulator

namespace Lookup

theorem firstInsertBatch_eq (actions : List Action) (type : EntityType) (source : IdSource) :
    firstInsertBatch actions type source = (actions.find? (isInsertBatch type source)).elim
      (.error (.actionNotFound (.insertBatch type source))) .ok := by
  rw [firstInsertBatch]
  cases actions.find? (isInsertBatch type source) with
  | none => rfl
  | some action => rfl

theorem firstOf_eq (actions : List Action) (kind : ActionKind) (type : EntityType) :
    firstOf actions kind type =
      (actions.find? fun action => action.kind == kind && action.type == type).elim
        (.error (.actionNotFound (.ofKind kind type))) .ok := by
  rw [firstOf, actionsOf, List.head?_filter]
  cases actions.find? fun action => action.kind == kind && action.type == type with
  | none => rfl
  | some action => rfl

theorem seeks_isInsertBatch (type : EntityType) (source : IdSource) :
    Seeks (· = .insert source) type (isInsertBatch type source) where
  batch path kind members := by
    cases kind with
    | insert own => simp [isInsertBatch, and_comm]
    | update => simp [isInsertBatch]
    | delete => simp [isInsertBatch]
  isBatch action passed := by
    cases action with
    | root => cases passed
    | child => cases passed
    | batch path kind members => exact Action.isBatch_batch path kind members

theorem seeks_kind (type : EntityType) {kind : ActionKind} (batch : kind.isBatch = true) :
    Seeks (fun own => own.kind = kind) type
      fun action => action.kind == kind && action.type == type where
  batch path own members := by
    rw [Bool.and_eq_true, beq_iff_eq, beq_iff_eq]
    rfl
  isBatch action passed := by
    have same := beq_iff_eq.mp (Bool.and_eq_true_iff.mp passed).1
    rw [Action.isBatch, same, batch]

def phaseOf (kind : ActionKind) : Phase :=
  if kind = .batchDelete then .childDeletes else .childWrites

theorem phase_of_mem_kind {key : GroupKey} {kind : BatchKind} (batched : kind ∈ key.kind) :
    key.phase = phaseOf kind.kind := by
  rw [GroupKey.phase, Option.mem_def.mp batched]
  cases kind with
  | insert => rfl
  | update => rfl
  | delete => rfl

theorem answers_firstOf (accumulator : Accumulator) (type : EntityType) {kind : ActionKind}
    (batch : kind.isBatch = true) :
    Answers accumulator (fun own => own.kind = kind) type (phaseOf kind).Nearer (.ofKind kind type)
      (firstOf accumulator.actions kind type) := by
  rw [firstOf_eq]
  refine Accumulator.answers_of_seeks (seeks_kind type batch) ?_
  intro key own batched same
  rw [phase_of_mem_kind batched, same]

theorem answers_firstInsertBatch (accumulator : Accumulator) (type : EntityType)
    (source : IdSource) :
    Answers accumulator (fun kind => kind = .insert source) type (phaseOf .batchInsert).Nearer
      (.insertBatch type source) (firstInsertBatch accumulator.actions type source) := by
  rw [firstInsertBatch_eq]
  refine Accumulator.answers_of_seeks (seeks_isInsertBatch type source) ?_
  rintro key _ batched rfl
  exact phase_of_mem_kind batched

/-- What look-ups for batches find in the stream of an accumulator, told by what was accumulated.
Inserts and updates are found at the shallowest path, deletes at the deepest; if inserts with ids from
one source are found, then inserts are found. -/
theorem answers_of_actions (accumulator : Accumulator) (type : EntityType) :
    (∀ source, Answers accumulator (fun kind => kind = .insert source) type (· < ·)
      (.insertBatch type source) (firstInsertBatch accumulator.actions type source)) ∧
    Answers accumulator (fun kind => kind.kind = .batchInsert) type (· < ·)
      (.ofKind .batchInsert type) (firstOf accumulator.actions .batchInsert type) ∧
    Answers accumulator (fun kind => kind.kind = .batchUpdate) type (· < ·)
      (.ofKind .batchUpdate type) (firstOf accumulator.actions .batchUpdate type) ∧
    Answers accumulator (fun kind => kind.kind = .batchDelete) type (· > ·)
      (.ofKind .batchDelete type) (firstOf accumulator.actions .batchDelete type) ∧
    ∀ source, (∃ action, firstInsertBatch accumulator.actions type source = .ok action) →
      ∃ action, firstOf accumulator.actions .batchInsert type = .ok action := by
  have inserts : Answers accumulator (fun kind => kind.kind = .batchInsert) type (· < ·)
      (.ofKind .batchInsert type) (firstOf accumulator.actions .batchInsert type) :=
    answers_firstOf accumulator type rfl
  refine ⟨answers_firstInsertBatch accumulator type, inserts, answers_firstOf accumulator type rfl,
    answers_firstOf accumulator type rfl, ?_⟩
  intro source found
  have ofSource := answers_firstInsertBatch accumulator type source
  obtain ⟨room, key, ⟨kind, batched, own⟩, several, head⟩ := ofSource.found_iff.mp found
  exact inserts.found_iff.mpr ⟨room, key, ⟨kind, batched, own ▸ rfl⟩, several, head⟩

end Lookup

end WritePlan
