import WritePlan.Proofs.Emission
import WritePlan.Proofs.Policies
import WritePlan.Session

namespace WritePlan

/-- What is asserted of the members when a batch is made: they work at its path and are of its
kind, inserts with its source of ids. -/
def BatchKind.admits (kind : BatchKind) (path : Path) (members : List ChildStep) : Bool :=
  members.all fun step => step.path == path && step.work.batchKind? == some kind

/-- A batch that may be in a stream made under the policy. -/
structure BatchPolicy.Permits (policy : BatchPolicy) (path : Path) (kind : BatchKind)
    (members : List ChildStep) : Prop where
  enabled : policy.enabled = true
  several : 2 ≤ members.length
  bounded : ∀ most ∈ policy.maxBatchSize, members.length ≤ most
  admitted : kind.admits path members = true

/-- Pushing the action goes down so many levels at most: none for a single action, and for a
batch one more than for its members. -/
inductive Action.DescendsAtMost : Nat → Action → Prop
  | single {levels : Nat} {action : Action} (alone : action.isBatch = false) :
      DescendsAtMost levels action
  | batch {levels : Nat} {action : Action}
      (members : ∀ member ∈ action.split, DescendsAtMost levels member) :
      DescendsAtMost (levels + 1) action

theorem Action.isBatch_ofStep (step : Step) : (Action.ofStep step).isBatch = false := by
  cases step with
  | root step => cases step <;> rfl
  | child step =>
    obtain ⟨path, work⟩ := step
    cases work <;> rfl

theorem Action.isBatch_of_mem_split {action member : Action} (held : member ∈ action.split) :
    member.isBatch = false := by
  obtain ⟨step, _, rfl⟩ := List.mem_map.mp held
  exact isBatch_ofStep step

theorem Action.descendsAtMost_one (action : Action) : action.DescendsAtMost 1 :=
  .batch fun _ held => .single (isBatch_of_mem_split held)

/-- Pushing an action is pushing its members. -/
theorem Collected.push_eq_foldl_split (collected : Collected) (action : Action) :
    collected.push action = action.split.foldl push collected := by
  have single (collected : Collected) (step : Step) :
      collected.push (.ofStep step) = collected.take step := by
    cases step <;> rfl
  rw [push_eq_foldl_take, Action.split, List.foldl_map]
  simp only [single]

/-- The steps of a key, all or some, may be members of a batch. -/
theorem BatchOf.admits {size : Option Nat} {children : List ChildStep} {key : GroupKey} {path : Path}
    {kind : BatchKind} {members : List ChildStep}
    (batch : BatchOf size children key path kind members) : kind.admits path members = true := by
  obtain ⟨first, head, rfl⟩ := Option.map_eq_some_iff.mp batch.first
  have shared : first.groupKey = key := (mem_stepsOf.mp (List.mem_of_head? head)).2
  apply List.all_eq_true.mpr
  intro step held
  have same : step.groupKey = key := (mem_stepsOf.mp (mem_of_mem_chunks batch.piece held)).2
  have segments : step.path.segments = first.path.segments :=
    congrArg GroupKey.segments (same.trans shared.symm)
  have kinds : step.work.batchKind? = some kind :=
    (congrArg GroupKey.kind same).trans batch.kinds
  have paths : (step.path == first.path) = true := Path.beq_iff_segments.mpr segments
  rw [paths, kinds, Bool.true_and]
  exact beq_self_eq_true _

theorem permits_of_mem_stream {policy : BatchPolicy} {steps : List Step} {path : Path}
    {kind : BatchKind} {members : List ChildStep}
    (present : Action.batch path kind members ∈ stream policy.chunkSize steps) :
    policy.Permits path kind members := by
  have enabled : policy.enabled = true := by
    by_contra disabled
    rw [BatchPolicy.chunkSize_of_disabled (Bool.eq_false_iff.mpr disabled)] at present
    have single := not_batch_of_mem_plain present
    rw [Action.isBatch_batch] at single
    cases single
  obtain ⟨key, batch⟩ := batch_mem_stream.mp present
  refine ⟨enabled, batch.several, ?_, batch.admits⟩
  intro most limit
  have size : policy.chunkSize = some (max most 1) := by
    rw [BatchPolicy.chunkSize, if_pos enabled, Option.mem_def.mp limit, Option.map_some]
  have cut := batch.piece
  rw [size, chunks] at cut
  have bound := (length_of_mem_chunksOf cut).2
  have several := batch.several
  omega

namespace Session

/-- If the action is a batch, then it came out of a stream of the session. -/
def Knows (session : Session) (action : Action) : Prop :=
  action.isBatch = true → ∃ stream ∈ session.streams, action ∈ stream.actions

/-- All batches of a session came out of its streams, and these hold batches that their policies
permit. -/
structure Sound (session : Session) : Prop where
  permitted : ∀ stream ∈ session.streams, ∀ path kind members,
    Action.batch path kind members ∈ stream.actions → stream.policy.Permits path kind members
  actions : ∀ action ∈ session.actions, session.Knows action
  changes : ∀ change ∈ session.changes, ∀ action ∈ change.actions, session.Knows action
  accumulators : ∀ accumulator ∈ session.accumulators, ∀ change ∈ accumulator.changes,
    ∀ action ∈ change.actions, session.Knows action

namespace Sound

variable {session : Session}

theorem empty : Session.empty.Sound := by
  constructor <;> intro thing member <;> cases member

theorem hold (sound : session.Sound) {more : List Action}
    (known : ∀ action ∈ more, session.Knows action) : (session.hold more).Sound where
  permitted := sound.permitted
  actions action member := by
    rcases List.mem_append.mp member with old | new
    · exact sound.actions action old
    · exact known action new
  changes := sound.changes
  accumulators := sound.accumulators

theorem begin (sound : session.Sound) {change : Change} (bare : change.actions = []) :
    (session.begin change).Sound where
  permitted := sound.permitted
  actions := sound.actions
  changes other member action held := by
    rcases List.mem_append.mp member with old | new
    · exact sound.changes other old action held
    · obtain rfl := List.mem_singleton.mp new
      rw [bare] at held
      cases held
  accumulators := sound.accumulators

theorem alter (sound : session.Sound) {position : Nat}
    {change : Accumulator → Except Error Accumulator}
    (known : ∀ held ∈ session.accumulators, ∀ next, change held = .ok next →
      ∀ other ∈ next.changes, ∀ action ∈ other.actions, session.Knows action) :
    (session.alter position change).Sound := by
  unfold Session.alter
  split
  · rename_i next altered
    obtain ⟨held, present, accepted⟩ := Option.map_eq_some_iff.mp altered
    refine ⟨sound.permitted, sound.actions, sound.changes, ?_⟩
    intro accumulator member
    rcases List.mem_or_eq_of_mem_set member with old | rfl
    · exact sound.accumulators accumulator old
    · exact known held (List.mem_of_getElem? present) accumulator accepted
  · exact sound

theorem addAction (sound : session.Sound) (change action : Nat) :
    (session.addAction change action).Sound := by
  unfold Session.addAction
  split
  · rename_i held added found given
    refine ⟨sound.permitted, sound.actions, ?_, sound.accumulators⟩
    intro other member own present
    rcases List.mem_or_eq_of_mem_set member with old | rfl
    · exact sound.changes other old own present
    · rcases List.mem_append.mp present with earlier | last
      · exact sound.changes held (List.mem_of_getElem? found) own earlier
      · obtain rfl := List.mem_singleton.mp last
        exact sound.actions own (List.mem_of_getElem? given)
  · exact sound

theorem beginAccumulator (sound : session.Sound) (kind : ChangeKind) (type : EntityType) :
    (session.beginAccumulator kind type).Sound := by
  refine ⟨sound.permitted, sound.actions, sound.changes, ?_⟩
  intro accumulator member change held
  rcases List.mem_append.mp member with old | new
  · exact sound.accumulators accumulator old change held
  · obtain rfl := List.mem_singleton.mp new
    cases held

theorem addChange (sound : session.Sound) (accumulator change : Nat) :
    (session.addChange accumulator change).Sound := by
  unfold Session.addChange
  split
  · rename_i added given
    apply sound.alter
    intro held present next accepted other member
    obtain ⟨_, rfl⟩ := Accumulator.add_eq_ok.mp accepted
    rcases List.mem_append.mp member with old | new
    · exact sound.accumulators held present other old
    · obtain rfl := List.mem_singleton.mp new
      exact sound.changes other (List.mem_of_getElem? given)
  · exact sound

theorem configure (sound : session.Sound) (accumulator : Nat) (policy : BatchPolicy) :
    (session.alter accumulator (·.withPolicy policy)).Sound := by
  apply sound.alter
  intro held present next accepted
  obtain ⟨_, rfl⟩ := Accumulator.withPolicy_eq_ok.mp accepted
  exact sound.accumulators held present

/-- An emission is where batches arise. What was in a stream before still is. -/
theorem emit (sound : session.Sound) (accumulator : Nat) :
    (session.emit accumulator).Sound := by
  unfold Session.emit
  split
  · rename_i held found
    have kept : ∀ action, session.Knows action →
        Session.Knows { session.hold held.actions with
          streams := session.streams ++ [⟨held.policy, held.actions⟩] } action := by
      intro action known batch
      obtain ⟨stream, member, present⟩ := known batch
      exact ⟨stream, List.mem_append_left _ member, present⟩
    constructor
    · intro stream member path kind members present
      rcases List.mem_append.mp member with old | new
      · exact sound.permitted stream old path kind members present
      · obtain rfl := List.mem_singleton.mp new
        exact permits_of_mem_stream present
    · intro action member
      rcases List.mem_append.mp member with old | new
      · exact kept action (sound.actions action old)
      · exact fun _ => ⟨_, List.mem_append_right _ (List.mem_singleton_self _), new⟩
    · intro change member action present
      exact kept action (sound.changes change member action present)
    · intro other member change own action present
      exact kept action (sound.accumulators other member change own action present)
  · exact sound

theorem split (sound : session.Sound) (action : Nat) : (session.split action).Sound := by
  unfold Session.split
  split
  · apply sound.hold
    intro member held batch
    rw [Action.isBatch_of_mem_split held] at batch
    cases batch
  · exact sound

theorem perform (sound : session.Sound) (operation : Operation) :
    (session.perform operation).Sound := by
  cases operation with
  | make step =>
    apply sound.hold
    intro action member batch
    obtain rfl := List.mem_singleton.mp member
    rw [Action.isBatch_ofStep] at batch
    cases batch
  | beginSave root => exact sound.begin rfl
  | beginSaveVersioned root previousVersion => exact sound.begin rfl
  | beginDelete root => exact sound.begin rfl
  | beginDeleteByType type previousVersion => exact sound.begin rfl
  | addAction change action => exact sound.addAction change action
  | beginAccumulator kind type => exact sound.beginAccumulator kind type
  | addChange accumulator change => exact sound.addChange accumulator change
  | configure accumulator policy => exact sound.configure accumulator policy
  | emit accumulator => exact sound.emit accumulator
  | split action => exact sound.split action

theorem foldl_perform (sound : session.Sound) (operations : List Operation) :
    (operations.foldl Session.perform session).Sound := by
  induction operations generalizing session with
  | nil => exact sound
  | cons operation rest ih => exact ih (sound.perform operation)

theorem knows_everyAction (sound : session.Sound) :
    ∀ action ∈ session.everyAction, session.Knows action := by
  intro action member
  simp only [everyAction, List.mem_append, List.mem_flatMap] at member
  rcases member with ((held | ⟨change, own, present⟩) | ⟨change, ⟨accumulator, own, held⟩, present⟩) |
    ⟨stream, own, present⟩
  · exact sound.actions action held
  · exact sound.changes change own action present
  · exact sound.accumulators accumulator own change held action present
  · exact fun _ => ⟨stream, own, present⟩

end Sound

theorem sound_run (operations : List Operation) : (run operations).Sound :=
  Sound.empty.foldl_perform operations

/-- In every session, the batches of each stream are such as the policy of the stream permits, and
a batch that is anywhere in the session came out of one of its streams. No action has a batch
among its members, so that pushing an action pushes its members and goes down one level at most.
Every action stands for at least one single action. -/
theorem batches_of_run (operations : List Operation) :
    (∀ stream ∈ (run operations).streams, ∀ path kind members,
      Action.batch path kind members ∈ stream.actions →
        stream.policy.Permits path kind members) ∧
    (∀ action ∈ (run operations).everyAction, action.isBatch = true →
      ∃ stream ∈ (run operations).streams, action ∈ stream.actions) ∧
    ∀ action ∈ (run operations).everyAction,
      1 ≤ action.memberCount ∧ (∀ member ∈ action.split, member.isBatch = false) ∧
      action.DescendsAtMost 1 ∧
      ∀ collected : Collected, collected.push action = action.split.foldl Collected.push collected := by
  have sound := sound_run operations
  refine ⟨sound.permitted, sound.knows_everyAction, ?_⟩
  intro action member
  refine ⟨?_, fun _ held => Action.isBatch_of_mem_split held, action.descendsAtMost_one,
    fun collected => collected.push_eq_foldl_split action⟩
  cases action with
  | root step => exact Nat.le_refl 1
  | child step => exact Nat.le_refl 1
  | batch path kind members =>
    obtain ⟨stream, own, present⟩ :=
      sound.knows_everyAction _ member (Action.isBatch_batch path kind members)
    have several := (sound.permitted stream own path kind members present).several
    rw [Action.memberCount, Action.steps, List.length_map]
    omega

private def notePath : Path := ⟨.root ⟨"order"⟩, ⟨"note", ⟨"order_note"⟩, true, false, false⟩⟩

private def noteRemoval (id : Int64) : Operation :=
  .make (.child ⟨notePath, .delete (.integer id) none⟩)

private def removals : List Operation :=
  [noteRemoval 1, noteRemoval 2, noteRemoval 3, .beginDeleteByType ⟨"order"⟩ none,
    .addAction 0 0, .addAction 0 1, .addAction 0 2, .beginAccumulator .delete ⟨"order"⟩,
    .addChange 0 0, .emit 0]

/-- The batch that the first stream gave goes into a change of its own. -/
private def refill : List Operation :=
  [.beginDeleteByType ⟨"order"⟩ none, .addAction 1 3, .beginAccumulator .delete ⟨"order"⟩,
    .configure 1 ⟨true, some 2⟩, .addChange 1 1, .emit 1]

/-- A batch of three comes out of a further stream as a batch of two and a single action. -/
example : (run (removals ++ refill)).streams.map (fun stream =>
    stream.actions.map Action.memberCount) = [[3], [2, 1]] := by cbv

end Session

end WritePlan
