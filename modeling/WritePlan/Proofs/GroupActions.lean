import WritePlan.Proofs.Grouping

namespace WritePlan

theorem chunks_ne_nil {size : Option Nat} {items piece : List α} (member : piece ∈ chunks size items) :
    piece ≠ [] := by
  cases size with
  | some size => exact List.length_pos_iff.mp (length_of_mem_chunksOf member).1
  | none =>
    cases items with
    | nil => simp [chunks] at member
    | cons first rest =>
      obtain rfl := List.mem_singleton.mp member
      exact List.cons_ne_nil first rest

theorem mem_of_mem_chunks {size : Option Nat} {items piece : List α} (member : piece ∈ chunks size items)
    {item : α} (held : item ∈ piece) : item ∈ items := by
  rw [← flatten_chunks size items]
  exact List.mem_flatten.mpr ⟨piece, member, held⟩

private theorem Action.ofChunk_eq_child {path : Path} {kind : BatchKind} {piece : List ChildStep}
    {step : ChildStep} (same : Action.ofChunk path kind piece = .child step) : piece = [step] := by
  unfold Action.ofChunk at same
  split at same
  · cases same
    rfl
  · cases same

theorem Action.ofChunk_eq_batch {path own : Path} {kind ownKind : BatchKind}
    {piece members : List ChildStep} (filled : piece ≠ []) :
    Action.ofChunk path kind piece = .batch own ownKind members ↔
      own = path ∧ ownKind = kind ∧ members = piece ∧ 2 ≤ piece.length := by
  match piece with
  | [] => exact absurd rfl filled
  | [only] => simp [Action.ofChunk]
  | first :: second :: rest =>
    simp only [Action.ofChunk, Action.batch.injEq, List.length_cons]
    constructor
    · intro same
      obtain ⟨rfl, rfl, rfl⟩ := same
      exact ⟨rfl, rfl, rfl, by omega⟩
    · intro same
      obtain ⟨rfl, rfl, rfl, _⟩ := same
      exact ⟨rfl, rfl, rfl⟩

namespace Group

variable {group : Group} {size : Option Nat}

theorem root_not_mem_actions {step : RootStep} : Action.root step ∉ group.actions size := by
  unfold actions Action.ofChunk
  split
  · simp
  · simp only [List.mem_map, not_exists, not_and]
    intro piece _
    split <;> simp

theorem mem_of_child_mem_actions {step : ChildStep} (member : Action.child step ∈ group.actions size) :
    step ∈ group.steps := by
  unfold actions at member
  split at member
  · obtain ⟨other, held, same⟩ := List.mem_map.mp member
    cases same
    exact held
  · obtain ⟨piece, cut, same⟩ := List.mem_map.mp member
    exact mem_of_mem_chunks cut (Action.ofChunk_eq_child same ▸ List.mem_singleton_self step)

/-- The batches of a group are its pieces of at least two steps. -/
theorem batch_mem_actions {path : Path} {kind : BatchKind} {members : List ChildStep} :
    Action.batch path kind members ∈ group.actions size ↔
      group.kind = some kind ∧ group.path = path ∧ members ∈ chunks size group.steps ∧
        2 ≤ members.length := by
  unfold actions
  cases own : group.kind with
  | none => simp
  | some ownKind =>
    simp only [List.mem_map, Option.some.injEq]
    constructor
    · intro present
      obtain ⟨piece, cut, same⟩ := present
      obtain ⟨rfl, rfl, rfl, several⟩ := (Action.ofChunk_eq_batch (chunks_ne_nil cut)).mp same
      exact ⟨rfl, rfl, cut, several⟩
    · intro found
      obtain ⟨rfl, rfl, cut, several⟩ := found
      exact ⟨members, cut,
        (Action.ofChunk_eq_batch (chunks_ne_nil cut)).mpr ⟨rfl, rfl, rfl, several⟩⟩

end Group

end WritePlan
