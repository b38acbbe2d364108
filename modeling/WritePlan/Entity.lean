import WritePlan.Value

namespace WritePlan

/-- The type of an entity, known by its name. -/
structure EntityType where
  name : String
deriving DecidableEq, Hashable, Inhabited

structure Entity where
  type : EntityType
  properties : List (String × Value)
  ascending : properties.Pairwise (fun first second => first.1 < second.1)

namespace Entity

instance : BEq Entity where
  beq a b := a.type == b.type && a.properties == b.properties

def empty (type : EntityType) : Entity := ⟨type, [], .nil⟩

def get? (entity : Entity) (name : String) : Option Value := entity.properties.lookup name

/-- Puts a value in its place among properties in ascending order; the value that had the
name is gone. -/
def put (name : String) (value : Value) : List (String × Value) → List (String × Value)
  | [] => [(name, value)]
  | (other, held) :: rest =>
    if name < other then (name, value) :: (other, held) :: rest
    else if name = other then (name, value) :: rest
    else (other, held) :: put name value rest

private theorem fst_mem_of_mem_put {name : String} {value : Value} {entry : String × Value}
    {properties : List (String × Value)} (member : entry ∈ put name value properties) :
    entry = (name, value) ∨ entry ∈ properties := by
  induction properties with
  | nil => simpa [put] using member
  | cons head rest ih =>
    unfold put at member
    split at member
    · simpa using member
    · split at member
      · rcases List.mem_cons.mp member with same | later
        · exact .inl same
        · exact .inr (List.mem_cons_of_mem _ later)
      · rcases List.mem_cons.mp member with same | later
        · exact .inr (by simp [same])
        · exact (ih later).imp_right (List.mem_cons_of_mem _)

theorem ascending_put {name : String} {value : Value} {properties : List (String × Value)}
    (ordered : properties.Pairwise (fun first second => first.1 < second.1)) :
    (put name value properties).Pairwise (fun first second => first.1 < second.1) := by
  induction properties with
  | nil => simp [put]
  | cons head rest ih =>
    obtain ⟨before, later⟩ := List.pairwise_cons.mp ordered
    unfold put
    split
    · rename_i smaller
      refine List.pairwise_cons.mpr ⟨fun entry member => ?_, ordered⟩
      rcases List.mem_cons.mp member with same | after
      · simpa [same] using smaller
      · exact String.lt_trans smaller (before entry after)
    · split
      · rename_i same
        exact List.pairwise_cons.mpr ⟨fun entry member => by simpa [same] using before entry member, later⟩
      · rename_i notSmaller different
        refine List.pairwise_cons.mpr ⟨fun entry member => ?_, ih later⟩
        rcases fst_mem_of_mem_put member with same | held
        · subst same
          exact String.not_le.mp fun reached =>
            different (String.le_antisymm reached (String.not_lt.mp notSmaller))
        · exact before entry held

/-- Writes a property; the last write of a name counts. -/
def set (entity : Entity) (name : String) (value : Value) : Entity :=
  ⟨entity.type, put name value entity.properties, ascending_put entity.ascending⟩

def setAll (entity : Entity) (values : List (String × Value)) : Entity :=
  values.foldl (fun entity entry => entity.set entry.1 entry.2) entity

end Entity

end WritePlan
