import WritePlan.Entity.Json
import WritePlan.Proofs.ValueText

namespace WritePlan.Entity

variable {entity back : Entity}

def text (entity : Entity) : String := entity.toJson.render

def ofText? (text : String) : Option Entity := do ofJson? (← Json.parse? text)

private theorem put_last {name : String} {value : Value} {properties : List (String × Value)}
    (last : ∀ entry ∈ properties, entry.1 < name) :
    put name value properties = properties ++ [(name, value)] := by
  induction properties with
  | nil => rfl
  | cons head rest ih =>
    obtain ⟨before, later⟩ := List.forall_mem_cons.mp last
    have above : ¬name < head.1 := String.lt_asymm before
    have different : ¬name = head.1 := by
      rintro rfl
      exact String.lt_irrefl _ before
    rw [put, if_neg above, if_neg different, ih later]
    rfl

/-- Properties that come in the order of their names are written one behind the other. -/
theorem properties_setAll {values : List (String × Value)} {start : Entity}
    (ordered : (start.properties ++ values).Pairwise fun first second => first.1 < second.1) :
    (start.setAll values).properties = start.properties ++ values := by
  induction values generalizing start with
  | nil => exact (List.append_nil _).symm
  | cons entry rest ih =>
    have written : (start.set entry.1 entry.2).properties = start.properties ++ [entry] := by
      apply put_last
      intro earlier member
      exact (List.pairwise_append.mp ordered).2.2 earlier member entry List.mem_cons_self
    rw [List.append_cons, ← written] at ordered
    rw [setAll, List.foldl_cons]
    have later := ih ordered
    rw [written, List.append_assoc] at later
    exact later

theorem type_setAll (values : List (String × Value)) (start : Entity) :
    (start.setAll values).type = start.type := by
  induction values generalizing start with
  | nil => rfl
  | cons entry rest ih => exact ih (start.set entry.1 entry.2)

def propertyMembers (entity : Entity) : List (String × Json) :=
  entity.properties.map fun (name, value) => (name, value.toJson)

theorem readable_toJson (entity : Entity) : entity.toJson.Readable := by
  have type : entity.type.toJson.Readable := Json.readable_ofText entity.type.name
  have properties : (Json.ofMembers entity.propertyMembers).Readable := by
    apply Json.readable_ofMembers
    intro member found
    obtain ⟨entry, _, rfl⟩ := List.mem_map.mp found
    exact entry.2.readable_toJson
  apply Json.readable_ofMembers
  intro member found
  rcases List.mem_cons.mp found with rfl | found
  · exact type
  · obtain rfl := List.mem_singleton.mp found
    exact properties

theorem members?_ofMembers (members : List (String × Json)) :
    (Json.ofMembers members).members? = some members := by
  apply mapM_map_self
  rintro ⟨name, value⟩ _
  simp [Json.textOf?_unitsOf]

/-- The object of an entity holds each of its two parts once. -/
theorem ofJson?_toJson (entity : Entity) :
    ofJson? entity.toJson = ofParts? entity.type.toJson (.ofMembers entity.propertyMembers) := by
  have members := members?_ofMembers
    [("entity_type", entity.type.toJson), ("properties", .ofMembers entity.propertyMembers)]
  have read : ofJson? entity.toJson = (entity.toJson.members?.bind fun members =>
      (Json.uniqueMember? members "entity_type").bind fun type =>
        (Json.uniqueMember? members "properties").bind fun properties =>
          type.bind fun type => properties.bind fun properties => ofParts? type properties) := rfl
  rw [read]
  have shown : entity.toJson = .ofMembers
    [("entity_type", entity.type.toJson), ("properties", .ofMembers entity.propertyMembers)] := rfl
  rw [shown, members]
  simp [Json.uniqueMember?]

/-- A property comes back under its name with what is read of its value. -/
def Echoes (held got : String × Value) : Prop :=
  got.1 = held.1 ∧ Value.ofJson? held.2.toJson = some got.2

theorem propertiesOfJson?_eq_some {values : List (String × Value)} :
    propertiesOfJson? (.ofMembers entity.propertyMembers) = some values ↔
      List.Forall₂ Echoes entity.properties values := by
  rw [propertiesOfJson?, members?_ofMembers, Option.bind_eq_bind, Option.bind_some, mapM_eq_some,
    propertyMembers, List.forall₂_map_left_iff]
  have same : ∀ held got : String × Value,
      ((Value.ofJson? held.2.toJson).map fun value => (held.1, value)) = some got ↔
        Echoes held got := by
    intro held got
    rw [Option.map_eq_some_iff]
    constructor
    · rintro ⟨value, read, rfl⟩
      exact ⟨rfl, read⟩
    · rintro ⟨name, read⟩
      exact ⟨got.2, read, by rw [← name]⟩
  constructor
  · exact List.Forall₂.imp fun held got read => (same held got).mp read
  · exact List.Forall₂.imp fun held got echoes => (same held got).mpr echoes

/-- Properties that come back keep the order of their names. -/
private theorem ascending_of_echoes {held got : List (String × Value)}
    (echoes : List.Forall₂ Echoes held got)
    (ordered : held.Pairwise fun first second => first.1 < second.1) :
    got.Pairwise fun first second => first.1 < second.1 := by
  have names : got.map Prod.fst = held.map Prod.fst := by
    induction echoes with
    | nil => rfl
    | cons here _ ih => rw [List.map_cons, List.map_cons, here.1, ih (List.pairwise_cons.mp ordered).2]
  rw [← List.pairwise_map (R := (· < ·)) (f := Prod.fst)] at ordered ⊢
  rwa [names]

theorem setAll_properties (entity : Entity) : (empty entity.type).setAll entity.properties = entity := by
  have properties : ((empty entity.type).setAll entity.properties).properties = entity.properties :=
    properties_setAll entity.ascending
  have type : ((empty entity.type).setAll entity.properties).type = entity.type :=
    type_setAll entity.properties (empty entity.type)
  cases written : (empty entity.type).setAll entity.properties with
  | mk type' properties' ascending' =>
    rw [written] at properties type
    cases entity
    subst properties type
    rfl

theorem ofText?_text (entity : Entity) :
    ofText? entity.text =
      (propertiesOfJson? (.ofMembers entity.propertyMembers)).map (empty entity.type).setAll := by
  have parsed : Json.parse? entity.text = some entity.toJson :=
    Json.parse?_render entity.readable_toJson
  have named : EntityType.ofJson? entity.type.toJson = some entity.type := by
    rw [EntityType.toJson, EntityType.ofJson?, Value.text?_ofText, Option.map_some]
  rw [ofText?, parsed, Option.bind_eq_bind, Option.bind_some, ofJson?_toJson, ofParts?, named]
  cases propertiesOfJson? (.ofMembers entity.propertyMembers) <;> rfl

/-- An entity comes back from its text with its type, and with what is read of each value. -/
theorem ofText?_eq_some : ofText? entity.text = some back ↔
    back.type = entity.type ∧ List.Forall₂ Echoes entity.properties back.properties := by
  rw [ofText?_text, Option.map_eq_some_iff]
  constructor
  · rintro ⟨values, found, rfl⟩
    have echoes := propertiesOfJson?_eq_some.mp found
    have ordered := ascending_of_echoes echoes entity.ascending
    have written : ((empty entity.type).setAll values).properties = values := properties_setAll ordered
    rw [type_setAll, written]
    exact ⟨rfl, echoes⟩
  · rintro ⟨sameType, echoes⟩
    refine ⟨back.properties, propertiesOfJson?_eq_some.mpr echoes, ?_⟩
    rw [← sameType]
    exact setAll_properties back

/-- Only a value that is refused keeps an entity from coming back. -/
theorem ofText?_eq_none : ofText? entity.text = none ↔
    ∃ entry ∈ entity.properties, Value.ofJson? entry.2.toJson = none := by
  rw [ofText?_text, Option.map_eq_none_iff, propertiesOfJson?, members?_ofMembers, Option.bind_eq_bind,
    Option.bind_some, mapM_eq_none, propertyMembers]
  simp

private theorem readsBack_of_echoes {held got : List (String × Value)}
    (echoes : List.Forall₂ Echoes held got)
    (same : (got == held) = true) : ∀ entry ∈ held, entry.2.ReadsBack := by
  induction echoes with
  | nil => simp
  | cons here later ih =>
    rw [List.cons_beq_cons, Bool.and_eq_true] at same
    have value := (Bool.and_eq_true_iff.mp same.1).2
    exact List.forall_mem_cons.mpr ⟨Value.readsBack_of_beq here.2 value, ih same.2⟩

theorem ofText?_self (kept : ∀ name x, (name, .float x) ∈ entity.properties → x.ReadsBack) :
    ofText? entity.text = some entity := by
  rw [ofText?_eq_some, List.forall₂_same]
  refine ⟨rfl, ?_⟩
  rintro ⟨name, value⟩ member
  refine ⟨rfl, value.ofJson?_toJson (Value.readsBack_iff.mpr ?_)⟩
  rintro x rfl
  exact kept name x member

instance : ReflBEq Entity where
  rfl := Bool.and_eq_true_iff.mpr ⟨beq_self_eq_true _, beq_self_eq_true _⟩

/-- An entity comes back from its text as an equal one exactly if each of its floating-point numbers
is finite and is told by its numeral, which numerals of few digits do. It does not come back at all
exactly if one of the numbers is not finite, or has a numeral that is too large. -/
theorem ofText?_text_iff (entity : Entity) :
    ((∃ back, ofText? entity.text = some back ∧ (back == entity) = true) ↔
        ∀ name x, (name, .float x) ∈ entity.properties → x.ReadsBack) ∧
      ((∀ name x, (name, .float x) ∈ entity.properties → x.IsShort) →
        ofText? entity.text = some entity) ∧
      (ofText? entity.text = none ↔
        ∃ name x, (name, .float x) ∈ entity.properties ∧
          (x.isFinite = false ∨ Binary64.ofNumeral? (Json.numberLayout.numeral x) = none)) := by
  refine ⟨⟨?_, ?_⟩, ?_, ?_⟩
  · rintro ⟨back, read, same⟩ name x member
    have properties : (back.properties == entity.properties) = true :=
      (Bool.and_eq_true_iff.mp same).2
    exact readsBack_of_echoes (ofText?_eq_some.mp read).2 properties (name, .float x) member
  · intro kept
    exact ⟨entity, ofText?_self kept, beq_self_eq_true entity⟩
  · intro short
    exact ofText?_self fun name x member => (short name x member).readsBack
  · rw [ofText?_eq_none]
    constructor
    · rintro ⟨⟨name, value⟩, member, refused⟩
      obtain ⟨x, rfl, cause⟩ := Value.ofJson?_toJson_eq_none.mp refused
      exact ⟨name, x, member, cause⟩
    · rintro ⟨name, x, member, cause⟩
      exact ⟨(name, .float x), member, Value.ofJson?_toJson_eq_none.mpr ⟨x, rfl, cause⟩⟩

def reading (x : Binary64) : Entity :=
  ⟨⟨"Reading"⟩, [("level", .float x)], List.pairwise_singleton ..⟩

/-- The number one and a half has few digits. -/
theorem oneAndHalf_read :
    ofText? (reading ⟨0x3FF8000000000000⟩).text = some (reading ⟨0x3FF8000000000000⟩) := by
  apply (ofText?_text_iff (reading ⟨0x3FF8000000000000⟩)).2.1
  intro name x member
  obtain ⟨rfl, isNumber⟩ := Prod.mk.inj (List.mem_singleton.mp member)
  obtain rfl := Value.float.inj isNumber
  exact ⟨by decide +kernel, by decide +kernel, by decide +kernel⟩

/-- The numeral of a number decides which number comes back. -/
private theorem ofText?_reading {x y : Binary64} (finite : x.isFinite = true)
    (read : Binary64.ofNumeral? (Json.numberLayout.numeral x) = some y) :
    ofText? (reading x).text = some (reading y) := by
  have echo : Value.ofJson? (Value.float x).toJson = some (.float y) := by
    rw [Value.ofJson?_float, Value.floatToJson, if_pos finite, Value.floatOfJson?, read,
      Option.map_some]
  exact ofText?_eq_some.mpr ⟨rfl, .cons ⟨rfl, echo⟩ .nil⟩

/-- The entity of a NaN is refused, and that of the largest odd number below two to the 53 comes
back with the even number below. -/
theorem readings_not_kept :
    ofText? (reading ⟨0x7FF8000000000000⟩).text = none ∧
      ofText? (reading ⟨0x433FFFFFFFFFFFFF⟩).text = some (reading ⟨0x433FFFFFFFFFFFFE⟩) ∧
      (reading ⟨0x433FFFFFFFFFFFFE⟩ == reading ⟨0x433FFFFFFFFFFFFF⟩) = false := by
  refine ⟨?_, ?_, by decide⟩
  · exact ofText?_eq_none.mpr ⟨_, List.mem_singleton_self _, rfl⟩
  · have numeral : Json.numberLayout.numeral ⟨0x433FFFFFFFFFFFFF⟩ =
        ⟨false, "9007199254740991".toList, ['0'], none⟩ := by decide +kernel
    have digits : (Numeral.mk false "9007199254740991".toList ['0'] none).coefficient =
        90071992547409910 := by decide +kernel
    have power : (Numeral.mk false "9007199254740991".toList ['0'] none).lastPower = -1 := rfl
    have quotient : ((Binary64.ofNat 90071992547409910).divMagnitude (Binary64.powerOfTen 1)).bits =
        0x433FFFFFFFFFFFFE := by decide +kernel
    apply ofText?_reading (by decide)
    rw [numeral, Binary64.ofNumeral?_of_fits (digits ▸ by decide), digits, power,
      Binary64.timesPowerOfTen?_of_neg _ (by decide) (by decide)]
    exact congrArg (fun bits => some (Binary64.mk bits)) quotient

end WritePlan.Entity
