import WritePlan.Proofs.JsonText
import WritePlan.Proofs.Outcomes
import WritePlan.Proofs.ShortestDecimal
import WritePlan.Proofs.TimestampText
import WritePlan.Value.Json

namespace WritePlan

open Text

namespace Uuid

private theorem mapM_plain (id : Uuid) : id.plain.mapM hexValue? = some id.digits :=
  mapM_map_self fun digit _ => hexValue?_hexDigit digit

private theorem ofPlain?_plain (id : Uuid) : ofPlain? id.plain = some id := by
  simp [ofPlain?, mapM_plain, id.count]

private theorem length_text (id : Uuid) : id.text.length = 36 := by
  simp [text, hyphenate, plain, id.count]

private theorem hexDigit_ne (digit : Fin 16) : hexDigit digit ≠ '-' ∧ hexDigit digit ≠ '{' ∧
    (hexDigit digit).toLower ≠ 'u' := by
  revert digit
  decide

/-- Without the hyphens the five groups are the digits again. -/
private theorem filter_text (id : Uuid) : id.text.filter (· != '-') = id.plain := by
  have digit (part : List Char) (within : part ⊆ id.plain) : part.filter (· != '-') = part := by
    apply List.filter_eq_self.mpr
    intro c member
    obtain ⟨digit, _, rfl⟩ := List.mem_map.mp (within member)
    simp [hexDigit_ne]
  have group (start size : Nat) :
      (id.plain.drop start).take size ++ id.plain.drop (start + size) = id.plain.drop start := by
    rw [← List.drop_drop, List.take_append_drop]
  have taken (start size : Nat) : (id.plain.drop start).take size ⊆ id.plain :=
    fun _ member => List.mem_of_mem_drop (List.mem_of_mem_take member)
  rw [text, hyphenate]
  simp only [List.filter_append, List.filter_cons, bne_self_eq_false, Bool.false_eq_true, ↓reduceIte,
    List.append_assoc]
  rw [digit (id.plain.take 8) (List.take_subset _ _), digit _ (taken 8 4), digit _ (taken 12 4),
    digit _ (taken 16 4), digit _ (List.drop_subset _ _), group 16 4, group 12 4, group 8 4,
    List.take_append_drop]

/-- With its hyphens an identifier is too long to be read without them. -/
private theorem ofPlain?_text (id : Uuid) : ofPlain? id.text = none := by
  cases read : id.text.mapM hexValue? with
  | none => simp [ofPlain?, read]
  | some digits =>
    have size := (mapM_eq_some.mp read).length_eq
    rw [length_text] at size
    simp [ofPlain?, read, ← size]

theorem ofText?_text (id : Uuid) : ofText? id.text = some id := by
  have hyphenated : ofHyphenated? id.text = some id := by
    rw [ofHyphenated?, filter_text, ofPlain?_plain]
    exact if_pos rfl
  obtain ⟨digit, rest, first⟩ : ∃ digit rest, id.text = hexDigit digit :: rest := by
    cases digits : id.digits with
    | nil => exact absurd id.count (by simp [digits])
    | cons digit others => exact ⟨digit, _, by simp [text, hyphenate, plain, digits]; rfl⟩
  have plain := ofPlain?_text id
  rw [first] at hyphenated plain ⊢
  -- A digit is neither the brace nor the first letter of the resource name.
  have noBrace := (hexDigit_ne digit).2.1
  have noLetter := (hexDigit_ne digit).2.2
  simp [ofText?, noBrace, noLetter, plain, hyphenated]

end Uuid

/-- The number is finite and its JSON numeral is read as the number itself. -/
def Binary64.ReadsBack (x : Binary64) : Prop :=
  x.isFinite = true ∧ ofNumeral? (Json.numberLayout.numeral x) = some x

/-- The number is finite, and its JSON numeral has few digits and a small power of ten. -/
structure Binary64.IsShort (x : Binary64) : Prop where
  finite : x.isFinite = true
  few : (Json.numberLayout.numeral x).coefficient < 2 ^ 53
  small : (Json.numberLayout.numeral x).lastPower.natAbs ≤ 22

theorem Binary64.IsShort.readsBack {x : Binary64} (short : x.IsShort) : x.ReadsBack :=
  ⟨short.finite, NumberLayout.ofNumeral?_numeral rfl short.finite short.few short.small⟩

namespace Value

/-- The value is no floating-point number or one that reads back. -/
def ReadsBack : Value → Prop
  | .float x => x.ReadsBack
  | _ => True

theorem readsBack_iff {value : Value} :
    value.ReadsBack ↔ ∀ x, value = .float x → x.ReadsBack := by
  cases value <;> simp [ReadsBack]

theorem readable_member (name : String) {json : Json} (readable : json.Readable) :
    (Json.ofMembers [(name, json)]).Readable :=
  Json.readable_ofMembers (by simpa using readable)

theorem readable_floatToJson (x : Binary64) : (floatToJson x).Readable := by
  have places : ∀ c ∈ Json.numberLayout.wholeFraction, c.isDigit = true := by
    intro c member
    obtain rfl := List.mem_singleton.mp member
    rfl
  unfold floatToJson
  split
  · exact Json.readable_number (NumberLayout.canonical_numeral places x)
  · simp [Json.Readable, Json.tokens, Json.Token.Readable]

theorem readable_toJson (value : Value) : value.toJson.Readable := by
  cases value with
  | null => exact Json.readable_ofText "Null"
  | integer n => exact readable_member _ (Json.readable_number (Numeral.canonical_ofInt n.toInt))
  | float x => exact readable_member _ (readable_floatToJson x)
  | text s => exact readable_member _ (Json.readable_ofText s)
  | boolean b => exact readable_member _ (Json.readable_boolean b)
  | uuid id => exact readable_member _ (Json.readable_ofText _)
  | timestamp t => exact readable_member _ (Json.readable_ofText _)

theorem integerOfJson?_number (n : Int64) :
    integerOfJson? (.number (.ofInt n.toInt)) = some n := by
  rw [integerOfJson?, Numeral.toInt?_ofInt, Option.bind_eq_bind, Option.bind_some,
    if_pos ⟨Int64.minValue_le_toInt n, Int64.toInt_le n⟩, Int64.ofInt_toInt]

theorem ofJson?_member (name : String) (json : Json) :
    ofJson? (.ofMembers [(name, json)]) = ofMember? name json := by
  simp [ofJson?, Json.ofMembers, Json.textOf?_unitsOf]

theorem text?_ofText (text : String) : (Json.ofText text).text? = some text :=
  Json.textOf?_unitsOf text

theorem ofJson?_float (x : Binary64) :
    ofJson? (toJson (.float x)) = (floatOfJson? (floatToJson x)).map .float := by
  rw [toJson, ofJson?_member, ofMember?]

/-- A value is read from its JSON, unless it is a number whose numeral tells another one. -/
theorem ofJson?_toJson (value : Value) (kept : value.ReadsBack) :
    ofJson? value.toJson = some value := by
  cases value with
  | null => simp [toJson, ofJson?, Json.ofText, Json.textOf?_unitsOf, ofName?]
  | integer n => rw [toJson, ofJson?_member, ofMember?, integerOfJson?_number, Option.map_some]
  | float x =>
    rw [ofJson?_float, floatToJson, if_pos kept.1, floatOfJson?, kept.2, Option.map_some]
  | text s => rw [toJson, ofJson?_member, ofMember?, text?_ofText, Option.map_some]
  | boolean b => rfl
  | uuid id =>
    rw [toJson, ofJson?_member, ofMember?, text?_ofText, Option.bind_some, String.toList_ofList,
      Uuid.ofText?_text, Option.map_some]
  | timestamp t =>
    rw [toJson, ofJson?_member, ofMember?, text?_ofText, Option.bind_some, String.toList_ofList,
      Timestamp.ofText?_zuluText, Option.map_some]

/-- A value that comes back equal is one that reads back: equality tells all finite numbers
apart. -/
theorem readsBack_of_beq {value back : Value} (read : ofJson? value.toJson = some back)
    (same : (back == value) = true) : value.ReadsBack := by
  cases value with
  | float x =>
    rw [ofJson?_float] at read
    obtain ⟨y, found, rfl⟩ := Option.map_eq_some_iff.mp read
    unfold floatToJson at found
    by_cases finite : x.isFinite = true
    · rw [if_pos finite] at found
      have equal : (y == x) = true := same
      rcases (Binary64.beq_iff y x).mp equal with rfl | ⟨_, isNaN⟩
      · exact ⟨finite, found⟩
      · simp only [Binary64.isNaN, Bool.and_eq_true, beq_iff_eq] at isNaN
        simp [Binary64.isFinite, isNaN.1] at finite
    · rw [if_neg finite] at found
      cases found
  | _ => trivial

/-- Of all values only numbers can be refused: those that are not finite, and those whose numeral
is too large. -/
theorem ofJson?_toJson_eq_none {value : Value} : ofJson? value.toJson = none ↔
    ∃ x, value = .float x ∧
      (x.isFinite = false ∨ Binary64.ofNumeral? (Json.numberLayout.numeral x) = none) := by
  cases value with
  | float x =>
    rw [ofJson?_float, Option.map_eq_none_iff, floatToJson]
    by_cases finite : x.isFinite = true
    · simp [finite, floatOfJson?]
    · simp [finite, floatOfJson?]
  | null => simp [ofJson?_toJson .null trivial]
  | integer n => simp [ofJson?_toJson (.integer n) trivial]
  | text s => simp [ofJson?_toJson (.text s) trivial]
  | boolean b => simp [ofJson?_toJson (.boolean b) trivial]
  | uuid id => simp [ofJson?_toJson (.uuid id) trivial]
  | timestamp t => simp [ofJson?_toJson (.timestamp t) trivial]

instance : ReflBEq Value where
  rfl := by
    intro value
    cases value with
    | float x => exact (Binary64.beq_iff x x).mpr (.inl rfl)
    | null => rfl
    | integer n => exact beq_self_eq_true n
    | text s => exact beq_self_eq_true s
    | boolean b => exact beq_self_eq_true b
    | uuid id => exact beq_self_eq_true id
    | timestamp t => exact beq_self_eq_true t

end Value

end WritePlan
