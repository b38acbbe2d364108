import WritePlan.Json.Reader
import WritePlan.Json.Writer
import WritePlan.Proofs.Numerals
import Mathlib.Data.List.Chain

/-! Compact JSON text is read back as the value it was written from, as long as strings consist of
whole characters and numerals are written without superfluous zeros. Main statement:
`parse?_render`. -/
namespace WritePlan.Json

open Text

namespace Token

/-- What the written form keeps: numerals in canonical form and strings of whole characters. -/
def Readable : Token → Prop
  | .number numeral => numeral.Canonical
  | .string units => ∃ text : List Char, units = text.map .char
  | _ => True

/-- Whether the token is a bracket, brace, comma or colon, which ends itself and whatever stands
in front of it. -/
def isMark : Token → Bool
  | .beginArray | .endArray | .beginObject | .endObject | .comma | .colon => true
  | _ => false

/-- Of two neighbours at least one is a mark, so their texts cannot run into each other. -/
def Apart (first second : Token) : Prop := first.isMark = true ∨ second.isMark = true

end Token

namespace Scanner

variable {tokens : List Token} {units : List TextUnit}

/-- Where the scanner stands behind the text of a token: a word or a numeral could still go on. -/
def after (tokens : List Token) (token : Token) : Scanner :=
  match token with
  | .null | .boolean _ => ⟨tokens, .word token.text.reverse⟩
  | .number _ => ⟨tokens, .numeral token.text.reverse⟩
  | _ => ⟨token :: tokens, .idle⟩

private theorem scan_codeEscape {code : Nat} (small : code < 65536) :
    (codeEscape code).foldlM step? ⟨tokens, .quoted units .absent⟩ =
      some ⟨tokens, .quoted (pushCode units code) .absent⟩ := by
  have value : ((code / 4096 % 16 * 16 + code / 256 % 16) * 16 + code / 16 % 16) * 16 + code % 16 =
      code := by
    omega
  simp [codeEscape, step?, quote?, lastHexDigit, hexValue?_hexDigit, value]

/-- The number of a character is no half of a pair. -/
private theorem pushCode_toNat (c : Char) : pushCode units c.toNat = .char c :: units := by
  have whole : c.toNat < 0xD800 ∨ 0xDFFF < c.toNat := c.valid.imp_right And.left
  have low : ¬(56320 ≤ c.toNat ∧ c.toNat ≤ 57343) := by omega
  have high : ¬(55296 ≤ c.toNat ∧ c.toNat < 56320) := by omega
  simp [pushCode, low, high]

/-- Whatever the form a character is written in, it is read back. -/
theorem scan_charText (c : Char) :
    (charText c).foldlM step? ⟨tokens, .quoted units .absent⟩ =
      some ⟨tokens, .quoted (.char c :: units) .absent⟩ := by
  unfold charText
  split
  · rfl
  · rfl
  · rfl
  · rfl
  · rfl
  · rfl
  · rfl
  · rename_i quote backslash _ _ _ _ _
    by_cases control : c.toNat < 0x20
    · rw [if_pos control, scan_codeEscape (by omega), pushCode_toNat]
    · have noQuote : ¬c = '"' := quote
      have noBackslash : ¬c = '\\' := backslash
      simp [step?, quote?, control, noQuote, noBackslash]

theorem scan_unitTexts (text : List Char) (units : List TextUnit) :
    ((text.map TextUnit.char).flatMap unitText).foldlM step? ⟨tokens, .quoted units .absent⟩ =
      some ⟨tokens, .quoted ((text.map TextUnit.char).reverse ++ units) .absent⟩ := by
  induction text generalizing units with
  | nil => rfl
  | cons c rest ih =>
    rw [List.map_cons, List.flatMap_cons, List.foldlM_append, unitText, scan_charText]
    simp [ih]

private theorem scan_marks {marks : List Char} (all : ∀ c ∈ marks, isNumeralMark c = true)
    (before : List Char) :
    marks.foldlM step? ⟨tokens, .numeral before⟩ =
      some ⟨tokens, .numeral (marks.reverse ++ before)⟩ := by
  induction marks generalizing before with
  | nil => rfl
  | cons c rest ih =>
    obtain ⟨first, others⟩ := List.forall_mem_cons.mp all
    rw [List.foldlM_cons]
    simp [step?, first, ih others]

private theorem scan_opened {first : Char} {marks : List Char}
    (opened : begin? tokens first = some ⟨tokens, .numeral [first]⟩)
    (all : ∀ c ∈ marks, isNumeralMark c = true) :
    (first :: marks).foldlM step? ⟨tokens, .idle⟩ =
      some ⟨tokens, .numeral (first :: marks).reverse⟩ := by
  have begun : step? ⟨tokens, .idle⟩ first = some ⟨tokens, .numeral [first]⟩ := opened
  rw [List.foldlM_cons, begun, List.reverse_cons]
  exact scan_marks all [first]

private theorem begin?_digit {c : Char} (digit : c.isDigit = true) :
    begin? tokens c = some ⟨tokens, .numeral [c]⟩ := by
  unfold begin?
  split
  iterate 11 exact absurd digit (by decide)
  rw [if_pos (by simp [digit])]

theorem isNumeralMark_of_isDigit {c : Char} (digit : c.isDigit = true) :
    isNumeralMark c = true := by
  simp [isNumeralMark, digit]

private theorem isNumeralMark_exponentText (exponent : Option Int) :
    ∀ c ∈ Numeral.exponentText exponent, isNumeralMark c = true := by
  intro c member
  cases exponent with
  | none => cases member
  | some power =>
    rcases List.mem_cons.mp member with mark | member
    · rw [mark]
      rfl
    · rcases List.mem_cons.mp member with sign | digit
      · rw [sign]
        by_cases below : power < 0
        · rw [if_pos below]
          rfl
        · rw [if_neg below]
          rfl
      · exact isNumeralMark_of_isDigit (isDigit_of_mem_toDigits digit)

private theorem isNumeralMark_fractionText {fraction : List Char}
    (digits : ∀ c ∈ fraction, c.isDigit = true) :
    ∀ c ∈ Numeral.fractionText fraction, isNumeralMark c = true := by
  intro c member
  cases fraction with
  | nil => cases member
  | cons first more =>
    rcases List.mem_cons.mp member with point | digit
    · rw [point]
      rfl
    · exact isNumeralMark_of_isDigit (digits c digit)

/-- The scanner takes in a numeral as a whole, and leaves it open. -/
theorem scan_numeral {numeral : Numeral} (canonical : numeral.Canonical) :
    numeral.text.foldlM step? ⟨tokens, .idle⟩ =
      some ⟨tokens, .numeral numeral.text.reverse⟩ := by
  have marks : ∀ c ∈ numeral.whole ++ (Numeral.fractionText numeral.fraction ++
      Numeral.exponentText numeral.exponent), isNumeralMark c = true := by
    intro c member
    rcases List.mem_append.mp member with whole | member
    · exact isNumeralMark_of_isDigit (canonical.whole c whole)
    · rcases List.mem_append.mp member with fraction | exponent
      · exact isNumeralMark_fractionText canonical.fraction c fraction
      · exact isNumeralMark_exponentText numeral.exponent c exponent
  rw [Numeral.text_eq]
  cases numeral.negative with
  | true => exact scan_opened rfl marks
  | false =>
    cases whole : numeral.whole with
    | nil => exact absurd whole canonical.filled
    | cons digit more =>
      rw [whole, List.cons_append] at marks
      have first := canonical.whole digit (by simp [whole])
      exact scan_opened (begin?_digit first) (List.forall_mem_cons.mp marks).2

theorem scan_text (tokens : List Token) {token : Token} (readable : token.Readable) :
    token.text.foldlM step? ⟨tokens, .idle⟩ = some (after tokens token) := by
  cases token with
  | number numeral => exact scan_numeral readable
  | string units =>
    obtain ⟨text, rfl⟩ := readable
    have opened : step? ⟨tokens, .idle⟩ '"' = some ⟨tokens, .quoted [] .absent⟩ := rfl
    rw [Token.text, List.cons_append, List.foldlM_cons, opened]
    simp [List.foldlM_append, scan_unitTexts, step?, quote?, after]
  | boolean value => cases value <;> rfl
  | null => rfl
  | beginArray => rfl
  | endArray => rfl
  | beginObject => rfl
  | endObject => rfl
  | comma => rfl
  | colon => rfl

/-- A character that goes on with no token ends the one that is open. -/
private theorem step?_after {token : Token} (readable : token.Readable) {c : Char}
    (noLetter : c.isLower = false) (noMark : isNumeralMark c = false) :
    (after tokens token).step? c = begin? (token :: tokens) c := by
  cases token with
  | number numeral =>
    have read : Numeral.ofText? numeral.text = some numeral := Numeral.ofText?_text readable
    simp [after, step?, noMark, Token.text, read]
  | null => simp [after, step?, noLetter, Token.text, wordToken?]
  | boolean value => cases value <;> simp [after, step?, noLetter, Token.text, wordToken?]
  | string units => rfl
  | beginArray => rfl
  | endArray => rfl
  | beginObject => rfl
  | endObject => rfl
  | comma => rfl
  | colon => rfl

private theorem finish?_after {token : Token} (readable : token.Readable) :
    (after tokens token).finish? = some (token :: tokens).reverse := by
  cases token with
  | number numeral =>
    have read : Numeral.ofText? numeral.text = some numeral := Numeral.ofText?_text readable
    simp [after, finish?, Token.text, read]
  | null => simp [after, finish?, Token.text, wordToken?]
  | boolean value => cases value <;> simp [after, finish?, Token.text, wordToken?]
  | string units => rfl
  | beginArray => rfl
  | endArray => rfl
  | beginObject => rfl
  | endObject => rfl
  | comma => rfl
  | colon => rfl

private theorem scan_next (tokens : List Token) {first second : Token} (readable : first.Readable)
    (next : second.Readable) (apart : first.Apart second) :
    second.text.foldlM step? (after tokens first) = some (after (first :: tokens) second) := by
  rcases apart with closed | mark
  · have ended : after tokens first = ⟨first :: tokens, .idle⟩ := by
      cases first <;> first | rfl | cases closed
    rw [ended]
    exact scan_text (first :: tokens) next
  · obtain ⟨c, text, noLetter, noMark⟩ : ∃ c, second.text = [c] ∧ c.isLower = false ∧
        isNumeralMark c = false := by
      cases second <;> first | exact ⟨_, rfl, by decide⟩ | cases mark
    have scanned := scan_text (first :: tokens) next
    rw [text, List.foldlM_cons] at scanned ⊢
    rw [step?_after readable noLetter noMark]
    exact scanned

private theorem scan_rest (tokens : List Token) {first : Token} {rest : List Token}
    (apart : (first :: rest).IsChain Token.Apart)
    (readable : ∀ token ∈ first :: rest, token.Readable) :
    ((rest.flatMap Token.text).foldlM step? (after tokens first)).bind finish? =
      some (tokens.reverse ++ first :: rest) := by
  induction rest generalizing first tokens with
  | nil => simpa using finish?_after (readable first List.mem_cons_self)
  | cons second rest ih =>
    obtain ⟨neighbours, apart⟩ := List.isChain_cons_cons.mp apart
    obtain ⟨here, later⟩ := List.forall_mem_cons.mp readable
    have next := scan_next tokens here (later second List.mem_cons_self) neighbours
    rw [List.flatMap_cons, List.foldlM_append, next]
    simpa using ih (first :: tokens) apart later

end Scanner

/-- Tokens that stand apart are found again in their joined text. -/
theorem Token.scan?_flatMap_text {tokens : List Token} (apart : tokens.IsChain Token.Apart)
    (readable : ∀ token ∈ tokens, token.Readable) :
    scan? (tokens.flatMap Token.text) = some tokens := by
  cases tokens with
  | nil => rfl
  | cons first rest =>
    have scanned := Scanner.scan_text [] (readable first List.mem_cons_self)
    have found := Scanner.scan_rest [] apart readable
    rw [scan?, List.flatMap_cons, List.foldlM_append]
    simpa [Scanner.start, scanned] using found

private theorem apart_cons {mark : Token} {rest : List Token} (isMark : mark.isMark = true)
    (apart : rest.IsChain Token.Apart) : (mark :: rest).IsChain Token.Apart := by
  cases rest with
  | nil => exact .singleton mark
  | cons next rest => exact .cons_cons (.inl isMark) apart

private theorem apart_append {front back : List Token} (apart : front.IsChain Token.Apart)
    (later : back.IsChain Token.Apart) (marked : ∀ token ∈ back.head?, token.isMark = true) :
    (front ++ back).IsChain Token.Apart :=
  List.isChain_append.mpr ⟨apart, later, fun _ _ next first => .inr (marked next first)⟩

private theorem head?_itemTokens (items : List Json) :
    ∀ token ∈ (itemTokens items).head?, token.isMark = true := by
  cases items <;> simp [itemTokens, Token.isMark]

private theorem head?_memberTokens (members : List (List TextUnit × Json)) :
    ∀ token ∈ (memberTokens members).head?, token.isMark = true := by
  cases members <;> simp [memberTokens, Token.isMark]

mutual

theorem apart_tokens : ∀ json : Json, json.tokens.IsChain Token.Apart
  | .null => .singleton _
  | .boolean _ => .singleton _
  | .number _ => .singleton _
  | .string _ => .singleton _
  | .array [] => apart_cons rfl (.singleton _)
  | .array (item :: items) =>
    apart_cons rfl (apart_append (apart_tokens item) (apart_itemTokens items) (head?_itemTokens items))
  | .object [] => apart_cons rfl (.singleton _)
  | .object ((_, value) :: members) =>
    apart_cons rfl <| .cons_cons (.inr rfl) <| apart_cons rfl <|
      apart_append (apart_tokens value) (apart_memberTokens members) (head?_memberTokens members)

theorem apart_itemTokens : ∀ items : List Json, (itemTokens items).IsChain Token.Apart
  | [] => .singleton _
  | item :: items =>
    apart_cons rfl (apart_append (apart_tokens item) (apart_itemTokens items) (head?_itemTokens items))

theorem apart_memberTokens :
    ∀ members : List (List TextUnit × Json), (memberTokens members).IsChain Token.Apart
  | [] => .singleton _
  | (_, value) :: members =>
    apart_cons rfl <| .cons_cons (.inr rfl) <| apart_cons rfl <|
      apart_append (apart_tokens value) (apart_memberTokens members) (head?_memberTokens members)

end

namespace Reader

variable {frames : List Frame}

/-- A value does not begin with the end of an array, so the first item is read like any other. -/
private theorem read_firstItem (json : Json) :
    json.tokens.foldlM step? (.firstItem frames) =
      json.tokens.foldlM step? (.due (.array [] :: frames)) := by
  cases json with
  | array items => cases items <;> rfl
  | object members => cases members <;> rfl
  | null => rfl
  | boolean value => rfl
  | number numeral => rfl
  | string units => rfl

mutual

theorem read_tokens : ∀ (json : Json) (frames : List Frame),
    json.tokens.foldlM step? (.due frames) = some (.complete json frames)
  | .null, _ => rfl
  | .boolean _, _ => rfl
  | .number _, _ => rfl
  | .string _, _ => rfl
  | .array [], _ => rfl
  | .array (item :: items), frames => by
    have opened (rest : List Token) : (.beginArray :: rest).foldlM step? (.due frames) =
        rest.foldlM step? (.firstItem frames) := rfl
    rw [tokens, List.cons_append, opened, List.foldlM_append, read_firstItem, read_tokens item]
    exact read_itemTokens items item [] frames
  | .object [], _ => rfl
  | .object ((name, value) :: members), frames => by
    have opened (rest : List Token) :
        (.beginObject :: .string name :: .colon :: rest).foldlM step? (.due frames) =
          rest.foldlM step? (.due (.object [] name :: frames)) := rfl
    simp only [tokens, List.cons_append]
    rw [opened, List.foldlM_append, read_tokens value]
    exact read_memberTokens members name value [] frames

/-- What follows an item completes its array. -/
theorem read_itemTokens : ∀ (items : List Json) (item : Json) (before : List Json)
    (frames : List Frame),
    (itemTokens items).foldlM step? (.complete item (.array before :: frames)) =
      some (.complete (.array (before.reverse ++ item :: items)) frames)
  | [], item, before, frames => by
    simp [itemTokens, step?, afterValue?]
  | next :: items, item, before, frames => by
    have comma (rest : List Token) :
        (.comma :: rest).foldlM step? (.complete item (.array before :: frames)) =
          rest.foldlM step? (.due (.array (item :: before) :: frames)) := rfl
    rw [itemTokens, List.cons_append, comma, List.foldlM_append, read_tokens next]
    have later := read_itemTokens items next (item :: before) frames
    rwa [List.reverse_cons, List.append_assoc] at later

theorem read_memberTokens : ∀ (members : List (List TextUnit × Json)) (name : List TextUnit)
    (value : Json) (before : List (List TextUnit × Json)) (frames : List Frame),
    (memberTokens members).foldlM step? (.complete value (.object before name :: frames)) =
      some (.complete (.object (before.reverse ++ (name, value) :: members)) frames)
  | [], name, value, before, frames => by
    simp [memberTokens, step?, afterValue?]
  | (next, held) :: members, name, value, before, frames => by
    have comma (rest : List Token) :
        (.comma :: .string next :: .colon :: rest).foldlM step?
            (.complete value (.object before name :: frames)) =
          rest.foldlM step? (.due (.object ((name, value) :: before) next :: frames)) := rfl
    simp only [memberTokens, List.cons_append]
    rw [comma, List.foldlM_append, read_tokens held]
    have later := read_memberTokens members next held ((name, value) :: before) frames
    rwa [List.reverse_cons, List.append_assoc] at later

end

end Reader

/-- All numerals of the value are canonical and all its strings consist of whole characters. -/
def Readable (json : Json) : Prop := ∀ token ∈ json.tokens, token.Readable

theorem parse?_render {json : Json} (readable : json.Readable) : parse? json.render = some json := by
  have scanned := Token.scan?_flatMap_text (apart_tokens json) readable
  rw [parse?, render, String.toList_ofList, scanned, Option.bind_eq_bind, Option.bind_some, ofTokens?,
    Reader.read_tokens]
  rfl

theorem readable_ofText (text : String) : (ofText text).Readable := by
  intro token member
  obtain rfl := List.mem_singleton.mp member
  exact ⟨text.toList, rfl⟩

theorem readable_boolean (value : Bool) : (boolean value).Readable := by
  simp [Readable, tokens, Token.Readable]

theorem readable_number {numeral : Numeral} (canonical : numeral.Canonical) :
    (number numeral).Readable := by
  intro token member
  obtain rfl := List.mem_singleton.mp member
  exact canonical

/-- A name is a text, so only the values of an object decide whether it is read back. -/
private theorem readable_named {name : String} {value : Json} {rest : List Token}
    (readable : value.Readable) (later : ∀ token ∈ rest, token.Readable) :
    ∀ token ∈ Token.string (unitsOf name) :: .colon :: (value.tokens ++ rest), token.Readable := by
  simp only [List.forall_mem_cons, List.forall_mem_append]
  exact ⟨⟨name.toList, rfl⟩, trivial, readable, later⟩

private theorem readable_memberTokens {members : List (String × Json)}
    (values : ∀ member ∈ members, member.2.Readable) :
    ∀ token ∈ memberTokens (members.map fun (name, value) => (unitsOf name, value)),
      token.Readable := by
  induction members with
  | nil => simp [memberTokens, Token.Readable]
  | cons member members ih =>
    obtain ⟨value, values⟩ := List.forall_mem_cons.mp values
    exact List.forall_mem_cons.mpr ⟨trivial, readable_named value (ih values)⟩

theorem readable_ofMembers {members : List (String × Json)}
    (values : ∀ member ∈ members, member.2.Readable) : (ofMembers members).Readable := by
  cases members with
  | nil => simp [ofMembers, Readable, tokens, Token.Readable]
  | cons member members =>
    obtain ⟨value, values⟩ := List.forall_mem_cons.mp values
    exact List.forall_mem_cons.mpr
      ⟨trivial, readable_named value (readable_memberTokens values)⟩

end WritePlan.Json
