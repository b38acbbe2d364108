import WritePlan.Json
import WritePlan.Text.Digits

/-! The tokens of JSON text. The scanner takes one character at a time; its state is the
tokens found so far and the token that is still open. -/
namespace WritePlan.Json

open Text

inductive Token
  | beginArray | endArray | beginObject | endObject | comma | colon
  | null
  | boolean (value : Bool)
  | number (numeral : Numeral)
  | string (units : List TextUnit)
deriving DecidableEq

inductive Escape
  | absent
  | begun
  | code (digits : List (Fin 16))

/-- The token that is still open. Collected characters and units have the newest first. -/
inductive Pending
  | idle
  | word (letters : List Char)
  | numeral (marks : List Char)
  | quoted (units : List TextUnit) (escape : Escape)

structure Scanner where
  tokens : List Token
  pending : Pending

namespace Scanner

def start : Scanner := ⟨[], .idle⟩

def isNumeralMark (c : Char) : Bool :=
  c.isDigit || c == '-' || c == '+' || c == '.' || c == 'e' || c == 'E'

def wordToken? (letters : List Char) : Option Token :=
  if letters = "null".toList then some .null
  else if letters = "true".toList then some (.boolean true)
  else if letters = "false".toList then some (.boolean false)
  else none

/-- Begins a token, or passes over white space. -/
def begin? (tokens : List Token) (c : Char) : Option Scanner :=
  match c with
  | ' ' => some ⟨tokens, .idle⟩
  | '\t' => some ⟨tokens, .idle⟩
  | '\n' => some ⟨tokens, .idle⟩
  | '\r' => some ⟨tokens, .idle⟩
  | '[' => some ⟨.beginArray :: tokens, .idle⟩
  | ']' => some ⟨.endArray :: tokens, .idle⟩
  | '{' => some ⟨.beginObject :: tokens, .idle⟩
  | '}' => some ⟨.endObject :: tokens, .idle⟩
  | ',' => some ⟨.comma :: tokens, .idle⟩
  | ':' => some ⟨.colon :: tokens, .idle⟩
  | '"' => some ⟨tokens, .quoted [] .absent⟩
  | _ =>
    if c == '-' || c.isDigit then some ⟨tokens, .numeral [c]⟩
    else if c.isLower then some ⟨tokens, .word [c]⟩
    else none

/-- Adds a code unit that was written as four hexadecimal digits. Two halves of a pair in
a row become one character. -/
def pushCode (units : List TextUnit) (code : Nat) : List TextUnit :=
  if 0xDC00 ≤ code && code ≤ 0xDFFF then
    match units with
    | .half high :: older =>
      if high < 0xDC00 then
        .char (Char.ofNat (0x10000 + (high - 0xD800) * 0x400 + (code - 0xDC00))) :: older
      else .half code :: units
    | _ => .half code :: units
  else if 0xD800 ≤ code && code < 0xDC00 then .half code :: units
  else .char (Char.ofNat code) :: units

def escaped? : Char → Option Char
  | '"' => some '"'
  | '\\' => some '\\'
  | '/' => some '/'
  | 'b' => some '\x08'
  | 'f' => some '\x0c'
  | 'n' => some '\n'
  | 'r' => some '\r'
  | 't' => some '\t'
  | _ => none

/-- The next character inside quotes. Control characters must be escaped. -/
def quote? (tokens : List Token) (units : List TextUnit) (escape : Escape) (c : Char) :
    Option Scanner :=
  match escape with
  | .absent =>
    if c == '"' then some ⟨.string units.reverse :: tokens, .idle⟩
    else if c == '\\' then some ⟨tokens, .quoted units .begun⟩
    else if c.toNat < 0x20 then none
    else some ⟨tokens, .quoted (.char c :: units) .absent⟩
  | .begun =>
    if c == 'u' then some ⟨tokens, .quoted units (.code [])⟩
    else (escaped? c).map fun plain => ⟨tokens, .quoted (.char plain :: units) .absent⟩
  | .code digits => do
    let digit ← hexValue? c
    match digits with
    | [c, b, a] =>
      let code := ((a.val * 16 + b.val) * 16 + c.val) * 16 + digit.val
      some ⟨tokens, .quoted (pushCode units code) .absent⟩
    | _ => some ⟨tokens, .quoted units (.code (digit :: digits))⟩

/-- Takes in one character. A numeral or a word ends where a character cannot belong to
it. -/
def step? (s : Scanner) (c : Char) : Option Scanner :=
  match s.pending with
  | .idle => begin? s.tokens c
  | .word letters =>
    if c.isLower then some ⟨s.tokens, .word (c :: letters)⟩
    else do begin? ((← wordToken? letters.reverse) :: s.tokens) c
  | .numeral marks =>
    if isNumeralMark c then some ⟨s.tokens, .numeral (c :: marks)⟩
    else do begin? (.number (← Numeral.ofText? marks.reverse) :: s.tokens) c
  | .quoted units escape => quote? s.tokens units escape c

def finish? (s : Scanner) : Option (List Token) :=
  match s.pending with
  | .idle => some s.tokens.reverse
  | .word letters => do some ((← wordToken? letters.reverse) :: s.tokens).reverse
  | .numeral marks => do some (.number (← Numeral.ofText? marks.reverse) :: s.tokens).reverse
  | .quoted _ _ => none

end Scanner

def Token.scan? (text : List Char) : Option (List Token) := do
  (← text.foldlM Scanner.step? Scanner.start).finish?

end WritePlan.Json
