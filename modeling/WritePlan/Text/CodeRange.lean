namespace WritePlan.Text

def inRanges (ranges : List (Nat × Nat)) (c : Char) : Bool :=
  ranges.any fun range => range.1 ≤ c.toNat && c.toNat ≤ range.2

/-- White space of any script: spaces, tabs, line ends and the wide and narrow spaces of
typography. -/
def blankRanges : List (Nat × Nat) :=
  [(0x0009, 0x000D), (0x0020, 0x0020), (0x0085, 0x0085), (0x00A0, 0x00A0), (0x1680, 0x1680),
   (0x2000, 0x200A), (0x2028, 0x2029), (0x202F, 0x202F), (0x205F, 0x205F), (0x3000, 0x3000)]

def isBlank (c : Char) : Bool := inRanges blankRanges c

def trimStart (text : List Char) : List Char := text.dropWhile isBlank

/-- Whether nothing but white space is there; the empty text is blank too. -/
def allBlank (text : List Char) : Bool := text.all isBlank

/-- Characters from `first` to `last`, every `step` places, that all change case by the
same distance. -/
structure CaseRange where
  first : Nat
  last : Nat
  step : Nat
  shift : Int

def CaseRange.contains (range : CaseRange) (c : Char) : Bool :=
  range.first ≤ c.toNat && c.toNat ≤ range.last && (c.toNat - range.first) % range.step == 0

def CaseRange.apply (range : CaseRange) (c : Char) : Char :=
  Char.ofNat (c.toNat + range.shift).toNat

/-- The other-case form of a character: a listed sequence, else the shift of its range,
else the character itself. -/
def mapCase (ranges : List CaseRange) (sequences : List (Nat × List Nat)) (c : Char) : List Char :=
  match sequences.lookup c.toNat with
  | some codes => codes.map Char.ofNat
  | none =>
    match ranges.find? (·.contains c) with
    | some range => [range.apply c]
    | none => [c]

end WritePlan.Text
