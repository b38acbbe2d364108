import WritePlan.Text.Cased
import WritePlan.Text.Cluster
import WritePlan.Text.LowerCase
import WritePlan.Text.UpperCase

/-! Names in snake case. A name is cut into words at separators and where the case or the
kind of its characters changes; the words are lower-cased one by one and joined by
underscores. -/
namespace WritePlan.Text

def reachesCased (text : List Char) : Bool :=
  match text.dropWhile isCaseIgnorable with
  | [] => false
  | c :: _ => isCased c

/-- Lower case with the characters already passed at hand, the nearest first: a capital
sigma that ends a word of letters has a form of its own. -/
def lowercaseAfter (passed : List Char) : List Char → List Char
  | [] => []
  | c :: rest =>
    let lower :=
      if c == 'Σ' && reachesCased passed && !reachesCased rest then ['ς'] else lowerChar c
    lower ++ lowercaseAfter (c :: passed) rest

def lowercase (text : List Char) : List Char := lowercaseAfter [] text

/-- The role of a cluster where words meet. A letter whose two cases differ is upper or
lower if it equals that case; titlecase letters equal neither. -/
inductive LetterKind
  | upper | lower | digit | separator | other
deriving DecidableEq

def LetterKind.of (cluster : Cluster) : LetterKind :=
  if cluster == ['_'] || cluster == ['-'] || cluster == [' '] then .separator
  else if cluster.all Char.isDigit then .digit
  else
    let up := uppercase cluster
    let low := lowercase cluster
    if up == low then .other
    else if cluster == up then .upper
    else if cluster == low then .lower
    else .other

/-- Whether a word ends after the first of these clusters because of the next two. -/
def wordEnds : LetterKind → LetterKind → Option LetterKind → Bool
  | .lower, .upper, _ => true
  | .lower, .digit, _ => true
  | .upper, .digit, _ => true
  | .digit, .lower, _ => true
  | .digit, .upper, _ => true
  | .upper, .upper, some .lower => true
  | _, _, _ => false

/-- The words of a name. Separators are dropped, and what lies between two of them is a
word even when it is empty, so there is always at least one word. -/
def words : List Cluster → List (List Cluster)
  | [] => [[]]
  | c :: rest =>
    let later := words rest
    if LetterKind.of c = .separator then [] :: later
    else
      let ends : Bool :=
        match rest with
        | [] => false
        | next :: more => wordEnds (.of c) (.of next) (more.head?.map LetterKind.of)
      if ends then [c] :: later
      else
        match later with
        | [] => [[c]]
        | word :: others => (c :: word) :: others

/-- The name in snake case. Neighbouring separators leave empty words, which show as
doubled underscores. -/
def snakeCase (name : String) : String :=
  let parts := (words (clusters name.toList)).map fun word => lowercase word.flatten
  String.ofList (['_'].intercalate parts)

def upperCase (text : String) : String := String.ofList (uppercase text.toList)

end WritePlan.Text
