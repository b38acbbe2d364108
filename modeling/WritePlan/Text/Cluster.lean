import WritePlan.Text.ClusterBreak

/-! User-perceived characters: a base with the marks that follow it and the signs written
before it, syllables of letters that are written as one, pairs of letters that make a flag,
and pictographs linked by joiners. -/
namespace WritePlan.Text

abbrev Cluster := List Char

/-- What the end of a cluster is waiting for: a pictograph that a joiner may link, one that
a joiner has linked to what follows, a consonant that a linker may bind, one that a linker
has bound to what follows, or the first letter of a flag. -/
inductive Tail
  | plain | pictograph | linked | consonant | bound | flag
deriving DecidableEq

def Tail.next : Tail → ClusterBreak → Tail
  | _, .pictographic => .pictograph
  | .pictograph, .extend => .pictograph
  | .pictograph, .linker => .pictograph
  | .pictograph, .nonJoiner => .pictograph
  | .pictograph, .joiner => .linked
  | _, .consonant => .consonant
  | .consonant, .extend => .consonant
  | .consonant, .joiner => .consonant
  | .consonant, .linker => .bound
  | .bound, .extend => .bound
  | .bound, .joiner => .bound
  | .bound, .linker => .bound
  | .flag, .regional => .plain
  | _, .regional => .flag
  | _, _ => .plain

def Tail.awaits : Tail → ClusterBreak → Bool
  | .linked, .pictographic => true
  | .bound, .consonant => true
  | .flag, .regional => true
  | _, _ => false

namespace ClusterBreak

def isControl : ClusterBreak → Bool
  | .carriageReturn => true
  | .lineFeed => true
  | .control => true
  | _ => false

/-- Characters that belong to whatever stands before them. -/
def isMark : ClusterBreak → Bool
  | .extend => true
  | .linker => true
  | .nonJoiner => true
  | .joiner => true
  | .spacingMark => true
  | _ => false

/-- Whether two neighbours are parts of one Korean syllable. -/
def inSyllable : ClusterBreak → ClusterBreak → Bool
  | .initialConsonant, .initialConsonant => true
  | .initialConsonant, .vowel => true
  | .initialConsonant, .openSyllable => true
  | .initialConsonant, .closedSyllable => true
  | .openSyllable, .vowel => true
  | .openSyllable, .finalConsonant => true
  | .vowel, .vowel => true
  | .vowel, .finalConsonant => true
  | .closedSyllable, .finalConsonant => true
  | .finalConsonant, .finalConsonant => true
  | _, _ => false

end ClusterBreak

/-- A cluster that may still grow: its characters, the newest first. -/
structure OpenCluster where
  newest : Char
  older : List Char
  tail : Tail

def OpenCluster.start (c : Char) : OpenCluster :=
  ⟨c, [], Tail.plain.next (.of c)⟩

def OpenCluster.push (cluster : OpenCluster) (c : Char) : OpenCluster :=
  ⟨c, cluster.newest :: cluster.older, cluster.tail.next (.of c)⟩

def OpenCluster.close (cluster : OpenCluster) : Cluster :=
  (cluster.newest :: cluster.older).reverse

/-- Whether the next character belongs to the cluster. Controls stand alone, except that a
carriage return keeps its line feed. -/
def OpenCluster.accepts (cluster : OpenCluster) (c : Char) : Bool :=
  let last := ClusterBreak.of cluster.newest
  let next := ClusterBreak.of c
  if last.isControl || next.isControl then last == .carriageReturn && next == .lineFeed
  else next.isMark || last == .prepend || last.inSyllable next || cluster.tail.awaits next

def OpenCluster.finish (cluster : OpenCluster) : List Char → List Cluster
  | [] => [cluster.close]
  | c :: rest =>
    if cluster.accepts c then (cluster.push c).finish rest
    else cluster.close :: (OpenCluster.start c).finish rest

def clusters : List Char → List Cluster
  | [] => []
  | c :: rest => (OpenCluster.start c).finish rest

end WritePlan.Text
