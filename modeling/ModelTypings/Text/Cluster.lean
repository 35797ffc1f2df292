import ModelTypings.Text.Ranges
import ModelTypings.Text.Cluster.Table

/-!
# Extended grapheme clusters

* `breakClass`: the part a character plays at a cluster boundary;
* `joins`: a character continues the cluster before it;
* `clusters`: the clusters of a text, in order.
-/

namespace ModelTypings.Text

/-- The values of Grapheme_Cluster_Break. -/
inductive BreakClass
  | carriageReturn
  | lineFeed
  | control
  | extend
  | joiner
  | regional
  | prepend
  | spacingMark
  | leading
  | vowel
  | trailing
  | syllableOpen
  | syllableClosed
  | other
  deriving DecidableEq

/-- The class of a Hangul letter or syllable. -/
def hangulClass (n : Nat) : BreakClass :=
  if 0x1100 ≤ n ∧ n ≤ 0x115F ∨ 0xA960 ≤ n ∧ n ≤ 0xA97C then .leading
  else if 0x1160 ≤ n ∧ n ≤ 0x11A7 ∨ 0xD7B0 ≤ n ∧ n ≤ 0xD7C6 then .vowel
  else if 0x11A8 ≤ n ∧ n ≤ 0x11FF ∨ 0xD7CB ≤ n ∧ n ≤ 0xD7FB then .trailing
  else if 0xAC00 ≤ n ∧ n ≤ 0xD7A3 then
    if (n - 0xAC00) % 28 = 0 then .syllableOpen else .syllableClosed
  else .other

/-- The part of `c` at a cluster boundary. -/
def breakClass (c : Char) : BreakClass :=
  if c = '\r' then .carriageReturn
  else if c = '\n' then .lineFeed
  else if c.toNat < 0x20 ∨ c.toNat = 0x7F then .control
  else if c.toNat < 0x80 then .other
  else if c.toNat = 0x200D then .joiner
  else if 0x1F1E6 ≤ c.toNat ∧ c.toNat ≤ 0x1F1FF then .regional
  else if inRanges extendingRanges c || (0x1F3FB ≤ c.toNat && c.toNat ≤ 0x1F3FF) then .extend
  else if inRanges spacingMarkRanges c then .spacingMark
  else if inRanges prependRanges c then .prepend
  else if inRanges controlRanges c then .control
  else hangulClass c.toNat

/-- `c` attaches to what comes before it inside a pictograph or a conjunct. -/
def isExtender (c : Char) : Bool := breakClass c = .extend

/-- `c` has the property Extended_Pictographic. -/
def isPictograph (c : Char) : Bool := inRanges pictographRanges c

/-- `c` is a consonant that a virama can join. -/
def isConjunctConsonant (c : Char) : Bool := inRanges conjunctConsonantRanges c

/-- A cluster, reversed, ends with a pictograph, extenders and a joiner. -/
def endsJoinedPictograph : List Char → Bool
  | z :: s =>
    breakClass z = .joiner &&
      match s.dropWhile isExtender with
      | p :: _ => isPictograph p
      | [] => false
  | [] => false

/-- A cluster, reversed, ends with a consonant and a virama among extenders and joiners. -/
def endsJoiningConjunct (s : List Char) : Bool :=
  let attached := fun c => isExtender c || breakClass c = .joiner
  (s.takeWhile attached).any (fun c => conjunctLinkers.contains c.toNat) &&
    match s.dropWhile attached with
    | k :: _ => isConjunctConsonant k
    | [] => false

/-- `c` continues the cluster whose characters are `before`, last one first. -/
def joins (before : List Char) (c : Char) : Bool :=
  match before with
  | [] => false
  | b :: _ =>
    match breakClass b, breakClass c with
    | .carriageReturn, .lineFeed => true
    | .carriageReturn, _ | .lineFeed, _ | .control, _ => false
    | _, .carriageReturn | _, .lineFeed | _, .control => false
    | .leading, .leading | .leading, .vowel | .leading, .syllableOpen
    | .leading, .syllableClosed => true
    | .syllableOpen, .vowel | .syllableOpen, .trailing | .vowel, .vowel
    | .vowel, .trailing => true
    | .syllableClosed, .trailing | .trailing, .trailing => true
    | _, .extend | _, .joiner | _, .spacingMark => true
    | .prepend, _ => true
    | .regional, .regional =>
      (before.takeWhile fun x => breakClass x = .regional).length % 2 == 1
    | _, _ =>
      isConjunctConsonant c && endsJoiningConjunct before ||
        isPictograph c && endsJoinedPictograph before

/-- The clusters of a text that follows an open cluster, given in reverse. -/
def clustersAfter (before : List Char) : List Char → List (List Char)
  | [] => [before.reverse]
  | c :: cs =>
    if joins before c then clustersAfter (c :: before) cs
    else before.reverse :: clustersAfter [c] cs

/-- The extended grapheme clusters of a text. -/
def clusters : List Char → List (List Char)
  | [] => []
  | c :: cs => clustersAfter [c] cs

end ModelTypings.Text
