import ModelTypings.Text.Ranges
import ModelTypings.Text.Case.Table

/-!
# Upper and lower case

* `upperChar`, `lowerChar`: the full case mappings of one character;
* `upper`, `lower`: the case mappings of a text; a capital sigma that ends a word has a lower case
  of its own.
-/

namespace ModelTypings.Text

/-- The image of a code point under a table of runs, itself where no run holds it. -/
def mapRuns (runs : List CaseRun) (n : Nat) : Nat :=
  match runs.find? fun r => r.first ≤ n && n ≤ r.last && (n - r.first) % r.step == 0 with
  | some r => (n + r.offset).toNat
  | none => n

/-- The upper case of a character, one to three characters. -/
def upperChar (c : Char) : List Char :=
  if c.toNat < 0x80 then [c.toUpper]
  else
    match upperExpansions.lookup c.toNat with
    | some ns => ns.map Char.ofNat
    | none => [Char.ofNat (mapRuns upperRuns c.toNat)]

/-- The lower case of a character. Only the dotted capital I becomes two characters. -/
def lowerChar (c : Char) : List Char :=
  if c.toNat < 0x80 then [c.toLower]
  else if c.toNat = 0x130 then ['i', '\u0307']
  else [Char.ofNat (mapRuns lowerRuns c.toNat)]

/-- `c` has the property Cased. -/
def isCased (c : Char) : Bool := c.isAlpha || inRanges casedRanges c

/-- `c` has the property Case_Ignorable. -/
def isCaseIgnorable (c : Char) : Bool :=
  ['\x27', '.', ':', '^', '\x60'].contains c || inRanges caseIgnorableRanges c

/-- The first character of `s` that is not case ignorable is cased. -/
def startsCased (s : List Char) : Bool :=
  match s.dropWhile isCaseIgnorable with
  | c :: _ => isCased c
  | [] => false

/-- The upper case of a text. -/
def upper (s : List Char) : List Char := s.flatMap upperChar

/-- The lower case of a text that follows `before`, given in reverse. -/
def lowerAfter (before : List Char) : List Char → List Char
  | [] => []
  | c :: cs =>
    if c = 'Σ' then
      (if startsCased before && !startsCased cs then 'ς' else 'σ') :: lowerAfter (c :: before) cs
    else lowerChar c ++ lowerAfter (c :: before) cs

/-- The lower case of a text. -/
def lower (s : List Char) : List Char := lowerAfter [] s

end ModelTypings.Text
