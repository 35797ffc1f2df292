import ModelTypings.Text.Blank
import ModelTypings.Text.Split
import ModelTypings.Text.Word

/-!
# Class headers

A header starts with `class` at the left margin and goes on while one of its brackets is open.

* `isClassStart`: the line opens a class;
* `HeaderText`, `HeaderText.add`, `collectHeader`: a header joined from its lines;
* `ClassHeader`, `ClassHeader.ofText?`: name, bases and the statements after the colon;
* `isModelBase`, `ClassHeader.isModel`: the class is a model by one of the marker bases.
-/

namespace ModelTypings.Source

open Text

/-- What follows the word `class` at the start of a line. -/
def afterClass : List Char → Option (List Char)
  | 'c' :: 'l' :: 'a' :: 's' :: 's' :: cs => some cs
  | _ => none

/-- The line starts with `class` and a blank. -/
def isClassStart (line : List Char) : Bool :=
  match afterClass line with
  | some (c :: _) => isBlank c
  | _ => false

/-! ## Joining the lines of a header -/

/-- A header read so far. -/
structure HeaderText where
  text : List Char := []
  /-- Round and square brackets opened less those closed. -/
  depth : Int := 0

/-- The change in depth at a character of a header. -/
def headerNesting (c : Char) : Int :=
  if c = '(' ∨ c = '[' then 1 else if c = ')' ∨ c = ']' then -1 else 0

/-- One more line, without its comment, joined by a blank. -/
def HeaderText.add (h : HeaderText) (line : List Char) : HeaderText :=
  let code := line.takeWhile (· != '#')
  { text := (if h.text.isEmpty then [] else h.text ++ [' ']) ++ trim code
    depth := code.foldl (fun d c => d + headerNesting c) h.depth }

/-- The header has no open bracket. -/
def HeaderText.isComplete (h : HeaderText) : Bool := decide (h.depth ≤ 0)

/-- Adds lines until the header is complete. Gives its text and the index after its last line. -/
def HeaderText.collect (h : HeaderText) (index : Nat) :
    List (List Char) → Option (List Char × Nat)
  | [] => none
  | line :: rest =>
    if (h.add line).isComplete then some ((h.add line).text, index + 1)
    else (h.add line).collect (index + 1) rest

/-- The header that starts at an index, and the index after it. -/
def collectHeader (lines : List (List Char)) (start : Nat) : Option (List Char × Nat) :=
  HeaderText.collect {} start (lines.drop start)

/-! ## Reading a header -/

/-- A class header. -/
structure ClassHeader where
  name : String
  /-- The positional bases, without blanks and subscripts. -/
  bases : List String
  /-- The text after the colon, trimmed. -/
  inlineBody : List Char
  deriving DecidableEq, Repr

/-- A text cut at the bracket that closes a round bracket already open, with the number of those
opened since. -/
def cutAtClosing (opened : Nat) : List Char → Option (List Char × List Char)
  | [] => none
  | c :: cs =>
    if c = ')' ∧ opened = 0 then some ([], cs)
    else
      let opened' := if c = '(' then opened + 1 else if c = ')' then opened - 1 else opened
      (cutAtClosing opened' cs).map fun (inside, rest) => (c :: inside, rest)

/-- An argument list cut at its outer commas. -/
def splitArguments (depth : Int) : List Char → List (List Char)
  | [] => [[]]
  | c :: cs =>
    if c = ',' ∧ depth = 0 then [] :: splitArguments depth cs
    else consFirst c (splitArguments (depth + headerNesting c) cs)

/-- The base that an argument names: none for an empty or a keyword argument, and never with a
subscript. -/
def baseOfArgument (argument : List Char) : Option String :=
  let base := argument.filter fun c => !isBlank c
  if base.isEmpty || base.contains '=' then none
  else some (String.ofList (base.takeWhile (· != '[')))

/-- The arguments in brackets after the class name, if there are any, and the text after them. -/
def argumentsOf : List Char → Option (List Char × List Char)
  | '(' :: cs => cutAtClosing 0 cs
  | cs => some ([], cs)

/-- Reads a joined header. -/
def ClassHeader.ofText? (text : List Char) : Option ClassHeader := do
  let afterKeyword ← afterClass text
  let afterBlanks ← if afterKeyword.head?.any isBlank then some (trimStart afterKeyword) else none
  let (name, afterName) ← takeName afterBlanks
  let (arguments, after) ← argumentsOf (trimStart afterName)
  match trimStart after with
  | ':' :: inline =>
    some {
      name := String.ofList name
      bases := (splitArguments 0 arguments).filterMap baseOfArgument
      inlineBody := trim inline }
  | _ => none

/-! ## Models -/

/-- The part of a base after its last dot. -/
def lastSegment (base : String) : String :=
  String.ofList (base.toList.reverse.takeWhile (· != '.')).reverse

/-- The base is a marker, or the last segment of the base is a marker without dots. -/
def isModelBase (markers : List String) (base : String) : Bool :=
  markers.any fun marker =>
    base == marker || !marker.toList.contains '.' && lastSegment base == marker

/-- One of the bases marks the class as a model. -/
def ClassHeader.isModel (h : ClassHeader) (markers : List String) : Bool :=
  h.bases.any (isModelBase markers)

end ModelTypings.Source
