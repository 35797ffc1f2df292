import ModelTypings.Text.Split
import ModelTypings.Toml.Character

/-!
# Writing TOML

A string is written in the plainest of its forms: one line before several, and no escapes as long as
it can be had without.

* `Form`, `formOf`: the forms of a string and the one that is used;
* `printString`, `printKey`: strings and keys;
* `Item`, `printItem`: the values of a document;
* `Section`, `printDocument`: a document as a list of tables.
-/

namespace ModelTypings.Toml

open Text

/-! ## Forms of strings -/

/-- The forms of a string. -/
inductive Form
  | basic
  | literal
  | longBasic
  | longLiteral
  deriving DecidableEq, Repr

/-- `c` can only be written by an escape. -/
def needsEscape (c : Char) : Bool := !isTextChar c && c != '\n'

/-- The length of the longest run of `q`, with `run` of them just before the text. -/
def longestRun (q : Char) (run : Nat) : List Char → Nat
  | [] => run
  | c :: cs => if c = q then longestRun q (run + 1) cs else max run (longestRun q 0 cs)

/-- A form that holds the text as it stands, apart from tabs. -/
def plainForm? (s : List Char) : Option Form :=
  if s.any needsEscape then none
  else if !s.contains '\n' && !s.contains '"' && !s.contains '\\' then some .basic
  else if !s.contains '\n' && !s.contains '\x27' then some .literal
  else if !s.contains '\\' && decide (longestRun '"' 0 s ≤ 2) then some .longBasic
  else if decide (longestRun '\x27' 0 s ≤ 2) then some .longLiteral
  else none

/-- The form of a text. -/
def formOf (s : List Char) : Form :=
  (plainForm? s).getD (if s.contains '\n' then .longBasic else .basic)

/-! ## Strings -/

/-- A digit of an escape by code point. -/
def hexDigit (n : Nat) : Char := (Nat.digitChar n).toUpper

/-- The escape of a character by its code point. -/
def codeEscape (c : Char) : List Char :=
  ['\\', 'u', hexDigit (c.toNat / 4096 % 16), hexDigit (c.toNat / 256 % 16),
    hexDigit (c.toNat / 16 % 16), hexDigit (c.toNat % 16)]

/-- A character other than a quote or a line break, in a form with escapes. -/
def escape (c : Char) : List Char :=
  if c = '\x08' then ['\\', 'b']
  else if c = '\t' then ['\\', 't']
  else if c = '\x0c' then ['\\', 'f']
  else if c = '\r' then ['\\', 'r']
  else if c = '\\' then ['\\', '\\']
  else if needsEscape c then codeEscape c
  else [c]

/-- A character of a string of one line. -/
def escapeInLine (c : Char) : List Char :=
  if c = '"' then ['\\', '"'] else if c = '\n' then ['\\', 'n'] else escape c

/-- A text between three quotes on either side, with `run` quotes just before it. A third quote in
a row is escaped, and those after it. -/
def escapeLong (run : Nat) : List Char → List Char
  | [] => []
  | c :: cs =>
    if c = '"' then (if run < 2 then ['"'] else ['\\', '"']) ++ escapeLong (run + 1) cs
    else if c = '\n' then '\n' :: escapeLong 0 cs
    else escape c ++ escapeLong 0 cs

/-- A text between three quotes. It starts on a line of its own if it has several. -/
def long (q : Char) (s body : List Char) : List Char :=
  [q, q, q] ++ (if s.contains '\n' then ['\n'] else []) ++ body ++ [q, q, q]

/-- A text in a form. -/
def printForm (form : Form) (s : List Char) : List Char :=
  match form with
  | .basic => '"' :: s.flatMap escapeInLine ++ ['"']
  | .literal => '\x27' :: s ++ ['\x27']
  | .longBasic => long '"' s (escapeLong 0 s)
  | .longLiteral => long '\x27' s s

/-- A string. -/
def printString (s : List Char) : List Char := printForm (formOf s) s

/-- A key. It stays on one line. -/
def printKey (s : List Char) : List Char :=
  if !s.isEmpty && s.all isKeyChar then s
  else if plainForm? s = some .literal then printForm .literal s
  else printForm .basic s

/-! ## Documents -/

/-- A value of a document. -/
inductive Item
  | text (s : String)
  | flag (b : Bool)
  | texts (ss : List String)
  deriving DecidableEq, Repr

/-- A value. An array of several strings has one on each line. -/
def printItem : Item → List Char
  | .text s => printString s.toList
  | .flag b => (if b then "true" else "false").toList
  | .texts [] => ['[', ']']
  | .texts [s] => '[' :: printString s.toList ++ [']']
  | .texts ss =>
    ['[', '\n'] ++
      ss.flatMap (fun s => "    ".toList ++ printString s.toList ++ [',', '\n']) ++ [']']

/-- A table under its own header. -/
structure Section where
  path : List String
  items : List (String × Item)
  deriving DecidableEq, Repr

/-- The line of a header. -/
def printHeader (path : List String) : List Char :=
  '[' :: joinWith '.' (path.map fun key => printKey key.toList) ++ [']', '\n']

/-- The line of a value. -/
def printAssignment (key : String) (v : Item) : List Char :=
  printKey key.toList ++ " = ".toList ++ printItem v ++ ['\n']

/-- A table. -/
def printSection (s : Section) : List Char :=
  printHeader s.path ++ s.items.flatMap fun (key, v) => printAssignment key v

/-- A document, with a blank line between two tables. -/
def printDocument (sections : List Section) : String :=
  String.ofList (joinWith '\n' (sections.map printSection))

end ModelTypings.Toml
