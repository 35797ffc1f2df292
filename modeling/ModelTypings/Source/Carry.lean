/-!
# What one line leaves open for the next

A statement goes on over the end of its line while a triple-quoted string or a bracket is open.

* `Carry`: the open string and the number of open brackets;
* `Carry.feed`: the carry after one more line;
* `Mode`, `scan`: the character by character account behind it.
-/

namespace ModelTypings.Source

/-- A character that opens and closes strings. -/
def isQuote (c : Char) : Bool := c == '"' || c == '\x27'

/-- The change in bracket depth at a character of code. -/
def nesting (c : Char) : Int :=
  if c = '(' ∨ c = '[' ∨ c = '\x7b' then 1
  else if c = ')' ∨ c = ']' ∨ c = '\x7d' then -1
  else 0

/-- What is open at the end of a line. -/
structure Carry where
  /-- The quote of a triple-quoted string that is not closed yet. -/
  string : Option Char := none
  /-- Brackets opened and not closed yet. -/
  brackets : Nat := 0
  deriving DecidableEq, Repr

namespace Carry

/-- The next line still belongs to the statement. -/
def isOpen (c : Carry) : Bool := c.string.isSome || decide (0 < c.brackets)

end Carry

/-- Where a scanner stands: in code, in a string of one line, in a triple-quoted string. -/
inductive Mode
  | code
  | short (quote : Char)
  | long (quote : Char)
  deriving DecidableEq, Repr

/-- Scans the characters of one line. A comment ends it. A backslash hides the character after it
in a short string, not in a long one, and a short string ends with its line. -/
def scan : Mode → Int → List Char → Mode × Int
  | .long q, d, a :: b :: c :: cs =>
    if a = q ∧ b = q ∧ c = q then scan .code d cs else scan (.long q) d (b :: c :: cs)
  | .long q, d, _ => (.long q, d)
  | .short _, d, [] => (.code, d)
  | .short _, d, ['\\'] => (.code, d)
  | .short q, d, '\\' :: _ :: cs => scan (.short q) d cs
  | .short q, d, c :: cs => if c = q then scan .code d cs else scan (.short q) d cs
  | .code, d, [] => (.code, d)
  | .code, d, c :: cs =>
    if c = '#' then (.code, d)
    else if isQuote c then
      match cs with
      | a :: b :: more =>
        if a = c ∧ b = c then scan (.long c) d more else scan (.short c) d (a :: b :: more)
      | _ => (.code, d)
    else scan .code (d + nesting c) cs

namespace Carry

/-- The carry after one more line. Brackets closed without having been opened are forgotten. -/
def feed (c : Carry) (line : List Char) : Carry :=
  let start :=
    match c.string with
    | some q => Mode.long q
    | none => .code
  match scan start c.brackets line with
  | (.long q, d) => ⟨some q, d.toNat⟩
  | (_, d) => ⟨none, d.toNat⟩

end Carry

end ModelTypings.Source
