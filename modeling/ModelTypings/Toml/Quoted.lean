import ModelTypings.Toml.Character

/-!
# Strings of TOML

* `readBasic`, `readLiteral`: strings of one line, after the opening quote;
* `readLongBasic`, `readLongLiteral`: strings of several lines, after the opening quotes and the
  line break that may follow them.

Each reader gives the content and what follows the closing quotes.
-/

namespace ModelTypings.Toml

/-- The value of a hexadecimal digit. -/
def hexValue? (c : Char) : Option Nat :=
  if c.isDigit then some (c.toNat - '0'.toNat)
  else if 'a' ≤ c ∧ c ≤ 'f' then some (c.toNat - 'a'.toNat + 10)
  else if 'A' ≤ c ∧ c ≤ 'F' then some (c.toNat - 'A'.toNat + 10)
  else none

/-- The character with a code point, if there is one. -/
def charOfCode? (n : Nat) : Option Char := if n.isValidChar then some (Char.ofNat n) else none

/-- The character that an escape of one letter stands for. -/
def escaped? (c : Char) : Option Char :=
  match c with
  | 'b' => some '\x08'
  | 't' => some '\t'
  | 'n' => some '\n'
  | 'f' => some '\x0c'
  | 'r' => some '\r'
  | 'e' => some '\x1b'
  | '"' => some '"'
  | '\\' => some '\\'
  | _ => none

/-- The number of digits of an escape by code point. -/
def codeDigits? (c : Char) : Option Nat :=
  match c with
  | 'x' => some 2
  | 'u' => some 4
  | 'U' => some 8
  | _ => none

/-- Where a reader stands in a string with escapes. -/
inductive Reading
  /-- Between characters. After the end of a folded line, blanks and line breaks are passed over. -/
  | plain (folding : Bool)
  | escape
  /-- After an escaped blank: the line must end. -/
  | lineEnd
  | code (digits value : Nat)

/-- Puts a character in front of the content read. -/
def consChar (c : Char) (r : Option (List Char × List Char)) : Option (List Char × List Char) :=
  r.map fun (s, rest) => (c :: s, rest)

/-! ## Strings of one line -/

/-- Reads a basic string. -/
def readBasic : Reading → List Char → Option (List Char × List Char)
  | _, [] => none
  | .plain _, c :: cs =>
    if c = '"' then some ([], cs)
    else if c = '\\' then readBasic .escape cs
    else if isTextChar c then consChar c (readBasic (.plain false) cs)
    else none
  | .escape, c :: cs =>
    match codeDigits? c with
    | some n => readBasic (.code n 0) cs
    | none =>
      match escaped? c with
      | some e => consChar e (readBasic (.plain false) cs)
      | none => none
  | .code n v, c :: cs =>
    match hexValue? c with
    | none => none
    | some d =>
      if n ≤ 1 then
        match charOfCode? (16 * v + d) with
        | some e => consChar e (readBasic (.plain false) cs)
        | none => none
      else readBasic (.code (n - 1) (16 * v + d)) cs
  | .lineEnd, _ :: _ => none

/-- Reads a literal string. -/
def readLiteral : List Char → Option (List Char × List Char)
  | [] => none
  | c :: cs =>
    if c = '\x27' then some ([], cs)
    else if isTextChar c then consChar c (readLiteral cs)
    else none

/-! ## Strings of several lines -/

/-- The end of a string after its three closing quotes: up to two more quotes stand before them. -/
def closeLong (q : Char) : List Char → List Char × List Char
  | a :: b :: cs =>
    if a = q then if b = q then ([q, q], cs) else ([q], b :: cs) else ([], a :: b :: cs)
  | [a] => if a = q then ([q], []) else ([], [a])
  | [] => ([], [])

/-- Reads a basic string of several lines. -/
def readLongBasic : Reading → List Char → Option (List Char × List Char)
  | _, [] => none
  | .plain _, '"' :: '"' :: '"' :: cs => some (closeLong '"' cs)
  | .plain folding, '\r' :: '\n' :: cs =>
    if folding then readLongBasic (.plain true) cs
    else consChar '\r' (consChar '\n' (readLongBasic (.plain false) cs))
  | .plain folding, c :: cs =>
    if folding ∧ (c = ' ' ∨ c = '\t' ∨ c = '\n') then readLongBasic (.plain true) cs
    else if c = '\\' then readLongBasic .escape cs
    else if c = '\n' ∨ isTextChar c then consChar c (readLongBasic (.plain false) cs)
    else none
  | .escape, '\r' :: '\n' :: cs => readLongBasic (.plain true) cs
  | .escape, c :: cs =>
    if c = '\n' then readLongBasic (.plain true) cs
    else if c = ' ' ∨ c = '\t' then readLongBasic .lineEnd cs
    else
      match codeDigits? c with
      | some n => readLongBasic (.code n 0) cs
      | none =>
        match escaped? c with
        | some e => consChar e (readLongBasic (.plain false) cs)
        | none => none
  | .lineEnd, '\r' :: '\n' :: cs => readLongBasic (.plain true) cs
  | .lineEnd, c :: cs =>
    if c = '\n' then readLongBasic (.plain true) cs
    else if c = ' ' ∨ c = '\t' then readLongBasic .lineEnd cs
    else none
  | .code n v, c :: cs =>
    match hexValue? c with
    | none => none
    | some d =>
      if n ≤ 1 then
        match charOfCode? (16 * v + d) with
        | some e => consChar e (readLongBasic (.plain false) cs)
        | none => none
      else readLongBasic (.code (n - 1) (16 * v + d)) cs

/-- Reads a literal string of several lines. -/
def readLongLiteral : List Char → Option (List Char × List Char)
  | [] => none
  | '\x27' :: '\x27' :: '\x27' :: cs => some (closeLong '\x27' cs)
  | '\r' :: '\n' :: cs => consChar '\r' (consChar '\n' (readLongLiteral cs))
  | c :: cs =>
    if c = '\n' ∨ isTextChar c then consChar c (readLongLiteral cs) else none

/-- A text without the line break at its start. -/
def dropLineBreak : List Char → List Char
  | '\n' :: cs => cs
  | '\r' :: '\n' :: cs => cs
  | cs => cs

/-- Reads a string of any of the four forms. -/
def readString : List Char → Option (List Char × List Char)
  | '"' :: '"' :: '"' :: cs => readLongBasic (.plain false) (dropLineBreak cs)
  | '"' :: cs => readBasic (.plain false) cs
  | '\x27' :: '\x27' :: '\x27' :: cs => readLongLiteral (dropLineBreak cs)
  | '\x27' :: cs => readLiteral cs
  | _ => none

end ModelTypings.Toml
