import ModelTypings.Toml.Scalar
import ModelTypings.Toml.Table

/-!
# TOML documents

* `readKeys`: a dotted key;
* `readValue`: a value, nested at most `nestingLimit` deep;
* `Statement`, `readStatement`: an assignment or a header;
* `readDocument`: the table that a text describes, if it is well formed.
-/

namespace ModelTypings.Toml

/-! ## Blanks and comments -/

/-- The text without blanks at its start. -/
def skipBlanks (s : List Char) : List Char := s.dropWhile fun c => c == ' ' || c == '\t'

/-- The text without blanks, line breaks and comments at its start. -/
def skipLines (inComment : Bool) : List Char → Option (List Char)
  | [] => some []
  | '\r' :: '\n' :: cs => skipLines false cs
  | c :: cs =>
    if c = '\n' then skipLines false cs
    else if inComment then if isTextChar c then skipLines true cs else none
    else if c = ' ' ∨ c = '\t' then skipLines false cs
    else if c = '#' then skipLines true cs
    else some (c :: cs)

/-- The text may go on like this after a statement: at its end, a line break or a comment. -/
def endsLine : List Char → Bool
  | [] => true
  | '\r' :: '\n' :: _ => true
  | c :: _ => c == '\n' || c == '#'

/-! ## Keys -/

/-- Reads one part of a key. -/
def readKey : List Char → Option (String × List Char)
  | [] => none
  | c :: cs =>
    if c = '"' then (readBasic (.plain false) cs).map fun (s, rest) => (String.ofList s, rest)
    else if c = '\x27' then (readLiteral cs).map fun (s, rest) => (String.ofList s, rest)
    else if isKeyChar c then
      some (String.ofList (c :: cs.takeWhile isKeyChar), cs.dropWhile isKeyChar)
    else none

/-- Reads a dotted key. -/
def readKeys (s : List Char) : Option (List String × List Char) :=
  match readKey s with
  | none => none
  | some (key, rest) =>
    match skipBlanks rest with
    | '.' :: more =>
      if (skipBlanks more).length < s.length then
        (readKeys (skipBlanks more)).map fun (keys, rest) => (key :: keys, rest)
      else none
    | rest => some ([key], rest)
termination_by s.length

/-! ## Values -/

/-- Reads the items of an array after its opening bracket. -/
def readItems (read : List Char → Option (Value × List Char)) (s : List Char) :
    Option (List Value × List Char) :=
  match skipLines false s with
  | none => none
  | some (']' :: rest) => some ([], rest)
  | some start =>
    match read start with
    | none => none
    | some (v, rest) =>
      match skipLines false rest with
      | some (',' :: rest) =>
        if rest.length < s.length then
          (readItems read rest).map fun (vs, rest) => (v :: vs, rest)
        else none
      | some (']' :: rest) => some ([v], rest)
      | _ => none
termination_by s.length

/-- Reads a dotted key, an equals sign and a value. -/
def readAssignment (read : List Char → Option (Value × List Char)) (s : List Char) :
    Option ((List String × Value) × List Char) :=
  match readKeys s with
  | some (keys, '=' :: rest) =>
    (read (skipBlanks rest)).map fun (v, rest) => ((keys, v), rest)
  | _ => none

/-- Reads the assignments of a table in braces after its opening brace. -/
def readAssignments (read : List Char → Option (Value × List Char)) (s : List Char) :
    Option (List (List String × Value) × List Char) :=
  match skipLines false s with
  | none => none
  | some ('\x7d' :: rest) => some ([], rest)
  | some start =>
    match readAssignment read start with
    | none => none
    | some (a, rest) =>
      match skipLines false rest with
      | some (',' :: rest) =>
        if rest.length < s.length then
          (readAssignments read rest).map fun (as, rest) => (a :: as, rest)
        else none
      | some ('\x7d' :: rest) => some ([a], rest)
      | _ => none
termination_by s.length

/-- Gives a value to the last of some keys. -/
def assignKeys (keys : List String) (v : Value) (es : Entries) : Option Entries :=
  match keys.getLast? with
  | none => none
  | some key => assign keys.dropLast key v es

/-- The table of the assignments in braces. -/
def inlineTable (as : List (List String × Value)) : Option Value :=
  (as.foldlM (fun es a => assignKeys a.1 a.2 es) []).map (.table .inline)

/-- How deep values may be nested. -/
def nestingLimit : Nat := 80

/-- Reads a value with at most `depth` brackets around each of its parts. -/
def readValue : Nat → List Char → Option (Value × List Char)
  | _, [] => none
  | depth, c :: cs =>
    if c = '"' ∨ c = '\x27' then
      (readString (c :: cs)).map fun (s, rest) => (.string (String.ofList s), rest)
    else if c = '[' then
      match depth with
      | 0 => none
      | depth + 1 => (readItems (readValue depth) cs).map fun (vs, rest) => (.array vs, rest)
    else if c = '\x7b' then
      match depth with
      | 0 => none
      | depth + 1 =>
        match readAssignments (readValue depth) cs with
        | none => none
        | some (as, rest) => (inlineTable as).map fun v => (v, rest)
    else readScalar (c :: cs)

/-! ## Statements -/

/-- A statement of a document. -/
inductive Statement
  | assignment (keys : List String) (v : Value)
  | header (keys : List String)
  | rowHeader (keys : List String)

/-- Reads a statement up to the end of its line. -/
def readStatement (s : List Char) : Option (Statement × List Char) :=
  let statement? :=
    match s with
    | '[' :: '[' :: cs =>
      match readKeys (skipBlanks cs) with
      | some (keys, ']' :: ']' :: rest) => some (Statement.rowHeader keys, rest)
      | _ => none
    | '[' :: cs =>
      match readKeys (skipBlanks cs) with
      | some (keys, ']' :: rest) => some (.header keys, rest)
      | _ => none
    | _ =>
      (readAssignment (readValue nestingLimit) s).map fun (a, rest) =>
        (.assignment a.1 a.2, rest)
  match statement? with
  | none => none
  | some (statement, rest) =>
    if endsLine (skipBlanks rest) then some (statement, skipBlanks rest) else none

/-- Reads the statements of a document. -/
def readStatements (s : List Char) : Option (List Statement) :=
  match skipLines false s with
  | none => none
  | some [] => some []
  | some start =>
    match readStatement start with
    | none => none
    | some (statement, rest) =>
      if rest.length < s.length then (readStatements rest).map (statement :: ·) else none
termination_by s.length

/-! ## Documents -/

/-- A document under way: its table and the path of the table that receives assignments. -/
structure Building where
  root : Entries := []
  current : List String := []

/-- The document after one more statement. -/
def Building.add (b : Building) : Statement → Option Building
  | .assignment keys v =>
    (under .implied (fun _ es => assignKeys keys v es) b.current .headed b.root).map
      fun root => { b with root }
  | .header keys =>
    keys.getLast?.bind fun key =>
      (openTable keys.dropLast key b.root).map fun root => { root, current := keys }
  | .rowHeader keys =>
    keys.getLast?.bind fun key =>
      (openRow keys.dropLast key b.root).map fun root => { root, current := keys }

/-- The table of some statements. -/
def tableOf (statements : List Statement) : Option Entries :=
  (statements.foldlM Building.add ({} : Building)).map Building.root

/-- The text without a byte order mark. -/
def dropMark : List Char → List Char
  | '\ufeff' :: cs => cs
  | cs => cs

/-- The table that a text describes. -/
def readDocument (text : String) : Option Entries :=
  (readStatements (dropMark text.toList)).bind tableOf

end ModelTypings.Toml
