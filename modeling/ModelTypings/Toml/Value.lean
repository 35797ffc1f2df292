/-!
# TOML values

* `Value`: a value, with tables as lists of entries in the order they were written;
* `TableKind`: how a table came to be, which decides how it may grow.
-/

namespace ModelTypings.Toml

/-- How a table came to be. -/
inductive TableKind
  /-- It has a header of its own. -/
  | headed
  /-- A header below it names it. -/
  | implied
  /-- A dotted key leads through it. -/
  | dotted
  /-- It is written between braces, complete. -/
  | inline
  deriving DecidableEq, Repr

/-- A TOML value. -/
inductive Value
  | string (s : String)
  | integer (n : Int)
  /-- A float by its text, without underscores. -/
  | float (text : String)
  | boolean (b : Bool)
  /-- A date, a time or both, by its text. -/
  | moment (text : String)
  | array (items : List Value)
  | table (kind : TableKind) (entries : List (String × Value))
  /-- The tables of headers in double brackets. -/
  | tables (rows : List (List (String × Value)))
  deriving Repr, Inhabited

/-- The entries of a table. -/
abbrev Entries := List (String × Value)

end ModelTypings.Toml
