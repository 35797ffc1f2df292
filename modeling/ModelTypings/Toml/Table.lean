import ModelTypings.Toml.Value

/-!
# Building tables

A table is named by its header, implied by a header below it, or led through by a dotted key. Each
may grow only in its own way, and no key is given twice.

* `replaceEntry`: another value for a key;
* `under`: a change to the table that a path of keys leads to;
* `assign`, `openTable`, `openRow`: the three statements of a document.
-/

namespace ModelTypings.Toml

/-- The entries with another value for a key. -/
def replaceEntry (key : String) (v : Value) (es : Entries) : Entries :=
  es.map fun e => if e.1 = key then (key, v) else e

/-- A path that makes tables of one kind may lead through a table of another. -/
def mayEnter (making : TableKind) (kind : TableKind) : Bool :=
  match making, kind with
  | _, .inline => false
  | .dotted, .headed => false
  | _, _ => true

/-- Changes the table that a path leads to, making the missing tables on the way. A path leads to
the last of the tables of double brackets. -/
def under (making : TableKind) (change : TableKind → Entries → Option Entries) :
    List String → TableKind → Entries → Option Entries
  | [], kind, es => change kind es
  | key :: path, _, es =>
    match es.lookup key with
    | none =>
      (under making change path making []).map fun sub => es ++ [(key, .table making sub)]
    | some (.table kind sub) =>
      if mayEnter making kind then
        (under making change path kind sub).map fun sub => replaceEntry key (.table kind sub) es
      else none
    | some (.tables rows) =>
      match rows.getLast? with
      | none => none
      | some row =>
        (under making change path .headed row).map fun row =>
          replaceEntry key (.tables (rows.dropLast ++ [row])) es
    | some _ => none

/-- Gives a value to a dotted key. The table that receives it must be the one under way, or one made
by dotted keys. -/
def assign (path : List String) (key : String) (v : Value) (es : Entries) : Option Entries :=
  under .dotted
    (fun kind es =>
      if (path.isEmpty || kind = .dotted) && (es.lookup key).isNone then some (es ++ [(key, v)])
      else none)
    path .headed es

/-- Opens the table of a header. It may have been implied, but not opened before. -/
def openTable (path : List String) (key : String) (root : Entries) : Option Entries :=
  under .implied
    (fun _ es =>
      match es.lookup key with
      | none => some (es ++ [(key, .table .headed [])])
      | some (.table .implied sub) => some (replaceEntry key (.table .headed sub) es)
      | some _ => none)
    path .headed root

/-- Opens one more table of a header in double brackets. -/
def openRow (path : List String) (key : String) (root : Entries) : Option Entries :=
  under .implied
    (fun _ es =>
      match es.lookup key with
      | none => some (es ++ [(key, .tables [[]])])
      | some (.tables rows) => some (replaceEntry key (.tables (rows ++ [[]])) es)
      | some _ => none)
    path .headed root

end ModelTypings.Toml
