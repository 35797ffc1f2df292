import ModelTypings.Log.Event
import ModelTypings.Source.ClassHeader
import ModelTypings.Source.Field
import ModelTypings.Source.Statement
import ModelTypings.Text.Line

/-!
# The models of a source file

A file is read line by line. Outside classes only a line that opens a class matters. Its header goes
on until its brackets are closed, its body until the next statement at the left margin. The
statements of the body are those at the indentation of its first one.

* `Model`, `Models`: what is found;
* `Phase`, `State`, `step`: the account from line to line;
* `finish`: the account at the end of the file;
* `readModels`: the models of a file, with the events of reading it.
-/

namespace ModelTypings.Source

open Text Log Files

/-- A model class. -/
structure Model where
  name : String
  fields : List Field
  sourceFile : Path
  /-- The line of the class header, counted from one. -/
  line : Nat
  deriving DecidableEq, Repr

/-- The models of a file in order, and the number of statements in them that declare no field. -/
structure Models where
  models : List Model := []
  skipped : Nat := 0
  deriving DecidableEq, Repr

/-- A class whose body is being read. -/
structure Body where
  /-- The header, if it could be read. -/
  header : Option ClassHeader
  line : Nat
  carry : Carry := {}
  /-- The width of the indentation of the first statement. -/
  indent : Option Nat := none
  fields : List Field := []
  skipped : Nat := 0

/-- Where the reader stands between two lines. -/
inductive Phase
  | outside (carry : Carry)
  | inHeader (line : Nat) (text : HeaderText)
  | inBody (body : Body)

/-- The account of the lines read so far. -/
structure State where
  /-- The number of lines read. -/
  read : Nat := 0
  phase : Phase := .outside {}
  found : Models := {}
  events : List Event := []

/-! ## Statements -/

/-- The fields and the events of statements on a line. A statement that declares no field is
reported. -/
def fieldsOf (line : Nat) : List (List Char) → List Field × List Event
  | [] => ([], [])
  | s :: rest =>
    let (fields, events) := fieldsOf line rest
    match Field.ofStatement? s line with
    | some f => (f :: fields, events)
    | none => (fields, .notField line (String.ofList s) :: events)

/-- The width of the blanks at the start of a line, in bytes. -/
def indentation (line : List Char) : Nat :=
  (line.takeWhile isBlank).foldr (fun c n => c.utf8Size + n) 0

/-! ## The end of a class -/

/-- Adds a model. An earlier model of its name is dropped. -/
def Models.add (m : Models) (model : Model) (skipped : Nat) : Models :=
  { models := m.models.filter (fun old => old.name != model.name) ++ [model]
    skipped := m.skipped + skipped }

/-- The class of a body is complete: a model is added, anything else is only reported. -/
def Body.close (b : Body) (file : Path) (markers : List String) (s : State) : State :=
  match b.header with
  | none => s
  | some h =>
    if h.isModel markers then
      let warning :=
        match s.found.models.find? fun m => m.name == h.name with
        | some old => [Event.redefined file b.line h.name old.line]
        | none => []
      { s with
        found := s.found.add ⟨h.name, b.fields, file, b.line⟩ b.skipped
        events := s.events ++ warning }
    else { s with events := s.events ++ [.notModel file b.line h.name h.bases] }

/-! ## One more line -/

/-- The header of a class is complete: its body begins, with the statements on the header line. -/
def openBody (file : Path) (line : Nat) (text : List Char) (s : State) : State :=
  match ClassHeader.ofText? text with
  | none =>
    { s with
      phase := .inBody { header := none, line }
      events := s.events ++ [.malformedHeader file line (String.ofList text)] }
  | some h =>
    let (fields, events) := fieldsOf line (statements h.inlineBody)
    { s with
      phase := .inBody {
        header := some h, line, fields
        carry := Carry.feed {} h.inlineBody
        skipped := events.length }
      events := s.events ++ events }

/-- A line of a header that starts on line `start`. -/
def headerLine (file : Path) (start : Nat) (text : HeaderText) (line : List Char) (s : State) :
    State :=
  let text := text.add line
  if text.isComplete then openBody file start text.text s
  else { s with phase := .inHeader start text }

/-- A line outside classes, number `n` of the file. -/
def outsideLine (file : Path) (carry : Carry) (n : Nat) (line : List Char) (s : State) : State :=
  if carry.isOpen || !isClassStart line then { s with phase := .outside (carry.feed line) }
  else headerLine file n {} line s

/-- A line of a body, number `n` of the file. -/
def bodyLine (file : Path) (markers : List String) (b : Body) (n : Nat) (line : List Char)
    (s : State) : State :=
  if b.carry.isOpen then { s with phase := .inBody { b with carry := b.carry.feed line } }
  else
    let statement := trimStart line
    if statement.isEmpty || statement.head? == some '#' then s
    else if indentation line = 0 then outsideLine file {} n line (b.close file markers s)
    else
      let (fields, events) :=
        if b.indent.all (· == indentation line) then fieldsOf n (statements statement)
        else ([], [])
      { s with
        phase := .inBody {
          b with
          carry := b.carry.feed statement
          indent := some (b.indent.getD (indentation line))
          fields := b.fields ++ fields
          skipped := b.skipped + events.length }
        events := s.events ++ events }

/-- The account after one more line. -/
def step (file : Path) (markers : List String) (s : State) (line : List Char) : State :=
  let n := s.read + 1
  let s := { s with read := n }
  match s.phase with
  | .outside carry => outsideLine file carry n line s
  | .inHeader start text => headerLine file start text line s
  | .inBody b => bodyLine file markers b n line s

/-! ## A whole file -/

/-- The models at the end of the file, and the events. A header cannot be left open. -/
def finish (file : Path) (markers : List String) (s : State) :
    Except SourceFault Models × List Event :=
  match s.phase with
  | .outside _ => (.ok s.found, s.events)
  | .inHeader start _ => (.error (.unterminatedClass file start), s.events)
  | .inBody b =>
    let s := b.close file markers s
    (.ok s.found, s.events)

/-- The models of a file whose bases include one of the markers, with the events of reading it. -/
def readModels (file : Path) (markers : List String) (content : String) :
    Except SourceFault Models × List Event :=
  finish file markers ((lines content.toList).foldl (step file markers) {})

end ModelTypings.Source
