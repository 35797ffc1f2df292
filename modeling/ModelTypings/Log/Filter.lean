import ModelTypings.Log.Event
import ModelTypings.Text.Blank
import ModelTypings.Text.Split
import ModelTypings.Text.Word

/-!
# Which events are shown

A filter is a list of directives between commas. A directive sets a level for the whole program or
for the parts whose names start with a target.

* `Verbosity`: how much is shown;
* `Directive.ofText?`: a directive;
* `verbosity?`: the verbosity that a filter gives the program.
-/

namespace ModelTypings.Log

open Text

/-- How much is shown. -/
inductive Verbosity
  | nothing
  | errors
  | warnings
  | infos
  | debugs
  | everything
  deriving DecidableEq, Repr

/-- Events of a level are shown. -/
def Verbosity.shows : Verbosity → Level → Bool
  | nothing, _ | errors, _ => false
  | warnings, l => l == .warn
  | infos, l => l != .debug
  | debugs, _ | everything, _ => true

/-- The verbosities by number, with their names. -/
def verbosityNames : List (String × Verbosity) :=
  [("off", .nothing), ("error", .errors), ("warn", .warnings), ("info", .infos),
   ("debug", .debugs), ("trace", .everything)]

/-- The verbosity of a name in any case of letters, or of a number. -/
def verbosityOf? (text : List Char) : Option Verbosity :=
  let number? :=
    if !text.isEmpty && text.all Char.isDigit then
      verbosityNames[text.foldl (fun n c => 10 * n + (c.toNat - '0'.toNat)) 0]?.map Prod.snd
    else none
  match number? with
  | some v => some v
  | none => verbosityNames.lookup (String.ofList (text.map Char.toLower))

/-- A part of a filter. -/
structure Directive where
  /-- The start of the names it applies to. -/
  target : Option (List Char)
  verbosity : Verbosity
  deriving DecidableEq, Repr

/-- `c` may start a directive. -/
def startsDirective (c : Char) : Bool := isWord c || c == '-' || c == ':'

/-- Reads a directive: a level, a target with everything shown, or a target with a level. -/
def Directive.ofText? (text : List Char) : Option Directive :=
  let target := text.takeWhile (· != '=')
  if !text.head?.any startsDirective || target.contains '[' then none
  else
    match text.dropWhile (· != '=') with
    | [] =>
      match verbosityOf? text with
      | some v => some ⟨none, v⟩
      | none => some ⟨some text, .everything⟩
    | [_] => some ⟨some target, .everything⟩
    | _ :: level => (verbosityOf? level).map fun v => ⟨some target, v⟩

/-- The name of the program, at the start of the names of its parts. -/
def programTarget : List Char := "django_ts_generator".toList

/-- The directive applies to the program. -/
def Directive.applies (d : Directive) : Bool := d.target.all fun t => t.isPrefixOf programTarget

/-- How closely a directive names what it applies to. -/
def Directive.closeness (d : Directive) : Nat := d.target.elim 0 fun t => t.length + 1

/-- The closer directive, the later one of two alike. -/
def closer : Option Directive → Directive → Option Directive
  | none, d => some d
  | some best, d => if best.closeness ≤ d.closeness then some d else some best

/-- The verbosity of the program under a filter, if each directive can be read. A filter without
directives shows errors. -/
def verbosity? (filter : String) : Option Verbosity :=
  let texts := (splitAt ',' filter.toList).filter fun t => !t.isEmpty
  (texts.mapM fun t => Directive.ofText? (trim t)).map fun directives =>
    if directives.isEmpty then .errors
    else
      match (directives.filter Directive.applies).foldl closer none with
      | none => .nothing
      | some d => d.verbosity

end ModelTypings.Log
