import ModelTypings.Files.Save
import ModelTypings.Run.Scan
import ModelTypings.Run.Target
import ModelTypings.TypeScript.Interface

/-!
# A run

A run scans the source directory and takes the model files one after another. A file that cannot be
read is skipped, a file without models leaves nothing, any other file has its interfaces written. A
failure to write ends the run.

* `Outcome`, `outcome`: what becomes of a file;
* `Progress`, `Progress.visit`, `Progress.visitAll`: the account from file to file;
* `Report`, `run`: the whole run.
-/

namespace ModelTypings.Run

open Files Log Settings Source TypeScript

/-- Counts of a run. -/
structure Summary where
  scanned : Nat := 0
  written : Nat := 0
  skipped : Nat := 0
  withoutModels : Nat := 0
  interfaces : Nat := 0
  unknownFields : Nat := 0
  deriving DecidableEq, Repr

/-- Why a run ends early. -/
inductive Fault
  | settings (fault : Settings.Fault)
  | scan (dir : Path)
  | outside (file dir : Path)
  | save (fault : SaveFault)
  deriving DecidableEq, Repr

/-- The wording of a fault. -/
def Fault.message : Fault → String
  | settings f => f.message
  | scan dir => scanFailure dir
  | outside file dir => outsideFailure file dir
  | save f => f.message "output"

/-! ## One file -/

/-- What a file yields. -/
inductive Outcome
  | skipped (fault : SourceFault)
  | withoutModels
  | models (found : Models)
  deriving DecidableEq, Repr

/-- What a file yields, and the events of reading it. -/
def outcome (s : Settings) (t : Tree) (file : Path) : Outcome × List Event :=
  match t.readText file with
  | .error f => (.skipped (.unreadable f), [])
  | .ok content =>
    match readModels file s.input.modelBases content with
    | (.error f, events) => (.skipped f, events)
    | (.ok found, events) =>
      (if found.models.isEmpty then .withoutModels else .models found, events)

/-- The fields whose constructors are not in the table. -/
def unknownFields (style : Style) (models : List Model) : Nat :=
  (models.flatMap Model.fields).countP fun f => !style.types.isKnown f.fieldType

/-- The events after the interfaces of a file have been written. -/
def writtenEvents (verbose : Bool) (models : List Model) (output : Path) : List Event :=
  (if verbose then models.map fun m => .interface m.name m.fields.length output else []) ++
    [.wrote output models.length]

/-! ## From file to file -/

/-- The account of the files visited so far. -/
structure Progress where
  tree : Tree
  summary : Summary := {}
  records : List Record := []

namespace Progress

/-- Adds events of a file. -/
def log (p : Progress) (file : String) (events : List Event) : Progress :=
  { p with records := p.records ++ events.map fun e => ⟨some file, e⟩ }

/-- Writes the interfaces of a file. -/
def write (p : Progress) (s : Settings) (verbose : Bool) (file : Path) (found : Models) :
    Progress × Option Fault :=
  let style := Style.ofSettings s
  let name := label file s.input.sourceDir
  let models := found.models
  let p := if 0 < found.skipped then p.log name [.otherStatements found.skipped] else p
  match outputPath? file s.input.sourceDir s.output.destDir with
  | none => (p, some (.outside file s.input.sourceDir))
  | some output =>
    let p := p.log name (style.unknownTypes models)
    match p.tree.save output (style.fileText models name) with
    | (tree, some f) => ({ p with tree }, some (.save f))
    | (tree, none) =>
      let summary := {
        p.summary with
        written := p.summary.written + 1
        interfaces := p.summary.interfaces + models.length
        unknownFields := p.summary.unknownFields + unknownFields style models }
      ({ p with tree, summary }.log name (writtenEvents verbose models output), none)

/-- The account after one more file. -/
def visit (p : Progress) (s : Settings) (verbose : Bool) (file : Path) :
    Progress × Option Fault :=
  let name := label file s.input.sourceDir
  let (found, events) := outcome s p.tree file
  let p := { p with summary.scanned := p.summary.scanned + 1 }.log name events
  match found with
  | .skipped f =>
    ({ p with summary.skipped := p.summary.skipped + 1 }.log name [.skippedFile name f], none)
  | .withoutModels =>
    ({ p with summary.withoutModels := p.summary.withoutModels + 1 }.log name [.noModels name],
      none)
  | .models found => p.write s verbose file found

/-- The account after some files, up to the first failure. -/
def visitAll (p : Progress) (s : Settings) (verbose : Bool) : List Path → Progress × Option Fault
  | [] => (p, none)
  | file :: files =>
    match p.visit s verbose file with
    | (p, some f) => (p, some f)
    | (p, none) => p.visitAll s verbose files

end Progress

/-! ## The whole run -/

/-- What a run leaves behind. -/
structure Report where
  tree : Tree
  records : List Record
  result : Except Fault Summary

/-- Records of events outside any file. -/
def general (events : List Event) : List Record := events.map fun e => ⟨none, e⟩

/-- A run over files that have been found. -/
def generate (s : Settings) (verbose : Bool) (t : Tree) (files : List Path) : Report :=
  match ({ tree := t } : Progress).visitAll s verbose files with
  | (p, some f) => ⟨p.tree, p.records, .error f⟩
  | (p, none) =>
    let done := Event.done p.summary.interfaces p.summary.written p.summary.skipped
    ⟨p.tree, p.records ++ general [done], .ok p.summary⟩

/-- A run. -/
def run (s : Settings) (verbose : Bool) (t : Tree) : Report :=
  match s.validate t with
  | .error f => ⟨t, [], .error (.settings f)⟩
  | .ok () =>
    let dir := s.input.sourceDir
    match scan s.input t with
    | .error _ => ⟨t, general [.scanning dir], .error (.scan dir)⟩
    | .ok (files, events) =>
      let table := TypeTable.ofSettings s.types
      let report := generate s verbose t files
      { report with
        records :=
          general ([.scanning dir] ++ events ++
            [.found files.length, .typeTable table.size table.fallback]) ++ report.records }

end ModelTypings.Run
