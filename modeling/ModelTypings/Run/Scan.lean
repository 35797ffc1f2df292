import ModelTypings.Log.Event
import ModelTypings.Settings.Basic

/-!
# Finding the model files

* `isModelFile`: a file holds models by its name or by the directory it stands in;
* `scan`: the model files below the source directory, in the order of the walk, with the events of
  finding them.
-/

namespace ModelTypings.Run

open Files Log Settings

/-- The file holds models: it has a chosen name, or stands in a directory with a chosen name. -/
def isModelFile (s : Input) (file : Path) : Bool :=
  file.extension? == some (.ofText "py") &&
    (file.fileName?.any (s.fileNames.map Name.ofText).contains ||
      (file.parent?.bind Path.fileName?).any (s.modelPackages.map Name.ofText).contains)

/-- The model file that a visit yields. -/
def modelFile? (s : Input) : Visit → Option Path
  | .file p => if isModelFile s p then some p else none
  | _ => none

/-- The event of a visit. -/
def visitEvent? (s : Input) : Visit → Option Event
  | .file p => if isModelFile s p then none else some (.ignored p)
  | .excluded p => some (.excluded p)
  | .fault f => some (.skippedEntry f)

/-- The model files, and the events of finding them. -/
def scan (s : Input) (t : Tree) : Except Files.Fault (List Path × List Event) :=
  (t.walk s.exclude s.recursive s.sourceDir).map fun visits =>
    (visits.filterMap (modelFile? s), visits.filterMap (visitEvent? s))

/-- The message when the source directory cannot be walked. -/
def scanFailure (dir : Path) : String := "Failed to scan source directory: " ++ dir.text

end ModelTypings.Run
