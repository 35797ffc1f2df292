import ModelTypings.Files.Tree
import ModelTypings.Settings.Overrides
import ModelTypings.Text.Blank

/-!
# Settings

* `Settings` with its parts `Input`, `Output`, `Naming`, `Types`: where sources are found and how
  interfaces are written;
* `Settings.standard`: the settings written into a new file;
* `Settings.Fault`, `Settings.validate`: when settings can be used with a tree of files.
-/

namespace ModelTypings.Settings

open Files

/-- Where model files are found. -/
structure Input where
  sourceDir : Path
  /-- Names of directories and files that are left out. -/
  exclude : List String := []
  recursive : Bool := true
  /-- Names of files that hold models. -/
  fileNames : List String := ["models.py"]
  /-- Names of directories whose files hold models. -/
  modelPackages : List String := ["models"]
  /-- Bases that mark a class as a model. -/
  modelBases : List String := ["models.Model", "Model"]
  deriving DecidableEq

/-- Where interfaces are written. -/
structure Output where
  destDir : Path
  /-- Each file starts with a banner. -/
  header : Bool := true
  deriving DecidableEq

/-- How the names of fields are written. -/
inductive FieldCase
  | preserve
  | camel
  deriving DecidableEq, Repr

/-- How names are written. -/
structure Naming where
  typePrefix : String := ""
  typeSuffix : String := ""
  fieldCase : FieldCase := .preserve
  deriving DecidableEq

/-- Which types fields have. -/
structure Types where
  /-- The type of a field whose constructor is not known. -/
  fallback : String := "any"
  /-- Types of further constructors, or other types of known ones. -/
  overrides : Overrides := .empty
  deriving DecidableEq

end Settings

open Files Settings in
/-- The settings of a run. -/
structure Settings where
  input : Input
  output : Output
  naming : Settings.Naming := {}
  types : Types := {}
  deriving DecidableEq

namespace Settings

open Files

/-- The settings written into a new file. -/
def standard : Settings where
  input := { sourceDir := .ofText "backend", exclude := ["migrations", "tests", "venv"] }
  output := { destDir := .ofText "frontend/src/lib/types/models" }

/-- Why settings cannot be used. -/
inductive Fault
  | sourceMissing (dir : Path)
  | sourceNotDirectory (dir : Path)
  | noModelBases
  | nothingToScan
  | blankFallback
  deriving DecidableEq, Repr

/-- The wording of a fault. -/
def Fault.message : Fault → String
  | sourceMissing dir => "Source directory does not exist: " ++ dir.text
  | sourceNotDirectory dir => "Source path is not a directory: " ++ dir.text
  | noModelBases => "input.model_bases must name at least one model base class"
  | nothingToScan =>
    "input.file_names and input.model_packages are both empty; no file would be scanned"
  | blankFallback => "types.fallback must not be empty"

/-- The first reason why settings cannot be used with a tree. -/
def validate (s : Settings) (t : Tree) : Except Fault Unit :=
  if !t.pathExists s.input.sourceDir then .error (.sourceMissing s.input.sourceDir)
  else if !t.isDirectory s.input.sourceDir then .error (.sourceNotDirectory s.input.sourceDir)
  else if s.input.modelBases.isEmpty then .error .noModelBases
  else if s.input.fileNames.isEmpty && s.input.modelPackages.isEmpty then .error .nothingToScan
  else if (Text.trim s.types.fallback.toList).isEmpty then .error .blankFallback
  else .ok ()

end Settings

end ModelTypings
