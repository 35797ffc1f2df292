import ModelTypings.Files.Save
import ModelTypings.Settings.Toml

/-!
# Settings in files

* `Settings.LoadFault`: why settings cannot be loaded;
* `Settings.load`: the settings in a file, if they can be used with the tree;
* `Settings.WriteFault`, `Settings.save`: the settings written to a file.
-/

namespace ModelTypings

open Files

namespace Settings

/-- Why settings cannot be loaded. -/
inductive LoadFault
  | unreadable (path : Path)
  | malformed (path : Path)
  | unusable (fault : Fault)
  deriving DecidableEq, Repr

/-- The wording of a fault. -/
def LoadFault.message : LoadFault → String
  | unreadable path => "Failed to read config file: " ++ path.text
  | malformed path => "Failed to parse config file: " ++ path.text
  | unusable fault => fault.message

/-- Loads settings from a file. -/
def load (t : Tree) (p : Path) : Except LoadFault Settings :=
  match t.readText p with
  | .error _ => .error (.unreadable p)
  | .ok text =>
    match ofText? text with
    | none => .error (.malformed p)
    | some s =>
      match s.validate t with
      | .error f => .error (.unusable f)
      | .ok () => .ok s

/-- Why settings cannot be written to a file. -/
inductive WriteFault
  /-- One of the directories is no text. -/
  | notText
  | file (fault : SaveFault)
  deriving DecidableEq, Repr

/-- The wording of a fault. -/
def WriteFault.message : WriteFault → String
  | notText => "Failed to serialize configuration"
  | file fault => fault.message "config"

/-- Saves settings to a file. -/
def save (s : Settings) (t : Tree) (p : Path) : Tree × Option WriteFault :=
  if s.input.sourceDir.isText && s.output.destDir.isText then
    let (t, fault) := t.save p s.text
    (t, fault.map .file)
  else (t, some .notText)

end Settings

end ModelTypings
