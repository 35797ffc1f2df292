import ModelTypings.Files.Tree

/-!
# Saving a text

A text is saved under a path after the directory above it has been made. If the text cannot be
written, the directories stay.

* `SaveFault`: what failed;
* `Tree.save`: the tree after saving, and the failure if there was one.
-/

namespace ModelTypings.Files

/-- Why a text cannot be saved. -/
inductive SaveFault
  | directory (parent : Path)
  | file (path : Path)
  deriving DecidableEq, Repr

/-- The wording of a fault for a kind of files. -/
def SaveFault.message (kind : String) : SaveFault → String
  | directory parent => "Failed to create " ++ kind ++ " directory: " ++ parent.text
  | file path => "Failed to write " ++ kind ++ " file: " ++ path.text

namespace Tree

/-- The directory above a path, if it is named and missing. -/
def missingParent? (t : Tree) (p : Path) : Option Path :=
  p.parent?.filter fun parent => !parent.isEmpty && !t.pathExists parent

/-- The tree with the missing directories above a path. -/
def prepare (t : Tree) (p : Path) : Tree × Option SaveFault :=
  match t.missingParent? p with
  | none => (t, none)
  | some parent =>
    let (t, fault) := t.makeDirectories parent
    (t, fault.map fun _ => .directory parent)

/-- The tree with a text under a path. -/
def save (t : Tree) (p : Path) (s : String) : Tree × Option SaveFault :=
  match t.prepare p with
  | (t, some fault) => (t, some fault)
  | (t, none) =>
    match t.writeText p s with
    | .ok t => (t, none)
    | .error _ => (t, some (.file p))

end Tree

end ModelTypings.Files
