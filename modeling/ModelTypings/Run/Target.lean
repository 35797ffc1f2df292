import ModelTypings.Files.Path

/-!
# Where interfaces are written

* `namesBelow`, `labelOf`, `label`: the name of a source file in messages and banners;
* `outputPath?`: the file that receives the interfaces of a source file.
-/

namespace ModelTypings.Run

open Files

/-- The names of a file below a directory. -/
def namesBelow (file dir : Path) : List Name := ((file.relativeTo? dir).getD file).names

/-- The texts of names with a slash between them. -/
def labelOf (names : List Name) : String := "/".intercalate (names.map Name.text)

/-- The label of a file below a directory. -/
def label (file dir : Path) : String := labelOf (namesBelow file dir)

/-- The file that stands below `destDir` as `file` does below `sourceDir`. -/
def outputPath? (file sourceDir destDir : Path) : Option Path :=
  (file.relativeTo? sourceDir).map fun relative => (destDir.join relative).withExtension "ts"

/-- The message when a file is not below the source directory. -/
def outsideFailure (file sourceDir : Path) : String :=
  file.text ++ " is not inside " ++ sourceDir.text

end ModelTypings.Run
