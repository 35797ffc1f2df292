import ModelTypings.Files.Name
import ModelTypings.Text.Split

/-!
# Paths

A path is its bytes cut at the slashes, so that nothing of its spelling is lost. What it stands for
are its components: empty segments do not count, nor does a single dot after the first segment.

* `Path`, `Path.ofBytes`, `Path.bytes`: a path and its bytes;
* `Path.ofText`, `Path.text`, `Path.isText`: a path and its text;
* `Component`, `Path.components`: the meaning of a path;
* `Path.join`, `Path.relativeTo?`, `Path.parent?`, `Path.ancestors`: moving along a path;
* `Path.fileName?`, `Path.extension?`, `Path.withExtension`: the last name of a path;
* `Path.names`: its names.
-/

namespace ModelTypings.Files

open Text

/-- The bytes of a path, cut at its slashes. -/
structure Path where
  segments : List Name
  deriving DecidableEq, Repr

/-- One step of a path. -/
inductive Component
  | root
  | here
  | up
  | name (n : Name)
  deriving DecidableEq, Repr

/-- The name of a step, if it has one. -/
def Component.name? : Component → Option Name
  | name n => some n
  | _ => none

namespace Path

/-- The path written as `bs`. -/
def ofBytes (bs : List UInt8) : Path := ⟨(splitAt slash bs).map Name.mk⟩

/-- The path written as `s`. -/
def ofText (s : String) : Path := ofBytes (encode s)

/-- The bytes of a path. -/
def bytes (p : Path) : List UInt8 := joinWith slash (p.segments.map Name.bytes)

/-- The text of a path. Bytes that are no text are replaced. -/
def text (p : Path) : String := decode p.bytes

/-- The bytes of a path are those of a text. -/
def isText (p : Path) : Bool := encode p.text == p.bytes

/-- The empty path. -/
def empty : Path := ⟨[.empty]⟩

/-- The path has no bytes. -/
def isEmpty (p : Path) : Bool := p.segments.all (· == .empty) && decide (p.segments.length ≤ 1)

/-- The path starts at the root. -/
def isAbsolute (p : Path) : Bool := p.segments.head? == some .empty && decide (1 < p.segments.length)

/-! ## Components -/

/-- A segment that is no step, unless it stands first. -/
def isFiller (segment : Name) : Bool := segment == .empty || segment == .here

/-- The step of a segment that is no filler. -/
def componentOf (segment : Name) : Component := if segment = .up then .up else .name segment

/-- The step of the first segment, before the segments `rest`. -/
def firstComponent (first : Name) (rest : List Name) : List Component :=
  if first = .empty then if rest.isEmpty then [] else [.root]
  else if first = .here then [.here]
  else [componentOf first]

/-- The steps of a path. -/
def components : Path → List Component
  | ⟨[]⟩ => []
  | ⟨first :: rest⟩ =>
    firstComponent first rest ++ (rest.filter fun s => !isFiller s).map componentOf

/-- The segments up to the last one that is no filler. -/
def dropTrailingFillers (segments : List Name) : List Name :=
  (segments.reverse.dropWhile isFiller).reverse

/-- The path of a first segment and segments after it. An absolute path keeps its slash. -/
def ofParts (first : Name) (rest : List Name) (absolute : Bool) : Path :=
  if absolute && rest.isEmpty then ⟨[.empty, .empty]⟩ else ⟨first :: rest⟩

/-- The path without fillers at its end. -/
def trimmed (p : Path) : Path :=
  match p with
  | ⟨[]⟩ => empty
  | ⟨first :: rest⟩ => ofParts first (dropTrailingFillers rest) p.isAbsolute

/-- The segments after the next `n` steps. -/
def dropSteps : Nat → List Name → List Name
  | 0, segments => segments.dropWhile isFiller
  | n + 1, segments =>
    match segments.dropWhile isFiller with
    | [] => []
    | _ :: rest => dropSteps n rest

/-- The segments of the next `n` steps, with the fillers before each of them. -/
def takeSteps : Nat → List Name → List Name
  | 0, _ => []
  | _, [] => []
  | n + 1, s :: rest => if isFiller s then s :: takeSteps (n + 1) rest else s :: takeSteps n rest

/-! ## Moving along a path -/

/-- The path `r` seen from `p`: `r` itself if it starts at the root, else `r` after `p`, with one
slash between them unless `p` is empty or ends in one. -/
def join (p r : Path) : Path :=
  if r.isAbsolute then r
  else if p.segments.getLast? = some .empty then ⟨p.segments.dropLast ++ r.segments⟩
  else ⟨p.segments ++ r.segments⟩

/-- The entry `name` of the directory `p`. -/
def child (p : Path) (name : Name) : Path := p.join ⟨[name]⟩

/-- The path without its first `n` steps. -/
def drop (n : Nat) (p : Path) : Path :=
  match n, p.trimmed with
  | 0, q => q
  | _, ⟨[]⟩ => empty
  | n + 1, ⟨_ :: rest⟩ =>
    match dropSteps n rest with
    | [] => empty
    | segments => ⟨segments⟩

/-- The path of the first `n` steps. -/
def take (n : Nat) (p : Path) : Path :=
  match n, p with
  | 0, _ => empty
  | _, ⟨[]⟩ => empty
  | n + 1, ⟨first :: rest⟩ => ofParts first (takeSteps n rest) p.isAbsolute

/-- What remains of `p` after the steps of `base`, if `p` starts with them. -/
def relativeTo? (p base : Path) : Option Path :=
  if base.components.isPrefixOf p.components then some (p.drop base.components.length) else none

/-- The path without its last step. The root and the empty path have no parent. -/
def parent? (p : Path) : Option Path :=
  match p.components.getLast? with
  | none | some .root => none
  | some _ => some (p.take (p.components.length - 1))

/-- The path and the paths above it, nearest first. The root is not among them. -/
def ancestors (p : Path) : List Path :=
  let n := p.components.length
  let above := (List.range n).reverse.map p.take
  p :: if p.isAbsolute then above.dropLast.dropLast else above.dropLast

/-! ## The last name -/

/-- The last step, if it is a name. -/
def fileName? (p : Path) : Option Name :=
  match p.components.getLast? with
  | some (.name n) => some n
  | _ => none

/-- A file name cut before its last dot. A dot at the start does not count. -/
def splitName (name : Name) : Name × Option Name :=
  let reversed := name.bytes.reverse
  match reversed.dropWhile (· != dot) with
  | _ :: c :: before =>
    (⟨(c :: before).reverse⟩, some ⟨(reversed.takeWhile (· != dot)).reverse⟩)
  | _ => (name, none)

/-- What stands after the last dot of the last name. -/
def extension? (p : Path) : Option Name := p.fileName?.bind fun n => (splitName n).2

/-- The path with another extension on its last name. -/
def withExtension (p : Path) (extension : Name) : Path :=
  match p.fileName? with
  | none => p
  | some n => ⟨p.trimmed.segments.dropLast ++ [(splitName n).1 ++ "." ++ extension]⟩

/-- The names among the steps of a path. -/
def names (p : Path) : List Name := p.components.filterMap Component.name?

end Path

end ModelTypings.Files
