import ModelTypings.Files.Path

/-!
# A tree of files

A tree lists its entries by location, the names on the way from the root. A path is followed from
the root or from the home directory, through symbolic links.

* `Content`, `Entry`, `Tree`: what a tree holds;
* `Fault`: why a path cannot be followed or used;
* `Tree.resolve`: the place that a path reaches;
* `Tree.pathExists`, `Tree.isDirectory`, `Tree.readText`: questions;
* `Tree.writeText`, `Tree.makeDirectory`, `Tree.makeDirectories`: changes;
* `Tree.changesSince`: comparing two trees.
-/

namespace ModelTypings.Files

/-- What a file holds. -/
inductive Content
  | text (s : String)
  /-- Bytes that are not text. -/
  | bytes (bs : List UInt8)
  deriving DecidableEq, Repr

/-- What stands at a location. -/
inductive Entry
  | file (content : Content)
  | link (target : Path)
  | directory
  deriving DecidableEq, Repr

/-- The names on the way from the root. -/
abbrev Location := List Name

/-- A tree of files with a home directory, from which relative paths start. -/
structure Tree where
  entries : List (Location × Entry)
  home : Location

/-- Why a path cannot be followed or used. -/
inductive Fault
  | notFound
  | alreadyExists
  | notDirectory
  | isDirectory
  | nameTooLong
  | tooManyLinks
  | nulInPath
  | notText
  deriving DecidableEq, Repr

/-- The wording of a fault. -/
def Fault.message : Fault → String
  | notFound => "No such file or directory (os error 2)"
  | alreadyExists => "File exists (os error 17)"
  | notDirectory => "Not a directory (os error 20)"
  | isDirectory => "Is a directory (os error 21)"
  | nameTooLong => "File name too long (os error 36)"
  | tooManyLinks => "Too many levels of symbolic links (os error 40)"
  | nulInPath => "file name contained an unexpected NUL byte"
  | notText => "stream did not contain valid UTF-8"

/-- Where a path leads: to an entry that is no link, or to a free name in a directory. -/
inductive Place
  | occupied (l : Location)
  | vacant (directory : Location) (name : Name)
  deriving DecidableEq, Repr

namespace Tree

/-! ## Entries -/

/-- The entry at a location. The root is a directory. -/
def entry? (t : Tree) (l : Location) : Option Entry :=
  if l.isEmpty then some .directory else t.entries.lookup l

/-- The tree with an entry at a location. -/
def set (t : Tree) (l : Location) (e : Entry) : Tree :=
  { t with
    entries :=
      if t.entries.any fun p => p.1 == l then
        t.entries.map fun p => if p.1 == l then (l, e) else p
      else t.entries ++ [(l, e)] }

/-- A name put in its place among names in order. -/
def insertName (n : Name) : List Name → List Name
  | [] => [n]
  | m :: ms => if m < n then m :: insertName n ms else n :: m :: ms

/-- The names in a directory, in the order of their bytes. -/
def names (t : Tree) (directory : Location) : List Name :=
  (t.entries.filterMap fun (l, _) =>
    match l.getLast? with
    | some n => if l.dropLast == directory then some n else none
    | none => none).foldr insertName []

/-- The locations of all directories. -/
def directories (t : Tree) : List Location :=
  [] :: t.entries.filterMap fun (l, e) => if e = .directory then some l else none

/-! ## Following paths -/

/-- The longest name of an entry, in bytes. -/
def nameLimit : Nat := 255

/-- The longest path, in bytes. -/
def pathLimit : Nat := 4095

/-- How many links a path may lead through. -/
def linkLimit : Nat := 40

/-- Follows segments from a location. At a link, `enter` goes on from where its target starts, with
the segments of the target and those that are left. -/
def followNames (t : Tree) (enter : Location → List Name → Except Fault Place) :
    Location → List Name → Except Fault Place
  | here, [] => .ok (.occupied here)
  | here, s :: rest =>
    if t.entry? here ≠ some .directory then .error .notDirectory
    else if Path.isFiller s then t.followNames enter here rest
    else if s = .up then t.followNames enter here.dropLast rest
    else if nameLimit < s.bytes.length then .error .nameTooLong
    else
      match t.entry? (here ++ [s]) with
      | none => if rest.isEmpty then .ok (.vacant here s) else .error .notFound
      | some (.link target) =>
        enter (if target.isAbsolute then [] else here) (target.segments ++ rest)
      | some _ => t.followNames enter (here ++ [s]) rest

/-- Follows segments from a location. `links` more links may be followed. -/
def follow (t : Tree) : Nat → Location → List Name → Except Fault Place
  | 0 => t.followNames fun _ _ => .error .tooManyLinks
  | links + 1 => t.followNames (t.follow links)

/-- The place that a path reaches. -/
def resolve (t : Tree) (p : Path) : Except Fault Place :=
  if p.bytes.contains 0 then .error .nulInPath
  else if p.isEmpty then .error .notFound
  else if pathLimit < p.bytes.length then .error .nameTooLong
  else t.follow linkLimit (if p.isAbsolute then [] else t.home) p.segments

/-- The location of the entry that a path reaches. -/
def locate (t : Tree) (p : Path) : Except Fault Location :=
  match t.resolve p with
  | .ok (.occupied l) => .ok l
  | .ok (.vacant _ _) => .error .notFound
  | .error f => .error f

/-- The path reaches an entry. -/
def pathExists (t : Tree) (p : Path) : Bool :=
  match t.locate p with
  | .ok _ => true
  | .error _ => false

/-- The path reaches a directory. -/
def isDirectory (t : Tree) (p : Path) : Bool :=
  match t.locate p with
  | .ok l => t.entry? l == some .directory
  | .error _ => false

/-- The text of the file that a path reaches. -/
def readText (t : Tree) (p : Path) : Except Fault String :=
  match t.locate p with
  | .error f => .error f
  | .ok l =>
    match t.entry? l with
    | some (.file (.text s)) => .ok s
    | some (.file (.bytes _)) => .error .notText
    | some .directory => .error .isDirectory
    | _ => .error .notFound

/-! ## Changes -/

/-- Writes a text to the file that a path reaches, or to a new one at a free name. -/
def writeText (t : Tree) (p : Path) (s : String) : Except Fault Tree :=
  match t.resolve p with
  | .error f => .error f
  | .ok (.vacant d n) => .ok (t.set (d ++ [n]) (.file (.text s)))
  | .ok (.occupied l) =>
    if t.entry? l = some .directory then .error .isDirectory
    else .ok (t.set l (.file (.text s)))

/-- The place of the last segment of a path, not followed if it is a link. -/
def lastPlace (t : Tree) (p : Path) : Except Fault (Location × Name) :=
  let segments := (p.segments.reverse.dropWhile (· == .empty)).reverse
  match segments.getLast? with
  | none => .error (if p.isAbsolute then .alreadyExists else .notFound)
  | some n =>
    let parent :=
      if segments.length = 1 ∧ !p.isAbsolute then .ok (.occupied t.home)
      else t.resolve ⟨segments.dropLast ++ [.empty]⟩
    match parent with
    | .error f => .error f
    | .ok (.vacant _ _) => .error .notFound
    | .ok (.occupied d) =>
      if p.bytes.contains 0 then .error .nulInPath
      else if pathLimit < p.bytes.length then .error .nameTooLong
      else if nameLimit < n.bytes.length then .error .nameTooLong
      else if n = .here ∨ n = .up then .error .alreadyExists
      else .ok (d, n)

/-- Makes a directory at a free name. -/
def makeDirectory (t : Tree) (p : Path) : Except Fault Tree :=
  match t.lastPlace p with
  | .error f => .error f
  | .ok (d, n) =>
    match t.entry? (d ++ [n]) with
    | some _ => .error .alreadyExists
    | none => .ok (t.set (d ++ [n]) .directory)

/-- Makes the first of some paths, each in the one after it, a directory: itself if the one after it
exists, else after making that one. What was made before a failure stays. -/
def makeChain (t : Tree) : List Path → Tree × Option Fault
  | [] => (t, some .notFound)
  | p :: above =>
    match t.makeDirectory p with
    | .ok t' => (t', none)
    | .error .notFound =>
      match t.makeChain above with
      | (t', some f) => (t', some f)
      | (t', none) =>
        match t'.makeDirectory p with
        | .ok t'' => (t'', none)
        | .error f => if t'.isDirectory p then (t', none) else (t', some f)
    | .error f => if t.isDirectory p then (t, none) else (t, some f)

/-- Makes a directory and the missing ones above it. -/
def makeDirectories (t : Tree) (p : Path) : Tree × Option Fault :=
  if p.isEmpty then (t, none) else t.makeChain p.ancestors

/-! ## Comparing trees -/

/-- The entries that are new or differ, and the locations whose entries are gone. -/
def changesSince (t before : Tree) : List (Location × Option Entry) :=
  (t.entries.filterMap fun (l, e) =>
    if before.entries.lookup l = some e then none else some (l, some e)) ++
  before.entries.filterMap fun (l, _) =>
    if (t.entries.lookup l).isSome then none else some (l, none)

end Tree

end ModelTypings.Files
