import ModelTypings.Command.Answer

/-!
# The command line program

The parts of the disk that a command line speaks of are read into a tree, the answer is computed
from it, and its changes are written back.
-/

namespace ModelTypings.Main

open Files

/-- The text of the path to a location. -/
def pathText (l : Location) : String := "/" ++ "/".intercalate (l.map Name.text)

/-- The location of an absolute path. -/
def locationOf (text : String) : Location :=
  (Path.ofText text).segments.filter fun s => !Path.isFiller s

/-- The target of a link that leads nowhere. -/
def nowhere : Path := ⟨["\x00", "\x00"]⟩

/-- Reads the entry at a location, if there is one. -/
def readEntry (l : Location) : IO (Option Entry) := do
  try
    let directory ← IO.FS.realPath (pathText l.dropLast)
    let entries ← directory.readDir
    match entries.find? fun e => some (.ofText e.fileName) == l.getLast? with
    | none => return none
    | some e =>
      match (← e.path.symlinkMetadata).type with
      | .dir => return some .directory
      | .symlink =>
        try return some (.link (.ofText (← IO.FS.realPath e.path).toString))
        catch _ => return some (.link nowhere)
      | _ =>
        let bytes ← IO.FS.readBinFile e.path
        return some (.file ((String.fromUTF8? bytes).elim (.bytes bytes.toList) .text))
  catch _ => return none

/-- Reads the entry at a location into the tree, unless the tree has it. -/
def learn (t : Tree) (l : Location) : IO Tree := do
  if let some _ := t.entry? l then return t
  match ← readEntry l with
  | some e => return t.set l e
  | none => return t

/-- The names in a directory, as far as the disk gives them as texts. -/
def namesIn (l : Location) : IO (List Name) := do
  try return (← (← IO.FS.realPath (pathText l)).readDir).toList.map fun e => .ofText e.fileName
  catch _ => return []

/-- Reads what stands on the way of segments from a location, and below its end if `deep`. The
directories that have been read to the bottom stand in `done`. -/
partial def learnPath (deep : Bool) (state : Tree × List Location) (here : Location) :
    List Name → IO (Tree × List Location)
  | [] => do
    let (t, done) := state
    if !deep || done.contains here || t.entry? here != some .directory then return state
    let mut state := (t, here :: done)
    for n in ← namesIn here do
      state ← learnPath deep state here [n]
    return state
  | s :: rest => do
    if Path.isFiller s then learnPath deep state here rest
    else if s = .up then learnPath deep state here.dropLast rest
    else
      let t ← learn state.1 (here ++ [s])
      match t.entry? (here ++ [s]) with
      | some (.link target) => learnPath deep (t, state.2) [] (target.segments ++ rest)
      | some .directory => learnPath deep (t, state.2) (here ++ [s]) rest
      | _ => return (t, state.2)

/-- Reads what stands on the way of a path, and below its end if `deep`. -/
def learnOf (t : Tree) (deep : Bool) (p : Path) : IO Tree := do
  let start := if p.isAbsolute then [] else t.home
  return (← learnPath deep (t, []) start p.segments).1

/-- Reads the parts of the disk that a command speaks of. -/
def learnFor (t : Tree) : Command.Invocation → IO Tree
  | .init output _ => learnOf t false (.ofText output)
  | .generate config _ => do
    let t ← learnOf t false (.ofText config)
    match (t.readText (.ofText config)).toOption.bind Settings.ofText? with
    | none => return t
    | some s =>
      let t ← learnOf t true s.input.sourceDir
      learnOf t true s.output.destDir

/-- Writes the changes to the disk. -/
def writeChanges (t before : Tree) : IO Unit := do
  for (l, e) in t.changesSince before do
    match e with
    | some .directory => IO.FS.createDir (pathText l)
    | some (.file (.text s)) => IO.FS.writeFile (pathText l) s
    | _ => pure ()

end ModelTypings.Main

open ModelTypings ModelTypings.Main in
/-- Answers a command line. -/
def main (arguments : List String) : IO UInt32 := do
  let home := locationOf (← IO.currentDir).toString
  let empty : Files.Tree := { entries := [], home }
  let start := (← learnPath false (empty, []) [] home).1
  let before ←
    match Command.Invocation.ofArguments arguments with
    | .ok invocation => learnFor start invocation
    | .error _ => pure start
  let answer := Command.answer (← IO.getEnv "RUST_LOG") before arguments
  writeChanges answer.tree before
  for line in answer.out do
    IO.println line
  for line in answer.err do
    IO.eprintln line
  return answer.status.toUInt32
