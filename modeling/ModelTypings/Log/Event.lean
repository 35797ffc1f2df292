import ModelTypings.Files.Walk
import ModelTypings.Text.Quoted

/-!
# The events of a run

* `Level`: how much an event matters;
* `Event`: what is reported while files are scanned, read and written;
* `Event.level`, `Event.message`: how it is reported;
* `Record`: an event with the file under way.
-/

namespace ModelTypings.Log

open Files

/-- How much an event matters. -/
inductive Level
  | debug
  | info
  | warn
  deriving DecidableEq, Repr

/-- The name of a level. -/
def Level.name : Level → String
  | debug => "DEBUG"
  | info => "INFO"
  | warn => "WARN"

/-- Why the source of a file cannot be used. -/
inductive SourceFault
  | unreadable (fault : Fault)
  /-- The file ends inside the header of the class that starts on this line. -/
  | unterminatedClass (file : Path) (line : Nat)
  deriving DecidableEq, Repr

/-- The wording of a fault. -/
def SourceFault.message : SourceFault → String
  | unreadable f => f.message
  | unterminatedClass file line =>
    "Unterminated class declaration at " ++ file.text ++ ":" ++ toString line

/-- What is reported. -/
inductive Event
  | malformedHeader (file : Path) (line : Nat) (header : String)
  | notModel (file : Path) (line : Nat) (name : String) (bases : List String)
  | redefined (file : Path) (line : Nat) (name : String) (earlier : Nat)
  | notField (line : Nat) (statement : String)
  | unknownType (fieldType name : String) (line : Nat) (fallback : String)
  | excluded (path : Path)
  | ignored (path : Path)
  | skippedEntry (fault : WalkFault)
  | loaded (settings : Path)
  | scanning (directory : Path)
  | found (files : Nat)
  | typeTable (known : Nat) (fallback : String)
  | skippedFile (label : String) (fault : SourceFault)
  | noModels (label : String)
  | otherStatements (count : Nat)
  | interface (name : String) (fields : Nat) (output : Path)
  | wrote (output : Path) (interfaces : Nat)
  | done (interfaces files skipped : Nat)
  deriving DecidableEq, Repr

namespace Event

/-- The level of an event. -/
def level : Event → Level
  | malformedHeader .. | notModel .. | notField .. | excluded _ | ignored _ | found _
  | typeTable .. | noModels _ | otherStatements _ => .debug
  | loaded _ | scanning _ | interface .. | wrote .. | done .. => .info
  | redefined .. | unknownType .. | skippedEntry _ | skippedFile .. => .warn

/-- The start of a message about a line of a file. -/
def lineOf (file : Path) (line : Nat) : String := file.text ++ ":" ++ toString line ++ ": "

/-- The wording of an event. -/
def message : Event → String
  | malformedHeader file line header =>
    lineOf file line ++ "skipping malformed class header `" ++ header ++ "`"
  | notModel file line name bases =>
    lineOf file line ++ "class " ++ name ++ " is not a model (bases: " ++
      Text.quotedList bases ++ ")"
  | redefined file line name earlier =>
    lineOf file line ++ "model " ++ name ++ " redefined; the earlier definition at line " ++
      toString earlier ++ " is dropped"
  | notField line statement =>
    "line " ++ toString line ++ ": not a field statement: `" ++ statement ++ "`"
  | unknownType fieldType name line fallback =>
    "Unknown field type '" ++ fieldType ++ "' for '" ++ name ++ "' (line " ++ toString line ++
      "), using '" ++ fallback ++ "'"
  | excluded path => "Excluding " ++ path.text
  | ignored path => "Ignoring " ++ path.text
  | skippedEntry fault => "Skipping unreadable entry: " ++ fault.message
  | loaded settings => "Loaded configuration from: " ++ settings.text
  | scanning directory => "Scanning models in: " ++ directory.text
  | found files => "Found " ++ toString files ++ " model files"
  | typeTable known fallback =>
    "Type map: " ++ toString known ++ " known constructors, fallback '" ++ fallback ++ "'"
  | skippedFile label fault => "Skipping " ++ label ++ ": " ++ fault.message
  | noModels label => "No models in " ++ label
  | otherStatements count => toString count ++ " body lines were not field statements"
  | interface name fields output =>
    name ++ " (" ++ toString fields ++ " fields) -> " ++ output.text
  | wrote output interfaces =>
    "Wrote " ++ output.text ++ " (" ++ toString interfaces ++ " interfaces)"
  | done interfaces files skipped =>
    "Done. " ++ toString interfaces ++ " interfaces generated in " ++ toString files ++
      " files (" ++ toString skipped ++ " skipped)."

end Event

/-- An event, with the label of the file under way if there is one. -/
structure Record where
  file : Option String := none
  event : Event
  deriving DecidableEq, Repr

end ModelTypings.Log
