import ModelTypings.Command.Arguments
import ModelTypings.Command.Usage
import ModelTypings.Log.Line
import ModelTypings.Run.Basic
import ModelTypings.Settings.File

/-!
# Answers to a command line

* `Answer`: the exit status, what is printed, and the tree afterwards;
* `Halt.answer`: the answer to arguments that are not carried out;
* `generate`, `init`: the two commands;
* `answer`: the answer to a command line.
-/

namespace ModelTypings.Command

open Files Log

/-- What a command line leads to. -/
structure Answer where
  status : Nat
  /-- Lines on standard output. -/
  out : List String
  /-- Lines on standard error, but for those on the causes of a failure. -/
  err : List String
  tree : Tree

/-! ## Arguments that are not carried out -/

/-- The wording of a refusal. Help and the version are no refusals. -/
def Halt.refusal? : Halt → Option String
  | help _ | version | noCommand => none
  | unknownCommand name => some ("unrecognized subcommand '" ++ name ++ "'")
  | unexpected argument => some ("unexpected argument '" ++ argument ++ "' found")
  | valueMissing s =>
    some ("a value is required for '" ++ s.shown ++ "' but none was supplied")
  | repeated s => some ("the argument '" ++ s.shown ++ "' cannot be used multiple times")
  | valueUnexpected s value =>
    some ("unexpected value '" ++ value ++ "' for '" ++ s.shown ++
      "' found; no more were expected")

/-- Lines after a refusal. -/
def hint : List String := ["", "For more information, try '--help'."]

/-- The answer to arguments that are not carried out. -/
def Halt.answer (t : Tree) : Halt → Answer
  | help topic => ⟨0, helpLines topic, [], t⟩
  | version => ⟨0, [versionLine], [], t⟩
  | noCommand => ⟨2, [], helpLines .program, t⟩
  | halt => ⟨2, [], ("error: " ++ halt.refusal?.getD "") :: hint, t⟩

/-! ## Commands -/

/-- The answer to a command that fails. Only the message itself is kept: the lines on its causes that
are printed below it ("Caused by"), in the words of the operating system or of the reader of settings,
are left out. -/
def failure (out : List String) (message : String) (t : Tree) : Answer :=
  ⟨1, out, ["Error: " ++ message], t⟩

/-- Generates interfaces by the settings in a file. -/
def generate (config : Path) (verbose : Bool) (verbosity : Verbosity) (t : Tree) : Answer :=
  match Settings.load t config with
  | .error f => failure [] f.message t
  | .ok s =>
    let report := Run.run s verbose t
    let out := shownLines verbosity (Run.general [.loaded config] ++ report.records)
    match report.result with
    | .error f => failure out f.message report.tree
    | .ok _ => ⟨0, out, [], report.tree⟩

/-- The message when a file is in the way. -/
def existsFailure (output : Path) : String :=
  "Configuration file already exists: " ++ output.text ++ ". Use --force to overwrite."

/-- The lines after settings have been written. -/
def createdLines (output : Path) : List String :=
  ["Created configuration file: " ++ output.text,
   "",
   "Edit the file to configure:",
   "  - input.source_dir: Django app or project directory to scan",
   "  - input.exclude: Directories to skip during scanning",
   "  - output.dest_dir: Where generated .ts files are written",
   "  - types.overrides: Extra field type mappings"]

/-- Writes the standard settings to a file. -/
def init (output : Path) (force : Bool) (t : Tree) : Answer :=
  if t.pathExists output && !force then failure [] (existsFailure output) t
  else
    match Settings.standard.save t output with
    | (t, some f) => failure [] (f.message) t
    | (t, none) => ⟨0, createdLines output, [], t⟩

/-- The verbosity of a command: that of the filter if it can be read, else as asked for. -/
def verbosityOf (filter : Option String) (verbose : Bool) : Verbosity :=
  (filter.bind verbosity?).getD (if verbose then .debugs else .infos)

/-- The answer to a command. -/
def Invocation.answer (filter : Option String) (t : Tree) : Invocation → Answer
  | generate config verbose =>
    Command.generate (.ofText config) verbose (verbosityOf filter verbose) t
  | init output force => Command.init (.ofText output) force t

/-- The answer to a command line. -/
def answer (filter : Option String) (t : Tree) (arguments : List String) : Answer :=
  match Invocation.ofArguments arguments with
  | .error halt => halt.answer t
  | .ok invocation => invocation.answer filter t

end ModelTypings.Command
