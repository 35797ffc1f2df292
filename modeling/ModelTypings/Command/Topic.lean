/-!
# The commands and their switches

* `Verb`: the commands;
* `Switch`: what may be set on a command line, by a long or a short name;
* `Topic`: what there is help on, with its switches.
-/

namespace ModelTypings.Command

/-- The commands. -/
inductive Verb
  | generate
  | init
  deriving DecidableEq, Repr

/-- The name of a command. -/
def Verb.name : Verb → String
  | generate => "generate"
  | init => "init"

/-- What a command does. -/
def Verb.about : Verb → String
  | generate => "Generate TypeScript interfaces from the configured model files"
  | init => "Write a default configuration file"

/-- All commands. -/
def verbs : List Verb := [.generate, .init]

/-- The command of a name. -/
def verb? (name : String) : Option Verb := verbs.find? fun v => v.name == name

/-- What a switch does. -/
inductive Effect
  /-- It takes a value. -/
  | value (placeholder standard : String)
  | mark
  | help
  | version
  deriving DecidableEq, Repr

/-- A switch. -/
structure Switch where
  long : String
  short : Char
  effect : Effect
  about : String
  deriving DecidableEq, Repr

/-- The switch takes a value. -/
def Switch.takesValue (s : Switch) : Bool :=
  match s.effect with
  | .value .. => true
  | _ => false

/-- A switch as it is shown in messages. -/
def Switch.shown (s : Switch) : String :=
  match s.effect with
  | .value placeholder _ => "--" ++ s.long ++ " <" ++ placeholder ++ ">"
  | _ => "--" ++ s.long

/-- The file with the settings, if none is named. -/
def standardFile : String := "django-ts.toml"

/-- The file to read settings from. -/
def configSwitch : Switch :=
  ⟨"config", 'c', .value "CONFIG" standardFile, "Path to the configuration file"⟩

/-- Whether to report more. -/
def verboseSwitch : Switch :=
  ⟨"verbose", 'v', .mark, "Log every generated interface and debug diagnostics"⟩

/-- The file to write settings to. -/
def outputSwitch : Switch :=
  ⟨"output", 'o', .value "OUTPUT" standardFile, "Where to write the configuration file"⟩

/-- Whether to overwrite a file. -/
def forceSwitch : Switch := ⟨"force", 'f', .mark, "Overwrite an existing file"⟩

/-- Asks for help. -/
def helpSwitch : Switch := ⟨"help", 'h', .help, "Print help"⟩

/-- Asks for the version. -/
def versionSwitch : Switch := ⟨"version", 'V', .version, "Print version"⟩

/-- The switches of a command, apart from that for help. -/
def Verb.switches : Verb → List Switch
  | generate => [configSwitch, verboseSwitch]
  | init => [outputSwitch, forceSwitch]

/-- What there is help on. -/
inductive Topic
  | program
  | verb (v : Verb)
  /-- Help itself. -/
  | help
  deriving DecidableEq, Repr

/-- The switches of a topic. -/
def Topic.switches : Topic → List Switch
  | program => [helpSwitch, versionSwitch]
  | verb v => v.switches ++ [helpSwitch]
  | help => []

end ModelTypings.Command
