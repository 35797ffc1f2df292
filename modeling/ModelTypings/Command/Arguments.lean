import ModelTypings.Command.Topic

/-!
# Reading arguments

A switch that takes a value finds it behind its name or in the next argument. Such a value counts
when the next switch is met or the arguments end.

* `Halt`: why arguments are not carried out;
* `Reading`: the switches read so far, with `Reading.settle`, `Reading.use`, `Reading.long`,
  `Reading.short`;
* `Invocation`: a command with its switches;
* `Invocation.ofArguments`: the command of some arguments.
-/

namespace ModelTypings.Command

/-- Why arguments are not carried out as a command. -/
inductive Halt
  | help (topic : Topic)
  | version
  | noCommand
  | unknownCommand (name : String)
  | unexpected (argument : String)
  | valueMissing (s : Switch)
  | repeated (s : Switch)
  | valueUnexpected (s : Switch) (value : String)
  deriving DecidableEq, Repr

/-- The argument gives switches: something stands after a dash. -/
def isSwitch (argument : String) : Bool :=
  match argument.toList with
  | '-' :: _ :: _ => true
  | _ => false

/-- The switches read so far. -/
structure Reading where
  /-- Switches by their long names, with their values. -/
  given : List (String × String) := []
  /-- A switch that does not count yet, with its value if that has been read. -/
  pending : Option (Switch × Option String) := none

namespace Reading

/-- The switch has been given. -/
def has (r : Reading) (s : Switch) : Bool := (r.given.lookup s.long).isSome

/-- The value of a switch for a file. -/
def value (r : Reading) (s : Switch) : String := (r.given.lookup s.long).getD standardFile

/-- A switch counts, with a value or an empty one for a mark. -/
def give (r : Reading) (s : Switch) (value : String) : Except Halt Reading :=
  if r.has s then .error (.repeated s)
  else if s.takesValue && value == "" then .error (.valueMissing s)
  else .ok { r with given := r.given ++ [(s.long, value)] }

/-- The pending switch counts. -/
def settle (r : Reading) : Except Halt Reading :=
  match r.pending with
  | none => .ok r
  | some (s, none) => .error (.valueMissing s)
  | some (s, some value) => ({ r with pending := none } : Reading).give s value

/-- A switch without a value behind its name. -/
def use (r : Reading) (topic : Topic) (s : Switch) : Except Halt Reading :=
  r.settle.bind fun r =>
    match s.effect with
    | .value .. => .ok { r with pending := some (s, none) }
    | .mark => r.give s ""
    | .help => .error (.help topic)
    | .version => .error .version

/-- A switch with a value behind its name. -/
def useWith (r : Reading) (s : Switch) (value : List Char) : Except Halt Reading :=
  r.settle.bind fun r => r.give s (String.ofList value)

/-- An argument after its two dashes. -/
def long (r : Reading) (topic : Topic) (text : List Char) : Except Halt Reading :=
  let name := String.ofList (text.takeWhile (· != '='))
  match topic.switches.find? fun s => s.long == name with
  | none => .error (.unexpected ("--" ++ name))
  | some s =>
    match text.dropWhile (· != '=') with
    | [] => r.use topic s
    | _ :: value =>
      if s.takesValue then r.useWith s value
      else .error (.valueUnexpected s (String.ofList value))

/-- The value behind the short name of a switch, if there is one. -/
def attached? : List Char → Option (List Char)
  | [] => none
  | '=' :: value => some value
  | value => some value

/-- An argument after its only dash. -/
def short (topic : Topic) (r : Reading) : List Char → Except Halt Reading
  | [] => .ok r
  | c :: cs =>
    match topic.switches.find? fun s => s.short == c with
    | none => .error (.unexpected ("-" ++ String.singleton c))
    | some s =>
      if s.takesValue then
        match attached? cs with
        | none => r.use topic s
        | some value => r.useWith s value
      else (r.use topic s).bind fun r => short topic r cs

/-- An argument that is no switch. -/
def plain (r : Reading) (argument : String) : Except Halt Reading :=
  match r.pending with
  | some (s, none) => .ok { r with pending := some (s, some argument) }
  | _ => .error (.unexpected argument)

/-- An argument before the separator. -/
def next (r : Reading) (topic : Topic) (argument : String) : Except Halt Reading :=
  match argument.toList with
  | '-' :: '-' :: text => r.long topic text
  | '-' :: c :: cs => short topic r (c :: cs)
  | _ => r.plain argument

end Reading

/-- The argument after which no switches are read. -/
def separator : String := "--"

/-- Reads the switches of a command. -/
def readSwitches (topic : Topic) (r : Reading) : List String → Except Halt Reading
  | [] => r.settle
  | argument :: rest =>
    if argument = separator then
      match rest with
      | [] => r.settle
      | extra :: _ => .error (.unexpected extra)
    else (r.next topic argument).bind fun r => readSwitches topic r rest

/-! ## Commands -/

/-- A command with its switches. -/
inductive Invocation
  | generate (config : String) (verbose : Bool)
  | init (output : String) (force : Bool)
  deriving DecidableEq, Repr

namespace Invocation

/-- The command of a verb under the switches that were given. -/
def ofReading (r : Reading) : Verb → Invocation
  | .generate => .generate (r.value configSwitch) (r.has verboseSwitch)
  | .init => .init (r.value outputSwitch) (r.has forceSwitch)

/-- The word that asks for help on what follows. -/
def helpWord : String := "help"

/-- What help is asked on. Only the program has parts to ask for. -/
def helpOn (topic : Topic) : List String → Halt
  | [] => .help topic
  | name :: rest =>
    match topic with
    | .program =>
      match verb? name with
      | some v => helpOn (.verb v) rest
      | none => if name = helpWord then helpOn .help rest else .unknownCommand name
    | _ => .unknownCommand name

/-- Why arguments after a separator name no command. -/
def afterSeparator : List String → Halt
  | [] => .noCommand
  | name :: _ =>
    if (verb? name).isSome || name = helpWord then .unexpected name else .unknownCommand name

/-- The command of some arguments. -/
def ofArguments : List String → Except Halt Invocation
  | [] => .error .noCommand
  | argument :: rest =>
    match verb? argument with
    | some v => (readSwitches (.verb v) {} rest).map fun r => ofReading r v
    | none =>
      if argument = helpWord then .error (helpOn .program rest)
      else if argument = separator then .error (afterSeparator rest)
      else if isSwitch argument then
        (({} : Reading).next .program argument).bind fun _ => ofArguments rest
      else .error (.unknownCommand argument)

end Invocation

end ModelTypings.Command
