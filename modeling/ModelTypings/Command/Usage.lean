import ModelTypings.Command.Topic

/-!
# Help texts

* `usage`: how a topic is used;
* `helpLines`: the help on a topic.
-/

namespace ModelTypings.Command

/-- The name of the program. -/
def programName : String := "django-ts-generator"

/-- The answer to the question for the version. -/
def versionLine : String := programName ++ " 0.1.0"

/-- What the program does. -/
def programAbout : String := "CLI tool to generate TypeScript interfaces from Django models"

/-- What help does. -/
def helpAbout : String := "Print this message or the help of the given subcommand(s)"

/-- What a topic is about. -/
def Topic.about : Topic → String
  | program => programAbout
  | verb v => v.about
  | help => helpAbout

/-- How a topic is used. -/
def usage : Topic → String
  | .program => "Usage: " ++ programName ++ " <COMMAND>"
  | .verb v => "Usage: " ++ programName ++ " " ++ v.name ++ " [OPTIONS]"
  | .help => "Usage: " ++ programName ++ " help [COMMAND]..."

/-- A text with blanks up to a width. -/
def padded (width : Nat) (s : String) : String :=
  s ++ String.ofList (List.replicate (width - s.length) ' ')

/-- Rows of two columns under a title, after a blank line. -/
def table (title : String) (rows : List (String × String)) : List String :=
  let width := (rows.map fun row => row.1.length).foldl max 0
  if rows.isEmpty then []
  else "" :: title :: rows.map fun (left, right) => "  " ++ padded width left ++ "  " ++ right

/-- The row of a switch. -/
def Switch.row (s : Switch) : String × String :=
  ("-" ++ String.singleton s.short ++ ", " ++ s.shown,
    match s.effect with
    | .value _ standard => s.about ++ " [default: " ++ standard ++ "]"
    | _ => s.about)

/-- The commands that a topic offers. -/
def Topic.commands : Topic → List (String × String)
  | program => verbs.map (fun v => (v.name, v.about)) ++ [("help", helpAbout)]
  | _ => []

/-- The arguments that a topic takes. -/
def Topic.arguments : Topic → List (String × String)
  | help => [("[COMMAND]...", "Print help for the subcommand(s)")]
  | _ => []

/-- The help on a topic. -/
def helpLines (t : Topic) : List String :=
  [t.about, "", usage t] ++ table "Commands:" t.commands ++ table "Arguments:" t.arguments ++
    table "Options:" (t.switches.map Switch.row)

end ModelTypings.Command
