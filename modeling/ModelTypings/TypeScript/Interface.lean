import ModelTypings.Naming.Camel
import ModelTypings.Source.Models
import ModelTypings.TypeScript.TypeTable

/-!
# Interfaces

* `Style`: how names and types are written, and whether a banner stands first;
* `Style.interfaceText`: the interface of a model;
* `Style.fileText`: the interfaces of a file;
* `Style.unknownTypes`: the events of writing them.
-/

namespace ModelTypings.TypeScript

open Settings Source Log

/-- How interfaces are written. -/
structure Style where
  naming : Settings.Naming
  types : TypeTable
  header : Bool

namespace Style

/-- The style of some settings. -/
def ofSettings (s : Settings) : Style where
  naming := s.naming
  types := .ofSettings s.types
  header := s.output.header

/-- The name of an interface. -/
def typeName (s : Style) (name : String) : String :=
  s.naming.typePrefix ++ name ++ s.naming.typeSuffix

/-- The name of a property. -/
def fieldName (s : Style) (name : String) : String :=
  match s.naming.fieldCase with
  | .preserve => name
  | .camel => Naming.camelCase name

/-- The line of a field. -/
def fieldText (s : Style) (f : Field) : String :=
  "  " ++ s.fieldName f.name ++ (if f.optional then "?" else "") ++ ": " ++
    s.types.resolve f.fieldType ++ ";\n"

/-- The interface of a model. -/
def interfaceText (s : Style) (m : Model) : String :=
  let opening := "export interface " ++ s.typeName m.name ++ " \x7b"
  if m.fields.isEmpty then opening ++ "\x7d\n"
  else opening ++ "\n" ++ String.join (m.fields.map s.fieldText) ++ "\x7d\n"

/-- The first line of a file. -/
def banner : String := "// Generated by django-ts-generator. Do not edit manually."

/-- The interfaces of the models of a file, with a blank line between two of them. The label names
the source in the banner. -/
def fileText (s : Style) (models : List Model) (label : String) : String :=
  (if s.header then banner ++ "\n// Source: " ++ label ++ "\n\n" else "") ++
    "\n".intercalate (models.map s.interfaceText)

/-- The event of a field whose constructor is not in the table. -/
def unknownType? (s : Style) (f : Field) : Option Event :=
  if s.types.isKnown f.fieldType then none
  else some (.unknownType f.fieldType f.name f.line s.types.fallback)

/-- The events of writing the models of a file. -/
def unknownTypes (s : Style) (models : List Model) : List Event :=
  models.flatMap fun m => m.fields.filterMap s.unknownType?

end Style

end ModelTypings.TypeScript
