import ModelTypings.Settings.Basic
import ModelTypings.Toml.Document
import ModelTypings.Toml.Printer

/-!
# Settings as TOML

Every part of the settings is a structure: a table with its fields by name, or an array with its
fields in order. What is left out has its standard value, apart from the two directories.

* `Settings.ofEntries?`, `Settings.ofText?`: reading;
* `Settings.sections`, `Settings.text`: writing.
-/

namespace ModelTypings

open Files

namespace Settings

open Toml

/-! ## Reading -/

/-- A string. -/
def readString? : Value → Option String
  | .string s => some s
  | _ => none

/-- A flag. -/
def readFlag? : Value → Option Bool
  | .boolean b => some b
  | _ => none

/-- A list of strings. -/
def readStrings? : Value → Option (List String)
  | .array items => items.mapM readString?
  | _ => none

/-- A path. -/
def readPath? (v : Value) : Option Path := (readString? v).map Path.ofText

/-- The name of a case, alone or as the key of an empty structure. -/
def caseName? : Value → Option String
  | .string s => some s
  | .table _ [(s, .table _ [])] => some s
  | .table _ [(s, .array [])] => some s
  | _ => none

/-- The case of field names. -/
def readFieldCase? (v : Value) : Option FieldCase :=
  match caseName? v with
  | some "preserve" => some .preserve
  | some "camel" => some .camel
  | _ => none

/-- A date or a time counts as a table with its text under this name. -/
def momentKey : String := "$__toml_private_datetime"

/-- The entries of a table. -/
def entries? : Value → Option Entries
  | .table _ entries => some entries
  | .moment text => some [(momentKey, .string text)]
  | _ => none

/-- An entry with a string. -/
def readEntry? (entry : String × Value) : Option (String × String) :=
  (readString? entry.2).map fun s => (entry.1, s)

/-- A map from names to types. -/
def readOverrides? (v : Value) : Option Overrides := do
  let entries ← entries? v
  let types ← entries.mapM readEntry?
  return Overrides.ofList types

/-- The fields of a structure: each by its position and its name. -/
def fields? : Value → Option (Nat → String → Option Value)
  | .array items => some fun position _ => items[position]?
  | .tables rows => some fun position _ => (rows[position]?).map (Value.table .headed)
  | v => (entries? v).map fun entries _ name => entries.lookup name

/-- A field that may be left out. -/
def readOr {α : Type} (standard : α) (read : Value → Option α) : Option Value → Option α
  | none => some standard
  | some v => read v

/-- The part on sources. -/
def readInput? (v : Value) : Option Input := do
  let field ← fields? v
  let sourceDir ← (field 0 "source_dir").bind readPath?
  let standard : Input := { sourceDir }
  let exclude ← readOr standard.exclude readStrings? (field 1 "exclude")
  let recursive ← readOr standard.recursive readFlag? (field 2 "recursive")
  let fileNames ← readOr standard.fileNames readStrings? (field 3 "file_names")
  let modelPackages ← readOr standard.modelPackages readStrings? (field 4 "model_packages")
  let modelBases ← readOr standard.modelBases readStrings? (field 5 "model_bases")
  return { sourceDir, exclude, recursive, fileNames, modelPackages, modelBases }

/-- The part on the written files. -/
def readOutput? (v : Value) : Option Output := do
  let field ← fields? v
  let destDir ← (field 0 "dest_dir").bind readPath?
  let standard : Output := { destDir }
  let header ← readOr standard.header readFlag? (field 1 "header")
  return { destDir, header }

/-- The part on names. -/
def readNaming? (v : Value) : Option Naming := do
  let field ← fields? v
  let standard : Naming := {}
  let typePrefix ← readOr standard.typePrefix readString? (field 0 "type_prefix")
  let typeSuffix ← readOr standard.typeSuffix readString? (field 1 "type_suffix")
  let fieldCase ← readOr standard.fieldCase readFieldCase? (field 2 "field_case")
  return { typePrefix, typeSuffix, fieldCase }

/-- The part on types. -/
def readTypes? (v : Value) : Option Types := do
  let field ← fields? v
  let standard : Types := {}
  let fallback ← readOr standard.fallback readString? (field 0 "fallback")
  let overrides ← readOr standard.overrides readOverrides? (field 1 "overrides")
  return { fallback, overrides }

/-- The settings in a table. -/
def ofEntries? (entries : Entries) : Option Settings := do
  let input ← (entries.lookup "input").bind readInput?
  let output ← (entries.lookup "output").bind readOutput?
  let naming ← readOr {} readNaming? (entries.lookup "naming")
  let types ← readOr {} readTypes? (entries.lookup "types")
  return { input, output, naming, types }

/-- The settings in a text. -/
def ofText? (text : String) : Option Settings := (readDocument text).bind ofEntries?

/-! ## Writing -/

/-- The name of a case. -/
def FieldCase.name : FieldCase → String
  | preserve => "preserve"
  | camel => "camel"

/-- The tables of the settings. -/
def sections (s : Settings) : List Section :=
  [⟨["input"],
    [("source_dir", .text s.input.sourceDir.text),
     ("exclude", .texts s.input.exclude),
     ("recursive", .flag s.input.recursive),
     ("file_names", .texts s.input.fileNames),
     ("model_packages", .texts s.input.modelPackages),
     ("model_bases", .texts s.input.modelBases)]⟩,
   ⟨["output"],
    [("dest_dir", .text s.output.destDir.text),
     ("header", .flag s.output.header)]⟩,
   ⟨["naming"],
    [("type_prefix", .text s.naming.typePrefix),
     ("type_suffix", .text s.naming.typeSuffix),
     ("field_case", .text s.naming.fieldCase.name)]⟩,
   ⟨["types"],
    [("fallback", .text s.types.fallback)]⟩,
   ⟨["types", "overrides"],
    s.types.overrides.entries.map fun (key, type) => (key, .text type)⟩]

/-- The settings as a text. -/
def text (s : Settings) : String := printDocument s.sections

end Settings

end ModelTypings
