import ModelTypings.Settings.Basic

/-!
# The types of field constructors

* `groups`: the constructors that are known from the start, by their type;
* `knownType?`: the type of such a constructor;
* `TypeTable`, `TypeTable.ofSettings`: the table with the overrides of the settings;
* `TypeTable.get?`, `TypeTable.resolve`: look-up, with the fallback for unknown constructors.
-/

namespace ModelTypings.TypeScript

open Settings

/-- Constructors that share a type. -/
structure Group where
  constructors : List String
  type : String

/-- The known constructors. -/
def groups : List Group :=
  [⟨["CharField", "TextField", "SlugField", "EmailField", "URLField", "UUIDField",
      "GenericIPAddressField"], "string"⟩,
   ⟨["DateField", "DateTimeField", "TimeField"], "string"⟩,
   ⟨["FileField", "ImageField", "FilePathField"], "string"⟩,
   ⟨["BooleanField", "NullBooleanField"], "boolean"⟩,
   ⟨["AutoField", "BigAutoField", "SmallAutoField", "IntegerField", "SmallIntegerField",
      "BigIntegerField", "PositiveIntegerField", "PositiveSmallIntegerField",
      "PositiveBigIntegerField", "FloatField", "DecimalField", "DurationField"], "number"⟩,
   ⟨["ForeignKey", "OneToOneField"], "number"⟩,
   ⟨["ManyToManyField"], "number[]"⟩,
   ⟨["JSONField"], "Record<string, any>"⟩,
   ⟨["ArrayField"], "any[]"⟩]

/-- The type of a known constructor. -/
def knownType? (fieldType : String) : Option String :=
  (groups.find? fun g => g.constructors.contains fieldType).map Group.type

/-- The known constructors with their types, group by group. -/
def knownEntries : List (String × String) :=
  groups.flatMap fun g => g.constructors.map fun c => (c, g.type)

/-- A table of types with a fallback. -/
structure TypeTable where
  entries : List (String × String)
  fallback : String

namespace TypeTable

/-- An entry in place of an earlier one of its key, or after all others. -/
def setEntry (key value : String) : List (String × String) → List (String × String)
  | [] => [(key, value)]
  | (k, v) :: rest => if k = key then (key, value) :: rest else (k, v) :: setEntry key value rest

/-- The known entries under the overrides of the settings. -/
def ofSettings (s : Types) : TypeTable where
  entries := s.overrides.entries.foldl (fun es p => setEntry p.1 p.2 es) knownEntries
  fallback := s.fallback

/-- The type of a constructor, if it is in the table. -/
def get? (t : TypeTable) (fieldType : String) : Option String := t.entries.lookup fieldType

/-- The constructor is in the table. -/
def isKnown (t : TypeTable) (fieldType : String) : Bool := (t.get? fieldType).isSome

/-- The type of a constructor, or the fallback. -/
def resolve (t : TypeTable) (fieldType : String) : String := (t.get? fieldType).getD t.fallback

/-- The number of constructors in the table. -/
def size (t : TypeTable) : Nat := t.entries.length

end TypeTable

end ModelTypings.TypeScript
