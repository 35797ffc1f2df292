import ModelTypings.Text.Utf8

/-!
# Names

A name is made of bytes. Most names are texts, but nothing keeps a name from being none.

* `Name`, `Name.ofText`, `Name.text`: a name and its text;
* `slash`, `dot`: the bytes with a meaning of their own;
* `Name.empty`, `Name.here`, `Name.up`: the names with one.
-/

namespace ModelTypings.Files

open Text

/-- The name of an entry, or a segment of a path. -/
@[ext]
structure Name where
  bytes : List UInt8
  deriving DecidableEq, Repr

/-- The byte between the segments of a path. -/
def slash : UInt8 := '/'.toUInt8

/-- The byte before an extension. -/
def dot : UInt8 := '.'.toUInt8

namespace Name

/-- The name written as `s`. -/
def ofText (s : String) : Name := ⟨encode s⟩

instance : Coe String Name := ⟨ofText⟩

/-- The name without bytes. -/
def empty : Name := ⟨[]⟩

/-- The name of a directory in itself. -/
def here : Name := ofText "."

/-- The name, in a directory, of the one above it. -/
def up : Name := ofText ".."

/-- The text of a name. Bytes that are no text are replaced. -/
def text (n : Name) : String := decode n.bytes

instance : Append Name := ⟨fun m n => ⟨m.bytes ++ n.bytes⟩⟩

instance : LT Name := ⟨fun m n => m.bytes < n.bytes⟩

instance (m n : Name) : Decidable (m < n) := inferInstanceAs (Decidable (m.bytes < n.bytes))

end Name

end ModelTypings.Files
