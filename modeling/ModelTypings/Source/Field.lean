import ModelTypings.Text.Blank
import ModelTypings.Text.Word

/-!
# Field statements

A field is declared by an assignment of a call: `name = qualifier.Constructor(`. What follows the
bracket plays no part.

* `Field`: a declared field;
* `constructorName`: the last name of a dotted row of names before an opening bracket;
* `Field.ofStatement?`: the field that a statement declares.
-/

namespace ModelTypings.Source

open Text

/-- A field of a model. -/
structure Field where
  name : String
  /-- The name of the constructor, without qualifiers. -/
  fieldType : String
  /-- The field may be absent. -/
  optional : Bool := true
  /-- The line of the statement, counted from one. -/
  line : Nat
  deriving DecidableEq, Repr

theorem length_lt_of_takeName {s name rest : List Char} (h : takeName s = some (name, rest)) :
    rest.length < s.length := by
  cases s with
  | nil => simp [takeName] at h
  | cons c cs =>
    simp only [takeName] at h
    split at h
    · simp only [Option.some.injEq, Prod.mk.injEq] at h
      have : (cs.dropWhile isWord).length ≤ cs.length := (List.dropWhile_suffix isWord).length_le
      simp only [← h.2, List.length_cons]
      omega
    · simp at h

theorem length_trimStart_le (s : List Char) : (trimStart s).length ≤ s.length :=
  (List.dropWhile_suffix isBlank).length_le

/-- The last of the dotted names at the start of a text, if a bracket opens after it. Blanks may
stand around the dots and before the bracket. -/
def constructorName (s : List Char) : Option (List Char) :=
  match _named : takeName s with
  | none => none
  | some (name, rest) =>
    match _dotted : trimStart rest with
    | '.' :: more => constructorName (trimStart more)
    | '(' :: _ => some name
    | _ => none
termination_by s.length
decreasing_by
  have h1 := length_lt_of_takeName _named
  have h2 := length_trimStart_le rest
  have h3 := length_trimStart_le more
  rw [_dotted, List.length_cons] at h2
  omega

/-- The field declared by a statement on a line. -/
def Field.ofStatement? (s : List Char) (line : Nat) : Option Field :=
  match takeName s with
  | none => none
  | some (name, rest) =>
    match trimStart rest with
    | '=' :: value =>
      (constructorName (trimStart value)).map fun c =>
        { name := String.ofList name, fieldType := String.ofList c, line }
    | _ => none

end ModelTypings.Source
