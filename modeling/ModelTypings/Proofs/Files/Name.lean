import Mathlib.Data.List.Basic
import ModelTypings.Files.Name
import ModelTypings.Proofs.Text.Utf8

/-!
# Names, their order and their texts

* `Name.lt_of_not_lt`, `Name.lt_trans`: names are ordered by their bytes;
* `Name.IsText`, **`Name.text_injective`**: names that are texts are told by their texts;
* `Name.slash_notMem_text`, `Name.text_ne_empty`, `Name.text_append_dot`: what is known of the text
  of any name.
-/

namespace ModelTypings.Files.Name

open Text

/-! ## Order -/

theorem lt_irrefl (n : Name) : ¬n < n := List.lt_irrefl n.bytes

theorem lt_asymm {m n : Name} (h : m < n) : ¬n < m := List.lt_asymm h

theorem lt_trans {k m n : Name} (h : k < m) (h' : m < n) : k < n := List.lt_trans h h'

theorem lt_of_not_lt {m n : Name} (h : ¬n < m) (hne : m ≠ n) : m < n := by
  by_contra hn
  have he : m.bytes = n.bytes := List.le_antisymm (List.not_lt.mp h) (List.not_lt.mp hn)
  exact hne (congrArg Name.mk he)

instance : Std.Irrefl (α := Name) (· < ·) := ⟨lt_irrefl⟩

instance : Std.Asymm (α := Name) (· < ·) := ⟨fun _ _ => lt_asymm⟩

/-! ## Texts -/

/-- The name is the name of a text. -/
def IsText (n : Name) : Prop := ∃ s, n = ofText s

theorem text_ofText (s : String) : (ofText s).text = s := decode_encode s

theorem IsText.ofText_text {n : Name} (h : n.IsText) : ofText n.text = n := by
  obtain ⟨s, rfl⟩ := h
  rw [text_ofText]

instance (n : Name) : Decidable n.IsText :=
  decidable_of_iff (ofText n.text = n) ⟨fun h => ⟨n.text, h.symm⟩, IsText.ofText_text⟩

/-- **Names that are texts** are told by their texts. -/
theorem text_injective {m n : Name} (hm : m.IsText) (hn : n.IsText) (h : m.text = n.text) :
    m = n := by
  rw [← hm.ofText_text, h, hn.ofText_text]

theorem toList_text (n : Name) : n.text.toList = decodeFrom 0 n.bytes := String.toList_ofList

theorem slash_notMem_text {n : Name} (h : slash ∉ n.bytes) : '/' ∉ n.text.toList := by
  rw [toList_text]
  intro hc
  rcases subset_of_mem_decodeFrom hc with hc | hc
  · exact absurd hc (by decide)
  · exact h (hc (by decide))

theorem text_ne_empty {n : Name} (h : n ≠ .empty) : n.text ≠ "" := by
  rw [ne_eq, ← String.toList_eq_nil_iff, toList_text]
  obtain ⟨bs⟩ := n
  cases bs with
  | nil => exact absurd rfl h
  | cons b bs =>
    rw [decodeFrom]
    split <;> exact List.cons_ne_nil _ _

theorem bytes_append_dot (stem extension : Name) :
    (stem ++ "." ++ extension).bytes = stem.bytes ++ dot :: extension.bytes :=
  List.append_assoc stem.bytes [dot] extension.bytes

theorem text_append_dot (stem extension : Name) : (stem ++ "." ++ extension).text.toList =
    stem.text.toList ++ '.' :: extension.text.toList := by
  rw [toList_text, toList_text, toList_text, bytes_append_dot, decodeFrom_append_ascii (by decide)]
  rfl

end ModelTypings.Files.Name
