import Mathlib.Control.Monad.Basic
import ModelTypings.Proofs.Files.Path
import ModelTypings.Proofs.Files.Tree
import ModelTypings.Proofs.Toml.Document
import ModelTypings.Settings.File

/-!
# Settings saved and loaded

* `Overrides.ofList_entries`: a map is read back from its entries;
* `Settings.table`, `Settings.readDocument_text`: the table of saved settings;
* `Settings.ofText?_text`: settings are read back from their text;
* `Settings.save_eq_none`: settings with directories that are texts are saved as their text is;
* **`Settings.load_save`**: settings that are saved are loaded as they were.
-/

namespace ModelTypings.Settings

open Files Toml

/-! ## Overrides -/

theorem ne_of_key_lt {a b : String} (h : a < b) : a ≠ b := by
  rintro rfl
  exact String.lt_irrefl a h

theorem insertEntry_of_lt {key : String} (value : String) : ∀ {xs : List (String × String)},
    (∀ x ∈ xs, x.1 < key) → insertEntry key value xs = xs ++ [(key, value)]
  | [], _ => rfl
  | (k, v) :: xs, h => by
    have hk : k < key := h (k, v) List.mem_cons_self
    rw [insertEntry, if_neg (String.lt_asymm hk), if_neg (ne_of_key_lt hk).symm,
      insertEntry_of_lt value fun x hx => h x (List.mem_cons_of_mem _ hx)]
    rfl

theorem entries_foldl_insert : ∀ {es : List (String × String)} (o : Overrides),
    (o.entries ++ es).Pairwise (fun a b => a.1 < b.1) →
      (es.foldl (fun o p => o.insert p.1 p.2) o).entries = o.entries ++ es
  | [], o, _ => (List.append_nil _).symm
  | (k, v) :: es, o, h => by
    have hk : ∀ x ∈ o.entries, x.1 < k := fun x hx =>
      (List.pairwise_append.mp h).2.2 x hx (k, v) List.mem_cons_self
    have ho : (o.insert k v).entries = o.entries ++ [(k, v)] := insertEntry_of_lt v hk
    rw [List.foldl_cons, entries_foldl_insert (o.insert k v), ho, List.append_assoc]
    · rfl
    · rw [ho, List.append_assoc]
      exact h

theorem Overrides.ofList_entries (o : Overrides) : Overrides.ofList o.entries = o := by
  have h := entries_foldl_insert .empty o.sorted
  obtain ⟨es, hs⟩ := o
  exact Overrides.mk.injEq .. ▸ h

theorem Overrides.nodup (o : Overrides) : (o.entries.map Prod.fst).Nodup :=
  List.pairwise_map.mpr (o.sorted.imp fun h => ne_of_key_lt h)

theorem Overrides.nodup_items (o : Overrides) :
    ((o.entries.map fun (key, type) => (key, Item.text type)).map Prod.fst).Nodup := by
  rw [List.map_map]
  exact o.nodup

/-! ## The table of the settings -/

/-- The tables that saved settings are read from. -/
def table (s : Settings) : Entries :=
  [("input", .table .headed
     [("source_dir", .string s.input.sourceDir.text),
      ("exclude", .array (s.input.exclude.map .string)),
      ("recursive", .boolean s.input.recursive),
      ("file_names", .array (s.input.fileNames.map .string)),
      ("model_packages", .array (s.input.modelPackages.map .string)),
      ("model_bases", .array (s.input.modelBases.map .string))]),
   ("output", .table .headed
     [("dest_dir", .string s.output.destDir.text),
      ("header", .boolean s.output.header)]),
   ("naming", .table .headed
     [("type_prefix", .string s.naming.typePrefix),
      ("type_suffix", .string s.naming.typeSuffix),
      ("field_case", .string s.naming.fieldCase.name)]),
   ("types", .table .headed
     [("fallback", .string s.types.fallback),
      ("overrides", .table .headed
        (s.types.overrides.entries.map fun (key, type) => (key, .string type)))])]

/-- **The text of settings is read as their table.** -/
theorem readDocument_text (s : Settings) : readDocument s.text = some s.table := by
  have hp : ∀ x ∈ s.sections, x.path ≠ [] := by
    simp [sections]
  rw [text, readDocument_printDocument hp, tableOf, sections,
    foldlM_sections_cons (foldlM_add_flat rfl (by simp) []),
    foldlM_sections_cons (foldlM_add_flat rfl (by simp) _),
    foldlM_sections_cons (foldlM_add_flat rfl (by simp) _),
    foldlM_sections_cons (foldlM_add_flat rfl (by simp) _),
    foldlM_sections_cons (foldlM_add_nested rfl rfl s.types.overrides.nodup_items _)]
  simp [table, Section.table, Item.value]

/-! ## The settings of the table -/

theorem readStrings?_map (ss : List String) : readStrings? (.array (ss.map .string)) = some ss := by
  induction ss with
  | nil => rfl
  | cons s ss ih =>
    rw [readStrings?] at ih ⊢
    rw [List.map_cons, List.mapM_cons, ih]
    rfl

theorem readOverrides?_map (o : Overrides) :
    readOverrides? (.table .headed (o.entries.map fun (key, type) => (key, .string type))) =
      some o := by
  have h : ∀ es : List (String × String),
      (es.map fun (key, type) => (key, Value.string type)).mapM readEntry? = some es := by
    intro es
    induction es with
    | nil => rfl
    | cons e es ih =>
      rw [List.map_cons, List.mapM_cons, ih]
      rfl
  rw [readOverrides?, entries?, Option.bind_eq_bind, Option.bind_some, h, Option.bind_eq_bind,
    Option.bind_some, o.ofList_entries]
  rfl

theorem readFieldCase?_name (c : FieldCase) : readFieldCase? (.string c.name) = some c := by
  cases c <;> rfl

theorem readPath?_text {p : Path} (h : p.IsText) : readPath? (.string p.text) = some p :=
  congrArg some h.ofText_text

/-- **Settings are read back from their text.** -/
theorem ofText?_text {s : Settings} (hs : s.input.sourceDir.IsText)
    (hd : s.output.destDir.IsText) : ofText? s.text = some s := by
  rw [ofText?, readDocument_text, Option.bind_some]
  simp [ofEntries?, table, List.lookup_cons, readInput?, readOutput?, readNaming?, readTypes?, fields?,
    entries?, readOr, readPath?_text hs, readPath?_text hd, readStrings?_map, readFlag?, readString?,
    readFieldCase?_name, readOverrides?_map]

/-! ## The file -/

/-- Settings are saved if both directories are texts and their text is. -/
theorem save_eq_none {s : Settings} {t t' : Tree} {p : Path} : s.save t p = (t', none) ↔
    (s.input.sourceDir.isText = true ∧ s.output.destDir.isText = true) ∧
      t.save p s.text = (t', none) := by
  rw [save, ← Bool.and_eq_true]
  split
  · next h =>
    cases hsave : t.save p s.text with
    | mk t₁ fault => cases fault <;> simp [h]
  · next h => simp [h]

/-- **Settings that are saved are loaded as they were.** -/
theorem load_save {s : Settings} {t t' : Tree} {p : Path} (hs : s.input.sourceDir.IsSpelled)
    (hd : s.output.destDir.IsSpelled) (hsave : s.save t p = (t', none))
    (hvalid : s.validate t' = .ok ()) : load t' p = .ok s := by
  obtain ⟨⟨hsource, hdest⟩, hsave⟩ := save_eq_none.mp hsave
  have hread : t'.readText p = .ok s.text := Tree.readText_of_save hsave
  have htext := ofText?_text (hs.isText_iff.mp hsource) (hd.isText_iff.mp hdest)
  simp only [load, hread, htext, hvalid]

/-- Quotes of both kinds, line breaks and an empty key, in a directory that is made for the file. -/
theorem load_save_quotes :
    let s : Settings := {
      input := { sourceDir := .ofText "src", exclude := ["\"\x27\n", "\r\\"] }
      output := { destDir := .ofText "" }
      types := { fallback := "\"\"\"\t", overrides := .ofList [("", "'''\n"), ("a.b", "c")] } }
    let t : Tree := ⟨[(["src"], .directory)], []⟩
    let p : Path := .ofText "made/types.toml"
    (s.save t p).2 = none ∧ load (s.save t p).1 p = .ok s := by
  intro s t p
  have hsaved : (s.save t p).2 = none := by decide +kernel
  have hvalid : s.validate (s.save t p).1 = .ok () := by decide +kernel
  exact ⟨hsaved, load_save ⟨_, rfl⟩ ⟨_, rfl⟩ (Prod.ext rfl hsaved) hvalid⟩

end ModelTypings.Settings
