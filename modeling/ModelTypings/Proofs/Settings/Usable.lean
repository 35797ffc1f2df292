import ModelTypings.Proofs.Files.Locate
import ModelTypings.Proofs.Text.Name
import ModelTypings.Proofs.TypeScript.TypeTable
import ModelTypings.TypeScript.Interface

/-!
# What usable settings guarantee

* `IsGiven`: a text says something;
* **`validate_eq_ok_iff`**: the settings that can be used with a tree;
* `isGiven_of_knownType?`: the known types say something;
* `resolve_isGiven_iff`, **`fieldText_of_validate`**: the type on the line of a field says
  something, unless an override does not;
* **`not_fieldText_of_validate`**: overrides are not checked.
-/

namespace ModelTypings.Settings

open Files Text

/-- A text that is not all blank. -/
def IsGiven (text : String) : Prop := ∃ c ∈ text.toList, isBlank c = false

theorem isGiven_iff_trim {text : String} : IsGiven text ↔ trim text.toList ≠ [] := by
  rw [ne_eq, trim_eq_nil_iff, IsGiven]
  simp

instance (text : String) : Decidable (IsGiven text) := decidable_of_iff _ isGiven_iff_trim.symm

/-- **Settings can be used with a tree** in which the source directory is one, if they name a base,
say which files hold models, and have a fallback. -/
theorem validate_eq_ok_iff {s : Settings} {t : Tree} : s.validate t = .ok () ↔
    t.isDirectory s.input.sourceDir = true ∧ s.input.modelBases ≠ [] ∧
      (s.input.fileNames ≠ [] ∨ s.input.modelPackages ≠ []) ∧ IsGiven s.types.fallback := by
  rw [isGiven_iff_trim]
  unfold validate
  cases hdir : t.isDirectory s.input.sourceDir with
  | false => cases t.pathExists s.input.sourceDir <;> simp
  | true =>
    rw [Tree.pathExists_of_isDirectory hdir]
    by_cases hbases : s.input.modelBases = []
    · simp [hbases]
    by_cases hnames : s.input.fileNames = [] ∧ s.input.modelPackages = []
    · simp [hbases, hnames]
    by_cases hfallback : trim s.types.fallback.toList = []
    · simp [hbases, hnames, hfallback]
    · simp [hbases, hnames, hfallback, ← not_and_or]

end ModelTypings.Settings

namespace ModelTypings.TypeScript

open Files Settings Source

/-! ## The types of fields -/

theorem isGiven_of_knownType? {x type : String} (h : knownType? x = some type) : IsGiven type := by
  have hall : ∀ g ∈ groups, IsGiven g.type := by decide +kernel
  obtain ⟨g, hg, rfl⟩ := Option.map_eq_some_iff.mp h
  exact hall g (List.mem_of_find?_eq_some hg)

/-- A type says something if the fallback and the override of its constructor do. -/
theorem resolve_isGiven_iff {s : Types} (hfallback : IsGiven s.fallback) (x : String) :
    IsGiven ((TypeTable.ofSettings s).resolve x) ↔
      ∀ type, s.overrides.get? x = some type → IsGiven type := by
  rw [TypeTable.resolve_ofSettings]
  cases s.overrides.get? x with
  | some type => simp
  | none =>
    have hgiven : IsGiven ((knownType? x).getD s.fallback) := by
      cases hknown : knownType? x with
      | some type => exact isGiven_of_knownType? hknown
      | none => exact hfallback
    simpa using hgiven

/-- **The type on the line of a field.** With usable settings it says something, unless the
constructor of the field has an override that does not. -/
theorem fieldText_of_validate {s : Settings} {t : Tree} (hv : s.validate t = .ok ()) (f : Field) :
    (Style.ofSettings s).fieldText f =
        "  " ++ (Style.ofSettings s).fieldName f.name ++ (if f.optional then "?" else "") ++ ": " ++
          (TypeTable.ofSettings s.types).resolve f.fieldType ++ ";\n" ∧
      (IsGiven ((TypeTable.ofSettings s.types).resolve f.fieldType) ↔
        ∀ type, s.types.overrides.get? f.fieldType = some type → IsGiven type) := by
  obtain ⟨-, -, -, hfallback⟩ := validate_eq_ok_iff.mp hv
  exact ⟨rfl, resolve_isGiven_iff hfallback f.fieldType⟩

/-- A blank override of one constructor, and a field with another. -/
theorem fieldText_of_validate_beside_blank :
    let s : Settings := {
      input := { sourceDir := .ofText "src" }
      output := { destDir := .ofText "out" }
      types := { fallback := " unknown", overrides := Overrides.empty.insert "CharField" "\t" } }
    let t : Tree := ⟨[(["src"], .directory)], []⟩
    let f : Field := ⟨"price", "MoneyField", true, 2⟩
    s.validate t = .ok () ∧
      (Style.ofSettings s).fieldText f =
          "  " ++ (Style.ofSettings s).fieldName f.name ++ (if f.optional then "?" else "") ++ ": " ++
            (TypeTable.ofSettings s.types).resolve f.fieldType ++ ";\n" ∧
        (IsGiven ((TypeTable.ofSettings s.types).resolve f.fieldType) ↔
          ∀ type, s.types.overrides.get? f.fieldType = some type → IsGiven type) := by
  intro s t f
  have hv : s.validate t = .ok () := by decide +kernel
  exact ⟨hv, fieldText_of_validate hv f⟩

/-- **A blank override is used**: the field is left without a type. -/
theorem not_fieldText_of_validate : ∃ (s : Settings) (t : Tree) (content : String) (m : Models),
    t.Sound ∧ s.validate t = .ok () ∧
      (readModels (.ofText "src/models.py") s.input.modelBases content).1 = .ok m ∧
      ∃ x ∈ m.models, ∃ f ∈ x.fields,
        ¬IsGiven ((TypeTable.ofSettings s.types).resolve f.fieldType) ∧
        (Style.ofSettings s).fieldText f = "  x?: ;\n" := by
  let s : Settings := {
    input := { sourceDir := .ofText "src" }
    output := { destDir := .ofText "out" }
    types := { overrides := Overrides.empty.insert "CharField" "" } }
  let t : Tree := ⟨[(["src"], .directory)], []⟩
  let f : Field := ⟨"x", "CharField", true, 2⟩
  let x : Model := ⟨"A", [f], .ofText "src/models.py", 1⟩
  have hread : (readModels (.ofText "src/models.py") s.input.modelBases
      "class A(models.Model):\n    x = models.CharField()\n").1 = .ok ⟨[x], 0⟩ := by decide +kernel
  exact ⟨s, t, _, ⟨[x], 0⟩, by decide +kernel, by decide +kernel, hread, x,
    List.mem_singleton_self x, f, List.mem_singleton_self f, by decide +kernel, by decide +kernel⟩

end ModelTypings.TypeScript
