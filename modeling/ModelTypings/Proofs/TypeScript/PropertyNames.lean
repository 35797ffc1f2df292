import ModelTypings.Proofs.Naming.Snake
import ModelTypings.Proofs.Source.FieldLine
import ModelTypings.TypeScript.Interface

/-!
# The names of properties

A property bears the name of its field, or that name in camel case, which can be empty, start with a
digit, and be that of another field.

* `IsCamelOf`, `isCamelOf_camelCase`: what is known of an identifier in camel case;
* `Style.Names`: what a property can be named;
* `Style.TellsApart`: the names of two fields lead to different properties;
* **`readModels_propertyNames`**: the properties of a file bear such names, and names told apart
  stay so;
* **`not_readModels_propertyNames`**: in camel case a property can be without a proper name, or
  share it.
-/

namespace ModelTypings.TypeScript

open Settings Source Text Files

/-! ## One name -/

/-- The property name of an identifier in camel case. -/
structure IsCamelOf (name property : String) : Prop where
  isWord : ∀ c ∈ property.toList, isWord c = true
  /-- Only underscores leave nothing. -/
  eq_empty_iff : property = "" ↔ ∀ c ∈ name.toList, c = '_'
  /-- The first character is a case of the first one in the name that is no underscore, or the
  underscore which that continues. -/
  head : ∀ k ∈ name.toList.find? (· != '_'), ∃ d ∈ property.toList.head?,
    (∃ w ∈ casesOf k, w.head? = some d) ∨ d = '_' ∧ 0x80 ≤ k.toNat
  /-- Behind underscores a letter makes an identifier. -/
  isIdentifier : ∀ k ∈ name.toList.find? (· != '_'), k.isAlpha = true →
    isIdentifier property.toList = true

theorem isCamelOf_camelCase {name : String} (h : isIdentifier name.toList = true) :
    IsCamelOf name (Naming.camelCase name) := by
  have hname := isWord_of_isIdentifier h
  have hword : ∀ c ∈ (Naming.camelCase name).toList, isWord c = true := by
    refine (Naming.recased_camelCase name).isWord_of_mem fun c hc => hname c ?_
    rw [← clusters_flatten name.toList]
    exact Naming.mem_of_mem_letters hc
  refine ⟨hword, Naming.camelCase_eq_empty_iff hname, fun k hk => Naming.head?_camelCase hname hk,
    fun k hk hletter => ?_⟩
  obtain ⟨d, hd, hcase⟩ := Naming.head?_camelCase hname hk
  obtain ⟨cs, hcs⟩ := List.head?_eq_some_iff.mp hd
  have hstart : isNameStart d = true := by
    rcases hcase with ⟨w, hw, hhead⟩ | ⟨rfl, -⟩
    · rw [isNameStart, isAlpha_of_mem_casesOf hletter hw (List.mem_of_mem_head? hhead),
        Bool.true_or]
    · rfl
  rw [hcs] at hword ⊢
  rw [isIdentifier, hstart, List.all_eq_true.mpr (List.forall_mem_cons.mp hword).2]
  rfl

namespace Style

/-- What the property of a field can be named. -/
def Names (s : Style) (name property : String) : Prop :=
  match s.naming.fieldCase with
  | .preserve => property = name ∧ isIdentifier property.toList = true
  | .camel => IsCamelOf name property

/-- Two names lead to different properties: in camel case, if they differ in more than underscores
and case, or are both in snake case. -/
def TellsApart (s : Style) (a b : String) : Prop :=
  match s.naming.fieldCase with
  | .preserve => True
  | .camel => ¬ Naming.AreVariants a b ∨ Naming.IsSnake a ∧ Naming.IsSnake b

variable (s : Style)

theorem names_fieldName {name : String} (h : isIdentifier name.toList = true) :
    s.Names name (s.fieldName name) := by
  unfold Names fieldName
  cases s.naming.fieldCase with
  | preserve => exact ⟨rfl, h⟩
  | camel => exact isCamelOf_camelCase h

theorem fieldName_ne {a b : String} (ha : isIdentifier a.toList = true)
    (hb : isIdentifier b.toList = true) (hne : a ≠ b) (h : s.TellsApart a b) :
    s.fieldName a ≠ s.fieldName b := by
  unfold TellsApart at h
  unfold fieldName
  cases hcase : s.naming.fieldCase with
  | preserve => exact hne
  | camel =>
    rw [hcase] at h
    intro heq
    rcases h with h | ⟨hsa, hsb⟩
    · exact h (Naming.areVariants_of_camelCase_eq (isWord_of_isIdentifier ha)
        (isWord_of_isIdentifier hb) heq)
    · exact hne (hsa.camelCase_inj hsb heq)

end Style

/-! ## The properties of a file -/

/-- **The properties of a file**: what each is named, and which of them are named apart. -/
theorem readModels_propertyNames (file : Path) (markers : List String) {content : String}
    {m : Models} (h : (readModels file markers content).1 = .ok m) (s : Style) :
    ∀ x ∈ m.models, (∀ f ∈ x.fields, s.Names f.name (s.fieldName f.name)) ∧
      ∀ f ∈ x.fields, ∀ g ∈ x.fields, f.name ≠ g.name → s.TellsApart f.name g.name →
        s.fieldName f.name ≠ s.fieldName g.name := by
  intro x hx
  have hname : ∀ f ∈ x.fields, isIdentifier f.name.toList = true := fun f hf =>
    (isRead_of_readModels h x hx f hf).isIdentifier.1
  exact ⟨fun f hf => s.names_fieldName (hname f hf),
    fun f hf g hg hne => s.fieldName_ne (hname f hf) (hname g hg) hne⟩

/-- Two names in snake case, and one that differs from them in more than case. -/
theorem readModels_propertyNames_told :
    let content := "class A(Model):\n  line_1st = F()\n  is_on2 = F()\n  is_on = F()\n"
    let m : Models := ⟨[⟨"A", [⟨"line_1st", "F", true, 2⟩, ⟨"is_on2", "F", true, 3⟩,
      ⟨"is_on", "F", true, 4⟩], ⟨["m.py"]⟩, 1⟩], 0⟩
    let s : Style := ⟨⟨"", "", .camel⟩, ⟨[], "any"⟩, false⟩
    (readModels ⟨["m.py"]⟩ ["Model"] content).1 = .ok m ∧
      s.TellsApart "is_on2" "is_on" ∧ s.TellsApart "line_1st" "is_on" ∧
      ∀ x ∈ m.models, (∀ f ∈ x.fields, s.Names f.name (s.fieldName f.name)) ∧
        ∀ f ∈ x.fields, ∀ g ∈ x.fields, f.name ≠ g.name → s.TellsApart f.name g.name →
          s.fieldName f.name ≠ s.fieldName g.name := by
  intro content m s
  have hread : (readModels ⟨["m.py"]⟩ ["Model"] content).1 = .ok m := by decide +kernel
  have hvariants : ¬ Naming.AreVariants "line_1st" "is_on" := by
    rintro ⟨t, hl, hi⟩
    obtain ⟨v, hv, d, hd, ht⟩ := hl.exists_head?
    obtain ⟨w, hw, e, he, ht'⟩ := hi.exists_head?
    obtain rfl := Option.some.inj (ht.symm.trans ht')
    have hall : ∀ v ∈ casesOf 'l', ∀ w ∈ casesOf 'i', v.head? ≠ w.head? := by decide +kernel
    exact hall v hv w hw (hd.trans he.symm)
  have hsmall : ∀ {s : List Char}, s.all Char.isLower = true → ∀ c ∈ s, c.isLower = true :=
    List.all_eq_true.mp
  let is : Naming.SnakeWord := ⟨'i', ['s'], [], hsmall rfl, fun c hc => nomatch hc⟩
  let on : Naming.SnakeWord := ⟨'o', ['n'], [], hsmall rfl, fun c hc => nomatch hc⟩
  let on2 : Naming.SnakeWord := ⟨'o', ['n'], ['2'], hsmall rfl, List.all_eq_true.mp rfl⟩
  have hsnake : Naming.IsSnake "is_on2" ∧ Naming.IsSnake "is_on" :=
    ⟨⟨is, [on2], rfl⟩, ⟨is, [on], rfl⟩⟩
  exact ⟨hread, Or.inr hsnake, Or.inl hvariants,
    readModels_propertyNames ⟨["m.py"]⟩ ["Model"] hread s⟩

/-- **Camel case can leave a property without a proper name**, or give two fields one. -/
theorem not_readModels_propertyNames : ∃ (content : String) (m : Models) (s : Style),
    (readModels ⟨["m.py"]⟩ ["Model"] content).1 = .ok m ∧ ∃ x ∈ m.models,
      (∃ f ∈ x.fields, s.fieldName f.name = "") ∧
      (∃ f ∈ x.fields, ∃ c ∈ (s.fieldName f.name).toList.head?, c.isDigit = true) ∧
      ∃ f ∈ x.fields, ∃ g ∈ x.fields, f.name ≠ g.name ∧ s.fieldName f.name = s.fieldName g.name := by
  let x : Model := ⟨"A", [⟨"_", "F", true, 2⟩, ⟨"_1", "F", true, 3⟩, ⟨"a_b", "F", true, 4⟩,
    ⟨"aB", "F", true, 5⟩], ⟨["m.py"]⟩, 1⟩
  let s : Style := ⟨⟨"", "", .camel⟩, ⟨[], "any"⟩, false⟩
  have hread : (readModels ⟨["m.py"]⟩ ["Model"]
      "class A(Model):\n  _ = F()\n  _1 = F()\n  a_b = F()\n  aB = F()\n").1 = .ok ⟨[x], 0⟩ := by
    decide +kernel
  have hnames : x.fields.map (fun f => s.fieldName f.name) = ["", "1", "aB", "aB"] := by
    decide +kernel
  simp only [x, List.map_cons, List.map_nil, List.cons.injEq, and_true] at hnames
  obtain ⟨hnone, hdigit, hfirst, hsecond⟩ := hnames
  refine ⟨_, ⟨[x], 0⟩, s, hread, x, List.mem_singleton_self x, ⟨⟨"_", "F", true, 2⟩, ?_, hnone⟩,
    ⟨⟨"_1", "F", true, 3⟩, ?_, '1', ?_, rfl⟩,
    ⟨"a_b", "F", true, 4⟩, ?_, ⟨"aB", "F", true, 5⟩, ?_, by decide, hfirst.trans hsecond.symm⟩
  all_goals simp [x, hdigit]

end ModelTypings.TypeScript
