import ModelTypings.Proofs.Text.Identifier
import ModelTypings.Proofs.Text.Recased

/-!
# What camel case keeps of a name

Camel case drops the separators of a name and writes each other character in one of its cases.

* `joins_of_lt`: a character of ASCII continues no cluster;
* `letters`: the characters of a name that belong to its words;
* **`recased_camelCase`**: a name in camel case is made of cases of its letters, in order;
* `filter_letters`: only underscores are dropped from a name of word characters;
* `IsFirst`, `isFirst_letters`: the first letter of such a name;
* **`camelCase_eq_empty_iff`**, **`head?_camelCase`**: a name of underscores becomes empty, every
  other one starts with a case of its first letter;
* `AreVariants`, **`areVariants_of_camelCase_eq`**: names that camel case writes alike.
-/

namespace ModelTypings.Text

theorem exists_clustersAfter (before cs : List Char) :
    ∃ g gs, clustersAfter before cs = (before.reverse ++ g) :: gs := by
  induction cs generalizing before with
  | nil => exact ⟨[], [], by rw [clustersAfter, List.append_nil]⟩
  | cons c cs ih =>
    rw [clustersAfter]
    split
    · obtain ⟨g, gs, h⟩ := ih (c :: before)
      exact ⟨c :: g, gs, by rw [h, List.reverse_cons, List.append_assoc, List.singleton_append]⟩
    · exact ⟨[], _, by rw [List.append_nil]⟩

theorem joins_of_lt {b c : Char} (before : List Char) (hb : breakClass b = .other)
    (hc : c.toNat < 0x80) : joins (b :: before) c = false := by
  have hconsonant : isConjunctConsonant c = false := inRanges_of_lt (by decide) hc
  have hpictograph : isPictograph c = false := inRanges_of_lt (by decide) hc
  have hclass : breakClass c = .carriageReturn ∨ breakClass c = .lineFeed ∨
      breakClass c = .control ∨ breakClass c = .other := by
    unfold breakClass
    rw [if_pos hc]
    split
    · exact Or.inl rfl
    split
    · exact Or.inr (Or.inl rfl)
    split
    · exact Or.inr (Or.inr (Or.inl rfl))
    · exact Or.inr (Or.inr (Or.inr rfl))
  rcases hclass with hclass | hclass | hclass | hclass
  · simp only [joins, hb, hclass]
  · simp only [joins, hb, hclass]
  · simp only [joins, hb, hclass]
  · simp only [joins, hb, hclass, hconsonant, hpictograph, Bool.false_and, Bool.or_false]

end ModelTypings.Text

namespace ModelTypings.Naming

open Text

/-! ## The letters of a name -/

/-- The characters of a row of clusters that belong to its words. -/
def letters (gs : List Cluster) : List Char := (gs.filter fun g => !g.isSeparator).flatten

theorem letters_cons_of_isSeparator {g : Cluster} (h : g.isSeparator = true) (gs : List Cluster) :
    letters (g :: gs) = letters gs := by
  rw [letters, List.filter_cons_of_neg (by simpa using h), letters]

theorem letters_cons {g : Cluster} (h : g.isSeparator = false) (gs : List Cluster) :
    letters (g :: gs) = g ++ letters gs := by
  rw [letters, List.filter_cons_of_pos (by simpa using h), List.flatten_cons, letters]

/-- The words of a row of clusters are all of it but the separators. -/
theorem wordsAfter_flatten (opened gs : List Cluster) :
    (wordsAfter opened gs).flatten = opened.reverse ++ gs.filter fun g => !g.isSeparator := by
  induction gs generalizing opened with
  | nil => simp [wordsAfter]
  | cons g gs ih =>
    rw [wordsAfter]
    split
    · next hg => simp [ih, hg]
    next hg =>
    split
    · simp [ih, hg]
    · simp [ih, hg]

theorem words_flatten (gs : List Cluster) :
    (words gs).flatten = gs.filter fun g => !g.isSeparator := wordsAfter_flatten [] gs

theorem recased_capitalize (w : List Cluster) : Recased w.flatten (capitalize w) := by
  cases w with
  | nil => exact .nil
  | cons g gs => exact (recased_upper g).append (recased_lower gs.flatten)

theorem recased_flatMap_capitalize (ws : List (List Cluster)) :
    Recased ws.flatten.flatten (ws.flatMap capitalize) := by
  induction ws with
  | nil => exact .nil
  | cons w ws ih =>
    rw [List.flatten_cons, List.flatten_append]
    exact (recased_capitalize w).append ih

/-- **A name in camel case** is made of cases of its letters. -/
theorem recased_camelCase (name : String) :
    Recased (letters (clusters name.toList)) (camelCase name).toList := by
  rw [letters, ← words_flatten]
  unfold camelCase
  split
  · next h =>
    rw [h]
    exact .nil
  · next w ws h =>
    rw [h, String.toList_ofList, List.flatten_cons, List.flatten_append]
    exact (recased_lower w.flatten).append (recased_flatMap_capitalize ws)

/-! ## Names of word characters -/

theorem isSeparator_of_isWord {g : Cluster} (h : ∀ c ∈ g, isWord c = true)
    (hg : g.isSeparator = true) : g = ['_'] := by
  simp only [Cluster.isSeparator, Bool.or_eq_true, beq_iff_eq] at hg
  rcases hg with (rfl | rfl) | rfl
  · rfl
  · exact absurd rfl (ne_of_isSign (by decide) (h '-' List.mem_cons_self))
  · exact absurd rfl (ne_of_isSign (by decide) (h ' ' List.mem_cons_self))

theorem isSeparator_cons_of_ne {c : Char} {g : Cluster} (h : ∀ d ∈ c :: g, isWord d = true)
    (hc : c ≠ '_') : Cluster.isSeparator (c :: g) = false := by
  by_contra hg
  exact hc (List.cons.inj (isSeparator_of_isWord h (Bool.not_eq_false _ ▸ hg))).1

theorem filter_letters {gs : List Cluster} (h : ∀ c ∈ gs.flatten, isWord c = true) :
    (letters gs).filter (· != '_') = gs.flatten.filter (· != '_') := by
  induction gs with
  | nil => rfl
  | cons g gs ih =>
    obtain ⟨hg, hgs⟩ := List.forall_mem_append.mp h
    rw [List.flatten_cons, List.filter_append, ← ih hgs]
    cases hsep : g.isSeparator with
    | true =>
      rw [letters_cons_of_isSeparator hsep, isSeparator_of_isWord hg hsep]
      rfl
    | false => rw [letters_cons hsep, List.filter_append]

theorem mem_of_mem_letters {gs : List Cluster} {c : Char} (h : c ∈ letters gs) :
    c ∈ gs.flatten := by
  obtain ⟨g, hg, hc⟩ := List.mem_flatten.mp h
  exact List.mem_flatten.mpr ⟨g, (List.mem_filter.mp hg).1, hc⟩

/-! ## The first letter -/

/-- The letters of a name whose first character other than an underscore is `k`: they start with
it, or with the underscore that `k` continues. -/
def IsFirst (k : Option Char) (letters : List Char) : Prop :=
  match k with
  | none => letters = []
  | some k => ∃ d ∈ letters.head?, d = k ∨ d = '_' ∧ 0x80 ≤ k.toNat

theorem isFirst_clustersAfter {c : Char} {cs : List Char} (h : ∀ d ∈ c :: cs, isWord d = true)
    (hc : c ≠ '_') : IsFirst (some c) (letters (clustersAfter [c] cs)) := by
  obtain ⟨g, gs, hgs⟩ : ∃ g gs, clustersAfter [c] cs = (c :: g) :: gs :=
    exists_clustersAfter [c] cs
  have hflatten : (c :: g) ++ gs.flatten = c :: cs :=
    calc (c :: g) ++ gs.flatten = (clustersAfter [c] cs).flatten := (congrArg List.flatten hgs).symm
      _ = c :: cs := clustersAfter_flatten [c] cs
  have hword : ∀ d ∈ c :: g, isWord d = true := fun d hd =>
    h d (hflatten ▸ List.mem_append_left gs.flatten hd)
  rw [hgs, letters_cons (isSeparator_cons_of_ne hword hc)]
  exact ⟨c, rfl, Or.inl rfl⟩

theorem isFirst_clustersAfter_underscore {cs : List Char} (h : ∀ d ∈ cs, isWord d = true) :
    IsFirst (cs.find? (· != '_')) (letters (clustersAfter ['_'] cs)) := by
  induction cs with
  | nil => rfl
  | cons c cs ih =>
    rw [clustersAfter]
    split
    -- a mark joins the underscore, which is then a letter
    · next hjoins =>
      have hlarge : 0x80 ≤ c.toNat := by
        by_contra hlt
        rw [joins_of_lt [] (by decide) (Nat.not_le.mp hlt)] at hjoins
        exact Bool.noConfusion hjoins
      have hc : c ≠ '_' := by
        rintro rfl
        exact absurd hlarge (by decide)
      obtain ⟨g, gs, hgs⟩ : ∃ g gs, clustersAfter [c, '_'] cs = ('_' :: c :: g) :: gs :=
        exists_clustersAfter [c, '_'] cs
      have hkept : Cluster.isSeparator ('_' :: c :: g) = false := by simp [Cluster.isSeparator]
      rw [List.find?_cons_of_pos (by simpa using hc), hgs, letters_cons hkept]
      exact ⟨'_', rfl, Or.inr ⟨rfl, hlarge⟩⟩
    -- the underscore is dropped
    · rw [List.reverse_singleton, letters_cons_of_isSeparator (by decide)]
      by_cases hc : c = '_'
      · subst hc
        rw [List.find?_cons_of_neg (by decide)]
        exact ih (List.forall_mem_cons.mp h).2
      · rw [List.find?_cons_of_pos (by simpa using hc)]
        exact isFirst_clustersAfter h hc

theorem isFirst_letters {name : List Char} (h : ∀ c ∈ name, isWord c = true) :
    IsFirst (name.find? (· != '_')) (letters (clusters name)) := by
  cases name with
  | nil => rfl
  | cons c cs =>
    by_cases hc : c = '_'
    · subst hc
      rw [List.find?_cons_of_neg (by decide)]
      exact isFirst_clustersAfter_underscore (List.forall_mem_cons.mp h).2
    · rw [List.find?_cons_of_pos (by simpa using hc)]
      exact isFirst_clustersAfter h hc

/-! ## Camel case -/

variable {name : String}

/-- **Only underscores have no camel case.** -/
theorem camelCase_eq_empty_iff (h : ∀ c ∈ name.toList, isWord c = true) :
    camelCase name = "" ↔ ∀ c ∈ name.toList, c = '_' := by
  have hletters : letters (clusters name.toList) = [] ↔
      name.toList.find? (· != '_') = none := by
    have hfirst := isFirst_letters h
    cases hk : name.toList.find? (· != '_') with
    | none => simpa [IsFirst, hk] using hfirst
    | some k =>
      rw [hk] at hfirst
      obtain ⟨d, hd, -⟩ := hfirst
      refine ⟨fun hnil => ?_, fun h => nomatch h⟩
      rw [hnil] at hd
      exact nomatch hd
  rw [← String.toList_eq_nil_iff, (recased_camelCase name).eq_nil_iff, hletters,
    List.find?_eq_none]
  simp

/-- **The first character of a name in camel case** is that of a case of the first letter, or an
underscore where that letter continues one. -/
theorem head?_camelCase (h : ∀ c ∈ name.toList, isWord c = true) {k : Char}
    (hk : name.toList.find? (· != '_') = some k) :
    ∃ d ∈ (camelCase name).toList.head?,
      (∃ w ∈ casesOf k, w.head? = some d) ∨ d = '_' ∧ 0x80 ≤ k.toNat := by
  have hfirst := isFirst_letters h
  rw [hk] at hfirst
  obtain ⟨c, hc, hcases⟩ := hfirst
  obtain ⟨l, hl⟩ := List.head?_eq_some_iff.mp hc
  have hcamel := recased_camelCase name
  rw [hl] at hcamel
  obtain ⟨w, hw, d, hd, hcamel⟩ := hcamel.exists_head?
  refine ⟨d, hcamel, ?_⟩
  rcases hcases with rfl | ⟨rfl, hlarge⟩
  · exact Or.inl ⟨w, hw, hd⟩
  · rw [eq_of_mem_casesOf_underscore hw] at hd
    exact Or.inr ⟨(Option.some.inj hd).symm, hlarge⟩

/-- Two names can be written alike by the choice of underscores and of case. -/
def AreVariants (a b : String) : Prop :=
  ∃ t, Recased (a.toList.filter (· != '_')) t ∧ Recased (b.toList.filter (· != '_')) t

theorem recased_withoutUnderscores (h : ∀ c ∈ name.toList, isWord c = true) :
    Recased (name.toList.filter (· != '_')) ((camelCase name).toList.filter (· != '_')) := by
  have hcamel := (recased_camelCase name).withoutUnderscores
  rwa [filter_letters ((clusters_flatten _).symm ▸ h), clusters_flatten] at hcamel

/-- **Names alike in camel case** differ in nothing but underscores and case. -/
theorem areVariants_of_camelCase_eq {a b : String} (ha : ∀ c ∈ a.toList, isWord c = true)
    (hb : ∀ c ∈ b.toList, isWord c = true) (h : camelCase a = camelCase b) : AreVariants a b :=
  ⟨_, recased_withoutUnderscores ha, h ▸ recased_withoutUnderscores hb⟩

end ModelTypings.Naming
