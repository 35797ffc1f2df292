import Mathlib.Data.List.Basic
import ModelTypings.Naming.Camel

/-!
# The characters of a name in camel case

Camel case drops separators and maps the case of what is left.

* `clusters_flatten`, `mem_words`: the words of a name are made of its characters;
* `mem_lower`: the lower case of a text, character by character;
* **`mem_camelCase`**: every character of a name in camel case is a case of one of the name;
* `isMark`, `eq_of_mem_upperChar`, `eq_of_mem_lowerChar`: no case mapping makes a mark of ASCII;
* **`mem_of_mem_camelCase`**: a mark in the camel case of a name stands in the name.
-/

namespace ModelTypings.Text

/-! ## Clusters -/

theorem clustersAfter_flatten (before cs : List Char) :
    (clustersAfter before cs).flatten = before.reverse ++ cs := by
  induction cs generalizing before with
  | nil => simp [clustersAfter]
  | cons c cs ih =>
    rw [clustersAfter]
    split
    · simp [ih]
    · simp [ih]

theorem clusters_flatten (s : List Char) : (clusters s).flatten = s := by
  cases s with
  | nil => rfl
  | cons c cs => exact clustersAfter_flatten [c] cs

/-! ## Case -/

theorem mem_lowerAfter {d : Char} (before cs : List Char) (h : d ∈ lowerAfter before cs) :
    (∃ c ∈ cs, d ∈ lowerChar c) ∨ d = 'ς' ∨ d = 'σ' := by
  induction cs generalizing before with
  | nil => exact nomatch h
  | cons c cs ih =>
    rw [lowerAfter] at h
    have hbelow : d ∈ lowerAfter (c :: before) cs →
        (∃ c' ∈ c :: cs, d ∈ lowerChar c') ∨ d = 'ς' ∨ d = 'σ' := fun h =>
      (ih _ h).imp_left fun ⟨c', hc', hd⟩ => ⟨c', List.mem_cons_of_mem _ hc', hd⟩
    split at h
    · rcases List.mem_cons.mp h with hd | h
      · right
        split at hd
        · exact Or.inl hd
        · exact Or.inr hd
      · exact hbelow h
    · rcases List.mem_append.mp h with hd | h
      · exact Or.inl ⟨c, List.mem_cons_self, hd⟩
      · exact hbelow h

/-- The lower case of a text is that of its characters, but for the sigmas. -/
theorem mem_lower {d : Char} {cs : List Char} (h : d ∈ lower cs) :
    (∃ c ∈ cs, d ∈ lowerChar c) ∨ d = 'ς' ∨ d = 'σ' := mem_lowerAfter [] cs h

/-! ## Marks -/

/-- A character of ASCII that is neither a letter nor null. -/
def isMark (c : Char) : Bool := decide (0 < c.toNat) && decide (c.toNat < 0x80) && !c.isAlpha

theorem isMark_ofNat {n : Nat} (hn : 0x80 ≤ n) : isMark (Char.ofNat n) = false := by
  by_cases hv : n.isValidChar
  · have hc : (Char.ofNat n).toNat = n := by
      rw [Char.ofNat, dif_pos hv]
      rfl
    have hlt : ¬ n < 0x80 := by omega
    simp [isMark, hc, hlt]
  · have hc : (Char.ofNat n).toNat = 0 := by
      rw [Char.ofNat, dif_neg hv]
      rfl
    simp [isMark, hc]

/-- A run of a case mapping leads beyond ASCII, or one character to a letter. -/
def CaseRun.IsSafe (r : CaseRun) : Prop :=
  0x80 ≤ (r.first : Int) + r.offset ∨
    r.first = r.last ∧ isMark (Char.ofNat ((r.first : Int) + r.offset).toNat) = false

instance (r : CaseRun) : Decidable r.IsSafe := inferInstanceAs (Decidable (_ ∨ _))

theorem isMark_mapRuns {runs : List CaseRun} (h : ∀ r ∈ runs, r.IsSafe) {n : Nat} (hn : 0x80 ≤ n) :
    isMark (Char.ofNat (mapRuns runs n)) = false := by
  unfold mapRuns
  split
  · next r hr =>
    have hrange := List.find?_some hr
    simp only [Bool.and_eq_true, decide_eq_true_eq] at hrange
    rcases h r (List.mem_of_find?_eq_some hr) with hbeyond | ⟨hone, hletter⟩
    · exact isMark_ofNat (by omega)
    · obtain rfl : n = r.first := by omega
      exact hletter
  · exact isMark_ofNat hn

theorem toUpper_toLower_of_isMark {c : Char} (hc : c.toNat < 0x80) :
    (isMark c.toUpper = true → c.toUpper = c) ∧ (isMark c.toLower = true → c.toLower = c) := by
  have hall : ∀ n < 0x80,
      (isMark (Char.ofNat n).toUpper = true → (Char.ofNat n).toUpper = Char.ofNat n) ∧
        (isMark (Char.ofNat n).toLower = true → (Char.ofNat n).toLower = Char.ofNat n) := by
    decide +kernel
  have h := hall c.toNat hc
  rwa [Char.ofNat_toNat] at h

/-- **A mark has no other upper case than itself**, and is that of nothing else. -/
theorem eq_of_mem_upperChar {c d : Char} (hd : isMark d = true) (h : d ∈ upperChar c) : d = c := by
  unfold upperChar at h
  split at h
  · next hc =>
    obtain rfl := List.mem_singleton.mp h
    exact (toUpper_toLower_of_isMark hc).1 hd
  next hc =>
  split at h
  · next ns hns =>
    obtain ⟨n, hn, rfl⟩ := List.mem_map.mp h
    have hall : ∀ e ∈ upperExpansions, ∀ n ∈ e.2, isMark (Char.ofNat n) = false := by
      decide +kernel
    obtain ⟨l₁, l₂, hl, -⟩ := List.lookup_eq_some_iff.mp hns
    rw [hall (c.toNat, ns) (by rw [hl]; simp) n hn] at hd
    exact Bool.noConfusion hd
  · obtain rfl := List.mem_singleton.mp h
    rw [isMark_mapRuns (by decide +kernel) (by omega)] at hd
    exact Bool.noConfusion hd

/-- **A mark has no other lower case than itself**, and is that of nothing else. -/
theorem eq_of_mem_lowerChar {c d : Char} (hd : isMark d = true) (h : d ∈ lowerChar c) : d = c := by
  unfold lowerChar at h
  split at h
  · next hc =>
    obtain rfl := List.mem_singleton.mp h
    exact (toUpper_toLower_of_isMark hc).2 hd
  next hc =>
  split at h
  · have hall : ∀ d ∈ ['i', '\u0307'], isMark d = false := by simp [isMark]
    rw [hall d h] at hd
    exact Bool.noConfusion hd
  · obtain rfl := List.mem_singleton.mp h
    rw [isMark_mapRuns (by decide +kernel) (by omega)] at hd
    exact Bool.noConfusion hd

end ModelTypings.Text

namespace ModelTypings.Naming

open Text

/-! ## Words -/

theorem mem_wordsAfter {w : List Cluster} {g : Cluster} (opened gs : List Cluster)
    (hw : w ∈ wordsAfter opened gs) (hg : g ∈ w) : g ∈ opened ∨ g ∈ gs := by
  induction gs generalizing opened with
  | nil =>
    obtain rfl := List.mem_singleton.mp hw
    exact Or.inl (List.mem_reverse.mp hg)
  | cons k gs ih =>
    rw [wordsAfter] at hw
    split at hw
    · rcases List.mem_cons.mp hw with rfl | hw
      · exact Or.inl (List.mem_reverse.mp hg)
      · exact Or.inr (List.mem_cons_of_mem _ ((ih [] hw).resolve_left (List.not_mem_nil)))
    split at hw
    · rcases List.mem_cons.mp hw with rfl | hw
      · rcases List.mem_cons.mp (List.mem_reverse.mp hg) with rfl | hg
        · exact Or.inr List.mem_cons_self
        · exact Or.inl hg
      · exact Or.inr (List.mem_cons_of_mem _ ((ih [] hw).resolve_left (List.not_mem_nil)))
    · rcases ih (k :: opened) hw with hg | hg
      · rcases List.mem_cons.mp hg with rfl | hg
        · exact Or.inr List.mem_cons_self
        · exact Or.inl hg
      · exact Or.inr (List.mem_cons_of_mem _ hg)

theorem mem_words {gs w : List Cluster} (hw : w ∈ words gs) {c : Char} (hc : c ∈ w.flatten) :
    c ∈ gs.flatten := by
  obtain ⟨g, hg, hc⟩ := List.mem_flatten.mp hc
  have hgs := (mem_wordsAfter [] gs hw hg).resolve_left List.not_mem_nil
  exact List.mem_flatten.mpr ⟨g, hgs, hc⟩

/-- **Every character of a name in camel case** is a case of a character of the name. -/
theorem mem_camelCase {name : String} {d : Char} (h : d ∈ (camelCase name).toList) :
    (∃ c ∈ name.toList, d ∈ upperChar c ∨ d ∈ lowerChar c) ∨ d = 'ς' ∨ d = 'σ' := by
  have hlower : ∀ {cs : List Char}, (∀ c ∈ cs, c ∈ name.toList) → d ∈ lower cs →
      (∃ c ∈ name.toList, d ∈ upperChar c ∨ d ∈ lowerChar c) ∨ d = 'ς' ∨ d = 'σ' :=
    fun hcs hd => (mem_lower hd).imp_left fun ⟨c, hc, hd⟩ => ⟨c, hcs c hc, Or.inr hd⟩
  have hname : ∀ w ∈ words (clusters name.toList), ∀ c ∈ w.flatten, c ∈ name.toList := by
    intro w hw c hc
    rw [← clusters_flatten name.toList]
    exact mem_words hw hc
  unfold camelCase at h
  split at h
  · exact nomatch h
  next w ws hws =>
  rw [hws] at hname
  rw [String.toList_ofList, List.mem_append] at h
  rcases h with h | h
  · exact hlower (hname w List.mem_cons_self) h
  obtain ⟨v, hv, h⟩ := List.mem_flatMap.mp h
  have hchars := hname v (List.mem_cons_of_mem _ hv)
  cases v with
  | nil => exact nomatch h
  | cons g gs =>
    rw [List.flatten_cons] at hchars
    rcases List.mem_append.mp h with h | h
    · obtain ⟨c, hc, hd⟩ := List.mem_flatMap.mp h
      exact Or.inl ⟨c, hchars c (List.mem_append_left _ hc), Or.inl hd⟩
    · exact hlower (fun c hc => hchars c (List.mem_append_right _ hc)) h

/-- **A mark in the camel case of a name** stands in the name. -/
theorem mem_of_mem_camelCase {name : String} {d : Char} (hd : isMark d = true)
    (h : d ∈ (camelCase name).toList) : d ∈ name.toList := by
  rcases mem_camelCase h with ⟨c, hc, hcase⟩ | rfl | rfl
  · rcases hcase with hcase | hcase
    · exact eq_of_mem_upperChar hd hcase ▸ hc
    · exact eq_of_mem_lowerChar hd hcase ▸ hc
  · exact absurd hd (by decide)
  · exact absurd hd (by decide)

end ModelTypings.Naming
