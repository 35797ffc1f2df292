import ModelTypings.Proofs.Naming.Camel
import ModelTypings.Text.Word

/-!
# Texts that differ in case

A text is written again with each character in upper or lower case.

* `casesOf`, `Recased`: the cases of a character, and of a text;
* `recased_upper`, `recased_lower`: the case mappings of a text;
* `isWord_of_mem_casesOf`: the cases of a word character are made of word characters;
* `isAlpha_of_mem_casesOf`: those of an ASCII letter are ASCII letters;
* `Recased.withoutUnderscores`: underscores have no case, and come from nothing else.
-/

namespace ModelTypings.Text

/-- The ways to write a character in upper or lower case. -/
def casesOf (c : Char) : List (List Char) :=
  upperChar c :: lowerChar c :: if c = 'Σ' then [['ς']] else []

/-- The second text is the first with each character in one of its cases. -/
inductive Recased : List Char → List Char → Prop
  | nil : Recased [] []
  | cons {c : Char} {w s t : List Char} (hw : w ∈ casesOf c) (h : Recased s t) :
      Recased (c :: s) (w ++ t)

/-! ## The case mappings -/

theorem Recased.append {s t s' t' : List Char} (h : Recased s t) (h' : Recased s' t') :
    Recased (s ++ s') (t ++ t') := by
  induction h with
  | nil => exact h'
  | cons hw _ ih =>
    rw [List.append_assoc]
    exact Recased.cons hw ih

theorem recased_upper (s : List Char) : Recased s (upper s) := by
  induction s with
  | nil => exact .nil
  | cons c cs ih => exact .cons List.mem_cons_self ih

theorem recased_lowerAfter (before s : List Char) : Recased s (lowerAfter before s) := by
  induction s generalizing before with
  | nil => exact .nil
  | cons c cs ih =>
    rw [lowerAfter]
    split
    · next hc =>
      subst hc
      have hsmall : lowerChar 'Σ' = ['σ'] := by decide +kernel
      refine Recased.cons (w := [_]) ?_ (ih _)
      split
      · simp [casesOf]
      · simp [casesOf, hsmall]
    · exact .cons (List.mem_cons_of_mem _ List.mem_cons_self) (ih _)

theorem recased_lower (s : List Char) : Recased s (lower s) := recased_lowerAfter [] s

/-! ## The cases of one character -/

theorem mem_casesOf {c : Char} {w : List Char} (h : w ∈ casesOf c) :
    w = upperChar c ∨ w = lowerChar c ∨ c = 'Σ' ∧ w = ['ς'] := by
  unfold casesOf at h
  split at h
  · next hc => simpa only [List.mem_cons, List.not_mem_nil, or_false, hc, true_and] using h
  · next hc => simpa only [List.mem_cons, List.not_mem_nil, or_false, hc, false_and] using h

theorem forall_mem_casesOf {c : Char} {P : Char → Prop} (hupper : ∀ d ∈ upperChar c, P d)
    (hlower : ∀ d ∈ lowerChar c, P d) (hsigma : c = 'Σ' → P 'ς') :
    ∀ w ∈ casesOf c, ∀ d ∈ w, P d := by
  intro w hw d hd
  rcases mem_casesOf hw with rfl | rfl | ⟨hc, rfl⟩
  · exact hupper d hd
  · exact hlower d hd
  · obtain rfl := List.mem_singleton.mp hd
    exact hsigma hc

theorem upperChar_ne_nil (c : Char) : upperChar c ≠ [] := by
  unfold upperChar
  split
  · exact List.cons_ne_nil _ _
  split
  · next ns hns =>
    have hall : ∀ e ∈ upperExpansions, e.2 ≠ [] := by decide
    obtain ⟨l₁, l₂, hl, -⟩ := List.lookup_eq_some_iff.mp hns
    exact fun h => hall (c.toNat, ns) (by rw [hl]; simp) (List.map_eq_nil_iff.mp h)
  · exact List.cons_ne_nil _ _

theorem lowerChar_ne_nil (c : Char) : lowerChar c ≠ [] := by
  unfold lowerChar
  split
  · exact List.cons_ne_nil _ _
  split
  · exact List.cons_ne_nil _ _
  · exact List.cons_ne_nil _ _

theorem ne_nil_of_mem_casesOf {c : Char} {w : List Char} (h : w ∈ casesOf c) : w ≠ [] := by
  rcases mem_casesOf h with rfl | rfl | ⟨-, rfl⟩
  · exact upperChar_ne_nil c
  · exact lowerChar_ne_nil c
  · exact List.cons_ne_nil _ _

/-- A mark is a case of nothing else. -/
theorem eq_of_mem_casesOf {c d : Char} {w : List Char} (hd : isMark d = true) (hw : w ∈ casesOf c)
    (h : d ∈ w) : d = c := by
  refine forall_mem_casesOf (P := fun d => isMark d = true → d = c) (fun d h hd => ?_)
    (fun d h hd => ?_) (fun _ hd => ?_) w hw d h hd
  · exact eq_of_mem_upperChar hd h
  · exact eq_of_mem_lowerChar hd h
  · exact absurd hd (by decide)

theorem forall_ascii {P : Char → Prop} (h : ∀ n < 0x80, P (Char.ofNat n)) {c : Char}
    (hc : c.toNat < 0x80) : P c := by
  have hcode := h c.toNat hc
  rwa [Char.ofNat_toNat] at hcode

theorem toNat_of_isUpper {c : Char} (h : c.isUpper = true) : 65 ≤ c.toNat ∧ c.toNat ≤ 90 :=
  of_decide_eq_true h

theorem toNat_of_isLower {c : Char} (h : c.isLower = true) : 97 ≤ c.toNat ∧ c.toNat ≤ 122 := by
  obtain ⟨hfirst, hlast⟩ := Bool.and_eq_true_iff.mp h
  exact ⟨of_decide_eq_true hfirst, of_decide_eq_true hlast⟩

theorem toNat_of_isDigit {c : Char} (h : c.isDigit = true) : 48 ≤ c.toNat ∧ c.toNat ≤ 57 := by
  obtain ⟨hfirst, hlast⟩ := Bool.and_eq_true_iff.mp h
  exact ⟨of_decide_eq_true hfirst, of_decide_eq_true hlast⟩

theorem lt_of_isAlpha {c : Char} (h : c.isAlpha = true) : c.toNat < 0x80 := by
  rcases Bool.or_eq_true_iff.mp h with h | h
  · exact Nat.lt_of_le_of_lt (toNat_of_isUpper h).2 (by decide)
  · exact Nat.lt_of_le_of_lt (toNat_of_isLower h).2 (by decide)

theorem toUpper_toLower_cases {c : Char} (hc : c.toNat < 0x80) :
    (c.toUpper = c ∨ c.toUpper.isAlpha = true) ∧ (c.toLower = c ∨ c.toLower.isAlpha = true) :=
  forall_ascii
    (P := fun c =>
      (c.toUpper = c ∨ c.toUpper.isAlpha = true) ∧ (c.toLower = c ∨ c.toLower.isAlpha = true))
    (by decide +kernel) hc

theorem casesOf_of_lt {c : Char} (hc : c.toNat < 0x80) : casesOf c = [[c.toUpper], [c.toLower]] := by
  have hsigma : c ≠ 'Σ' := by
    rintro rfl
    exact absurd hc (by decide)
  rw [casesOf, upperChar, lowerChar, if_pos hc, if_pos hc, if_neg hsigma]

theorem eq_of_mem_casesOf_underscore {w : List Char} (h : w ∈ casesOf '_') : w = ['_'] := by
  rw [casesOf_of_lt (by decide)] at h
  simpa using h

theorem isAlpha_of_mem_casesOf {c d : Char} {w : List Char} (hc : c.isAlpha = true)
    (hw : w ∈ casesOf c) (h : d ∈ w) : d.isAlpha = true := by
  have hletter : ∀ {e : Char}, e = c ∨ e.isAlpha = true → e.isAlpha = true := by
    rintro e (rfl | he)
    · exact hc
    · exact he
  have hlt := lt_of_isAlpha hc
  obtain ⟨hupper, hlower⟩ := toUpper_toLower_cases hlt
  rw [casesOf_of_lt hlt] at hw
  rcases List.mem_cons.mp hw with rfl | hw
  · obtain rfl := List.mem_singleton.mp h
    exact hletter hupper
  · obtain rfl := List.mem_singleton.mp hw
    obtain rfl := List.mem_singleton.mp h
    exact hletter hlower

/-! ## Word characters -/

/-- The ranges of word characters without some that end below `a`, so that fewer are searched. -/
def wordRangesFrom (a : Nat) : List (Nat × Nat) :=
  wordRanges.drop
    (if a < 0x1000 then 0 else if a < 0x1D00 then 200 else if a < 0x3000 then 265 else 340)

/-- The code points from `a` to `b` lie in one range of word characters. -/
def areWords (a b : Nat) : Bool := (wordRangesFrom a).any fun p => p.1.ble a && b.ble p.2

theorem isWord_ofNat {a b n : Nat} (h : areWords a b = true) (ha : a ≤ n) (hb : n ≤ b) :
    isWord (Char.ofNat n) = true := by
  obtain ⟨p, hfrom, hends⟩ := List.any_eq_true.mp h
  have hp : p ∈ wordRanges := List.mem_of_mem_drop hfrom
  obtain ⟨hfirst, hlast⟩ := Bool.and_eq_true_iff.mp hends
  rw [Nat.ble_eq] at hfirst hlast
  have hall : ∀ p ∈ wordRanges, p.2 < 0xD800 ∨ 0xDFFF < p.1 ∧ p.2 < 0x110000 := by decide +kernel
  have hvalid : n.isValidChar := by
    rcases hall p hp with h | ⟨h, h'⟩
    · exact Or.inl (by omega)
    · exact Or.inr ⟨by omega, by omega⟩
  have hn : (Char.ofNat n).toNat = n := by
    rw [Char.ofNat, dif_pos hvalid]
    rfl
  have hrange : inRanges wordRanges (Char.ofNat n) = true := by
    refine List.any_eq_true.mpr ⟨p, hp, ?_⟩
    rw [hn, decide_eq_true (Nat.le_trans hfirst ha), decide_eq_true (Nat.le_trans hb hlast),
      Bool.true_and]
  rw [isWord, hrange, Bool.or_true]

/-- A run of a case mapping leads into one range of word characters, or each of its code points to
a word character. -/
def CaseRun.IsOfWords (r : CaseRun) : Prop :=
  areWords (r.first + r.offset).toNat (r.last + r.offset).toNat = true ∨
    ∀ k ≤ (r.last - r.first) / r.step,
      isWord (Char.ofNat (((r.first + k * r.step : Nat) : Int) + r.offset).toNat) = true

instance (r : CaseRun) : Decidable r.IsOfWords := inferInstanceAs (Decidable (_ ∨ _))

theorem isWord_mapRuns {runs : List CaseRun} (h : ∀ r ∈ runs, r.IsOfWords) {c : Char}
    (hc : isWord c = true) : isWord (Char.ofNat (mapRuns runs c.toNat)) = true := by
  unfold mapRuns
  split
  · next r hr =>
    have hrange := List.find?_some hr
    simp only [Bool.and_eq_true, decide_eq_true_eq, beq_iff_eq] at hrange
    obtain ⟨⟨hfirst, hlast⟩, hstep⟩ := hrange
    rcases h r (List.mem_of_find?_eq_some hr) with hwords | hwords
    · exact isWord_ofNat hwords (by omega) (by omega)
    · have hk := hwords _ (Nat.div_le_div_right (c := r.step) (Nat.sub_le_sub_right hlast r.first))
      rwa [Nat.div_mul_cancel (Nat.dvd_of_mod_eq_zero hstep), Nat.add_sub_cancel' hfirst] at hk
  · rwa [Char.ofNat_toNat]

theorem isWord_of_eq_or_isAlpha {c d : Char} (hc : isWord c = true)
    (h : d = c ∨ d.isAlpha = true) : isWord d = true := by
  rcases h with rfl | h
  · exact hc
  · rw [isWord, Char.isAlphanum, h, Bool.true_or, Bool.true_or, Bool.true_or]

theorem isWord_of_mem_upperChar {c d : Char} (hc : isWord c = true) (h : d ∈ upperChar c) :
    isWord d = true := by
  unfold upperChar at h
  split at h
  · next hlt =>
    obtain rfl := List.mem_singleton.mp h
    exact isWord_of_eq_or_isAlpha hc (toUpper_toLower_cases hlt).1
  split at h
  · next ns hns =>
    obtain ⟨n, hn, rfl⟩ := List.mem_map.mp h
    have hall : ∀ e ∈ upperExpansions, ∀ n ∈ e.2,
        (Char.ofNat n).isAlpha = true ∨ areWords n n = true := by decide +kernel
    obtain ⟨l₁, l₂, hl, -⟩ := List.lookup_eq_some_iff.mp hns
    rcases hall (c.toNat, ns) (by rw [hl]; simp) n hn with hletter | hwords
    · exact isWord_of_eq_or_isAlpha hc (Or.inr hletter)
    · exact isWord_ofNat hwords n.le_refl n.le_refl
  · obtain rfl := List.mem_singleton.mp h
    exact isWord_mapRuns (by decide +kernel) hc

theorem isWord_of_mem_lowerChar {c d : Char} (hc : isWord c = true) (h : d ∈ lowerChar c) :
    isWord d = true := by
  unfold lowerChar at h
  split at h
  · next hlt =>
    obtain rfl := List.mem_singleton.mp h
    exact isWord_of_eq_or_isAlpha hc (toUpper_toLower_cases hlt).2
  split at h
  · have hall : ['i', '\u0307'].all isWord = true := by decide
    exact List.all_eq_true.mp hall d h
  · obtain rfl := List.mem_singleton.mp h
    exact isWord_mapRuns (by decide +kernel) hc

/-- **The cases of a word character** are made of word characters. -/
theorem isWord_of_mem_casesOf {c d : Char} {w : List Char} (hc : isWord c = true)
    (hw : w ∈ casesOf c) (h : d ∈ w) : isWord d = true :=
  forall_mem_casesOf (fun _ h => isWord_of_mem_upperChar hc h)
    (fun _ h => isWord_of_mem_lowerChar hc h) (fun _ => by decide) w hw d h

/-! ## The cases of a text -/

namespace Recased

variable {s t : List Char}

theorem isWord_of_mem (h : Recased s t) (hs : ∀ c ∈ s, isWord c = true) :
    ∀ d ∈ t, isWord d = true := by
  induction h with
  | nil => exact hs
  | cons hw _ ih =>
    obtain ⟨hc, hs⟩ := List.forall_mem_cons.mp hs
    exact List.forall_mem_append.mpr ⟨fun d => isWord_of_mem_casesOf hc hw, ih hs⟩

theorem eq_nil_iff (h : Recased s t) : t = [] ↔ s = [] := by
  cases h with
  | nil => rfl
  | cons hw _ => simp [ne_nil_of_mem_casesOf hw]

theorem exists_head? {c : Char} (h : Recased (c :: s) t) :
    ∃ w ∈ casesOf c, ∃ d, w.head? = some d ∧ t.head? = some d := by
  cases h with
  | @cons _ w _ t hw _ =>
    obtain ⟨d, w', rfl⟩ := List.exists_cons_of_ne_nil (ne_nil_of_mem_casesOf hw)
    exact ⟨d :: w', hw, d, rfl, rfl⟩

/-- **Underscores have no case**, and are the case of nothing else. -/
theorem withoutUnderscores (h : Recased s t) :
    Recased (s.filter (· != '_')) (t.filter (· != '_')) := by
  induction h with
  | nil => exact .nil
  | @cons c w s t hw _ ih =>
    rw [List.filter_append]
    by_cases hc : c = '_'
    · subst hc
      rw [eq_of_mem_casesOf_underscore hw]
      exact ih
    · have hmark : ∀ d ∈ w, (d != '_') = true := fun d hd => by
        have hne : d ≠ '_' := by
          rintro rfl
          exact hc (eq_of_mem_casesOf (by decide) hw hd).symm
        simpa using hne
      rw [List.filter_eq_self.mpr hmark, List.filter_cons_of_pos (by simpa using hc)]
      exact .cons hw ih

end Recased

end ModelTypings.Text
