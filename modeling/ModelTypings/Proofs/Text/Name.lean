import Mathlib.Data.List.DropRight
import Mathlib.Data.List.TakeWhile
import ModelTypings.Text.Blank
import ModelTypings.Text.Word

/-!
# Blanks and names in longer texts

What trimming a text and taking the name at its start make of a text that goes on.

* `isWord_of_isBlank`: no blank stands in a name;
* `trimStart_append`, `trimEnd_append`, `exists_trimEnd`: the blanks of two texts in a row;
* `trim_eq_nil_iff`, `trim_append_blanks`: a text of blanks, and blanks at the end;
* **`takeName_append`**: a name ends where its text does, unless a word character follows.
-/

namespace ModelTypings.Text

/-! ## Blanks and word characters -/

theorem inRanges_disjoint {rs ss : List (Nat × Nat)}
    (h : ∀ r ∈ rs, ∀ s ∈ ss, r.2 < s.1 ∨ s.2 < r.1) {c : Char} (hc : inRanges rs c = true) :
    inRanges ss c = false := by
  obtain ⟨r, hr, hrc⟩ := List.any_eq_true.mp hc
  refine List.any_eq_false.mpr fun s hs hsc => ?_
  simp only [Bool.and_eq_true, decide_eq_true_eq] at hrc hsc
  rcases h r hr s hs with hlt | hlt <;> omega

/-- The code points of ASCII letters and digits and of the underscore. -/
def asciiWordRanges : List (Nat × Nat) := [(0x30, 0x39), (0x41, 0x5A), (0x5F, 0x5F), (0x61, 0x7A)]

theorem inRanges_asciiWordRanges {c : Char} (h : (c.isAlphanum || c == '_') = true) :
    inRanges asciiWordRanges c = true := by
  have hc : c.isAlphanum = ((decide (c.val ≥ 'A'.val ∧ c.val ≤ 'Z'.val) ||
      (decide (c.val ≥ 'a'.val) && decide (c.val ≤ 'z'.val))) ||
        (decide (c.val ≥ '0'.val) && decide (c.val ≤ '9'.val))) := rfl
  simp only [hc, Bool.or_eq_true, Bool.and_eq_true, decide_eq_true_eq, beq_iff_eq, ge_iff_le,
    UInt32.le_iff_toNat_le] at h
  simp only [inRanges, asciiWordRanges, List.any_cons, List.any_nil, Bool.or_eq_true,
    Bool.and_eq_true, decide_eq_true_eq, Char.toNat]
  rcases h with ((h | h) | h) | rfl
  · exact Or.inr (Or.inl h)
  · exact Or.inr (Or.inr (Or.inr (Or.inl h)))
  · exact Or.inl h
  · exact Or.inr (Or.inr (Or.inl ⟨by decide, by decide⟩))

/-- **No blank stands in a name.** -/
theorem isWord_of_isBlank {c : Char} (h : isBlank c = true) : isWord c = false := by
  have hascii : (c.isAlphanum || c == '_') = false := by
    by_contra hc
    have hd : inRanges asciiWordRanges c = false := inRanges_disjoint (by decide) h
    rw [inRanges_asciiWordRanges (Bool.not_eq_false _ ▸ hc)] at hd
    exact Bool.noConfusion hd
  rw [isWord, hascii, Bool.false_or]
  exact inRanges_disjoint (by decide +kernel) h

theorem ne_of_isBlank {c d : Char} (hd : isBlank d = false) (hc : isBlank c = true) : c ≠ d := by
  rintro rfl
  rw [hd] at hc
  exact Bool.noConfusion hc

/-! ## Trimming -/

theorem trimStart_append {a : List Char} (h : trimStart a ≠ []) (b : List Char) :
    trimStart (a ++ b) = trimStart a ++ b := by
  have hd : a.dropWhile isBlank ≠ [] := h
  rw [trimStart, List.dropWhile_append, if_neg (by simpa using hd)]
  rfl

theorem trimEnd_append {b : List Char} (h : trimEnd b ≠ []) (a : List Char) :
    trimEnd (a ++ b) = a ++ trimEnd b := by
  have hr : (b.reverse.dropWhile isBlank) ≠ [] := fun e => h (by simp [trimEnd, e])
  rw [trimEnd, List.reverse_append, List.dropWhile_append, if_neg (by simpa using hr)]
  simp [trimEnd]

theorem exists_trimEnd (s : List Char) : ∃ w, s = trimEnd s ++ w ∧ ∀ c ∈ w, isBlank c = true := by
  refine ⟨(s.reverse.takeWhile isBlank).reverse, ?_, fun c hc => ?_⟩
  · rw [trimEnd, ← List.reverse_append, List.takeWhile_append_dropWhile, List.reverse_reverse]
  · exact List.mem_takeWhile_imp (List.mem_reverse.mp hc)

theorem trimEnd_eq_nil_iff {s : List Char} : trimEnd s = [] ↔ ∀ c ∈ s, isBlank c = true := by
  rw [trimEnd, List.reverse_eq_nil_iff, List.dropWhile_eq_nil_iff]
  exact forall_congr' fun c => by rw [List.mem_reverse]

theorem trimStart_eq_nil_iff {s : List Char} : trimStart s = [] ↔ ∀ c ∈ s, isBlank c = true :=
  List.dropWhile_eq_nil_iff

theorem trimEnd_append_of_nil {b : List Char} (h : trimEnd b = []) (a : List Char) :
    trimEnd (a ++ b) = trimEnd a := by
  have hr : (b.reverse.dropWhile isBlank) = [] := by simpa [trimEnd] using h
  rw [trimEnd, List.reverse_append, List.dropWhile_append, if_pos (by simp [hr])]
  rfl

theorem trimStart_trimEnd_ne_nil {s : List Char} (h : trimEnd s ≠ []) : trimStart (trimEnd s) ≠ [] := by
  intro hs
  obtain ⟨w, hw, hblank⟩ := exists_trimEnd s
  refine h (trimEnd_eq_nil_iff.mpr fun c hc => ?_)
  rw [hw] at hc
  rcases List.mem_append.mp hc with hc | hc
  · exact trimStart_eq_nil_iff.mp hs c hc
  · exact hblank c hc

theorem trimStart_append_cons {c : Char} (hc : isBlank c = false) (s t : List Char) :
    trimStart (s ++ c :: t) = trimStart s ++ c :: t := by
  by_cases hs : trimStart s = []
  · have hstart : trimStart (c :: t) = c :: t := List.dropWhile_cons_of_neg (by simp [hc])
    rw [hs, List.nil_append, trimStart,
      List.dropWhile_append_of_pos (trimStart_eq_nil_iff.mp hs)]
    exact hstart
  · exact trimStart_append hs (c :: t)

theorem trimEnd_append_cons {c : Char} (hc : isBlank c = false) (s t : List Char) :
    trimEnd (s ++ c :: t) = s ++ c :: trimEnd t := by
  have hend : trimEnd (c :: t) = c :: trimEnd t := by
    by_cases ht : trimEnd t = []
    · have hone : trimEnd [c] = [c] := by simp [trimEnd, hc]
      rw [← List.singleton_append, trimEnd_append_of_nil ht, ht, hone]
    · exact trimEnd_append ht [c]
  rw [trimEnd_append (by rw [hend]; exact List.cons_ne_nil _ _), hend]

theorem trim_eq_nil_iff {s : List Char} : trim s = [] ↔ ∀ c ∈ s, isBlank c = true := by
  constructor
  · intro h
    have hblank : ∀ c ∈ trimStart s, isBlank c = true := trimEnd_eq_nil_iff.mp h
    refine trimStart_eq_nil_iff.mp (List.eq_nil_iff_forall_not_mem.mpr fun c hc => ?_)
    obtain ⟨d, ds, hd⟩ := List.exists_cons_of_ne_nil (List.ne_nil_of_mem hc)
    have hhead := List.head?_dropWhile_not isBlank s
    rw [← trimStart, hd] at hhead
    exact Bool.false_ne_true (hhead.symm.trans (hblank d (hd ▸ List.mem_cons_self)))
  · intro h
    rw [trim, trimStart_eq_nil_iff.mpr h]
    rfl

/-- **Blanks at the end** are trimmed away. -/
theorem trim_append_blanks {w : List Char} (hw : ∀ c ∈ w, isBlank c = true) (s : List Char) :
    trim (s ++ w) = trim s := by
  have hblank : trimEnd w = [] := trimEnd_eq_nil_iff.mpr hw
  by_cases hs : trimStart s = []
  · have hall : trimStart (s ++ w) = [] := trimStart_eq_nil_iff.mpr
      (List.forall_mem_append.mpr ⟨trimStart_eq_nil_iff.mp hs, hw⟩)
    rw [trim, trim, hs, hall]
  · rw [trim, trimStart_append hs, trimEnd_append_of_nil hblank, trim]

theorem trim_trimEnd (s : List Char) : trim (trimEnd s) = trim s := by
  obtain ⟨w, hs, hw⟩ := exists_trimEnd s
  have hblanks := trim_append_blanks hw (trimEnd s)
  rw [← hs] at hblanks
  exact hblanks.symm

theorem trim_trim (s : List Char) : trim (trim s) = trim s := by
  have hstart : trimStart (trimStart s) = trimStart s := List.dropWhile_idempotent isBlank s
  calc trim (trim s) = trim (trimStart s) := trim_trimEnd (trimStart s)
    _ = trim s := by rw [trim, trim, hstart]

theorem trimStart_trim (s : List Char) : trimStart (trim s) = trim s := by
  cases hs : trimStart s with
  | nil => rw [trim, hs]; rfl
  | cons c cs =>
    have hc : isBlank c = false := by
      have hhead := List.head?_dropWhile_not isBlank s
      rw [show s.dropWhile isBlank = c :: cs from hs] at hhead
      simpa using hhead
    have htrim : trim s = c :: trimEnd cs := by
      rw [trim, hs]
      exact trimEnd_append_cons hc [] cs
    rw [htrim]
    exact List.dropWhile_cons_of_neg (by simp [hc])

theorem trimEnd_trim (s : List Char) : trimEnd (trim s) = trim s := by
  rw [trim, trimEnd, trimEnd, List.reverse_reverse, List.dropWhile_idempotent isBlank]

theorem getLast?_trim (s : List Char) : ∀ c ∈ (trim s).getLast?, isBlank c = false := by
  intro c hc
  have hhead := List.head?_dropWhile_not isBlank (trimStart s).reverse
  rw [trim, trimEnd, List.getLast?_reverse] at hc
  rw [hc] at hhead
  simpa using hhead

theorem trimStart_blanks_append {w : List Char} (hw : ∀ c ∈ w, isBlank c = true) (s : List Char) :
    trimStart (w ++ s) = trimStart s := List.dropWhile_append_of_pos hw

/-- **What stands between trimmed texts** is not trimmed away. -/
theorem trim_between {u v s t : List Char} (hv : ∀ c ∈ v, isBlank c = true) (hs : trim s ≠ [])
    (ht : trim t ≠ []) : trim (v ++ (trim s ++ (u ++ trim t))) = trim s ++ (u ++ trim t) := by
  have hstart : trimStart (trim s) ≠ [] := by rwa [trimStart_trim]
  have hend : trimEnd (trim t) ≠ [] := by rwa [trimEnd_trim]
  rw [trim, trimStart_blanks_append hv, trimStart_append hstart, trimStart_trim,
    ← List.append_assoc, trimEnd_append hend, trimEnd_trim, List.append_assoc]

/-! ## Names -/

theorem span_isWord_append {b : List Char} (hb : ∀ c ∈ b.head?, isWord c = false) :
    ∀ a : List Char, (a ++ b).takeWhile isWord = a.takeWhile isWord ∧
      (a ++ b).dropWhile isWord = a.dropWhile isWord ++ b
  | [] => by
    cases b with
    | nil => exact ⟨rfl, rfl⟩
    | cons c cs =>
      have hc : ¬ isWord c = true := by simp [hb c rfl]
      exact ⟨List.takeWhile_cons_of_neg hc, List.dropWhile_cons_of_neg hc⟩
  | c :: cs => by
    obtain ⟨htake, hdrop⟩ := span_isWord_append hb cs
    rw [List.cons_append]
    by_cases hc : isWord c = true
    · rw [List.takeWhile_cons_of_pos hc, List.takeWhile_cons_of_pos hc, List.dropWhile_cons_of_pos hc,
        List.dropWhile_cons_of_pos hc, htake, hdrop]
      exact ⟨rfl, rfl⟩
    · rw [List.takeWhile_cons_of_neg hc, List.takeWhile_cons_of_neg hc, List.dropWhile_cons_of_neg hc,
        List.dropWhile_cons_of_neg hc]
      exact ⟨rfl, rfl⟩

theorem rest_of_takeName {s name rest : List Char} (h : takeName s = some (name, rest)) :
    ∀ c ∈ rest, c ∈ s := by
  cases s with
  | nil => exact nomatch h
  | cons c cs =>
    rw [takeName] at h
    split at h
    · obtain ⟨-, rfl⟩ := Prod.mk.inj (Option.some.inj h)
      exact fun d hd => List.mem_cons_of_mem _ ((List.dropWhile_suffix isWord).subset hd)
    · exact nomatch h

/-- **A name ends where its text does**, unless a word character follows. -/
theorem takeName_append {a b : List Char} (ha : a ≠ []) (hb : ∀ c ∈ b.head?, isWord c = false) :
    takeName (a ++ b) = (takeName a).map fun p => (p.1, p.2 ++ b) := by
  obtain ⟨c, cs, rfl⟩ := List.exists_cons_of_ne_nil ha
  obtain ⟨htake, hdrop⟩ := span_isWord_append hb cs
  rw [List.cons_append, takeName, takeName, htake, hdrop]
  split <;> rfl

end ModelTypings.Text
