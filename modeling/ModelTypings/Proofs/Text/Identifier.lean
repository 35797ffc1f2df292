import ModelTypings.Proofs.Text.Name

/-!
# Identifiers and blanks as parts of a text

A text that is put together from identifiers and blanks can be taken apart in one way only, as long
as each part ends where its kind of character does.

* `isIdentifier`, `Identifier`, `Blanks`: the parts;
* `span_of_boundary`, `append_inj_of_boundary`: a part that ends where its kind of character does;
* `isSign`, `isWord_of_isSign`: the characters of ASCII that stand in no word;
* **`takeName_eq_some_iff`**: the name at the start of a text is an identifier that does not go on;
* `exists_trim`, `exists_trim_append`: a text around its trimmed part, and two of them in a row.
-/

namespace ModelTypings.Text

/-! ## Parts -/

/-- An ASCII letter or an underscore, then word characters. -/
def isIdentifier : List Char → Bool
  | [] => false
  | c :: cs => isNameStart c && cs.all isWord

/-- An identifier. -/
@[ext]
structure Identifier where
  text : List Char
  valid : isIdentifier text = true
  deriving DecidableEq

/-- A row of blanks, possibly empty. -/
@[ext]
structure Blanks where
  text : List Char
  valid : ∀ c ∈ text, isBlank c = true

/-! ## Boundaries -/

section Boundary

variable {p : Char → Bool} {a b : List Char} (ha : ∀ c ∈ a, p c = true)
  (hb : ∀ c ∈ b.head?, p c = false)
include ha hb

theorem span_of_boundary : (a ++ b).takeWhile p = a ∧ (a ++ b).dropWhile p = b := by
  rw [List.takeWhile_append_of_pos ha, List.dropWhile_append_of_pos ha]
  cases b with
  | nil => simp
  | cons c cs => simp [hb c rfl]

/-- **A text is cut in one way** where a kind of character ends. -/
theorem append_inj_of_boundary {a' b' : List Char} (ha' : ∀ c ∈ a', p c = true)
    (hb' : ∀ c ∈ b'.head?, p c = false) (h : a ++ b = a' ++ b') : a = a' ∧ b = b' := by
  obtain ⟨htake, hdrop⟩ := span_of_boundary ha hb
  obtain ⟨htake', hdrop'⟩ := span_of_boundary ha' hb'
  exact ⟨by rw [← htake, h, htake'], by rw [← hdrop, h, hdrop']⟩

end Boundary

theorem head?_dropWhile_eq_false {p : Char → Bool} {s : List Char} :
    ∀ c ∈ (s.dropWhile p).head?, p c = false := by
  intro c hc
  have hnot := List.head?_dropWhile_not p s
  rw [Option.mem_def.mp hc] at hnot
  simpa using hnot

/-! ## Word characters of ASCII -/

theorem inRanges_of_lt {ranges : List (Nat × Nat)} {n : Nat} (h : ∀ p ∈ ranges, n ≤ p.1)
    {c : Char} (hc : c.toNat < n) : inRanges ranges c = false := by
  refine List.any_eq_false.mpr fun p hp => ?_
  rw [decide_eq_false (Nat.not_le.mpr (Nat.lt_of_lt_of_le hc (h p hp))), Bool.false_and]
  exact Bool.false_ne_true

/-- A character of ASCII that is no letter, no digit and no underscore. -/
def isSign (c : Char) : Bool := decide (c.toNat < 0x80) && !(c.isAlphanum || c == '_')

/-- **No sign stands in a word.** -/
theorem isWord_of_isSign {c : Char} (h : isSign c = true) : isWord c = false := by
  obtain ⟨hc, hascii⟩ := Bool.and_eq_true_iff.mp h
  rw [isWord, Bool.not_eq_true' _ |>.mp hascii, Bool.false_or]
  exact inRanges_of_lt (by decide +kernel) (of_decide_eq_true hc)

theorem ne_of_isSign {c d : Char} (hd : isSign d = true) (hc : isWord c = true) : c ≠ d := by
  rintro rfl
  rw [isWord_of_isSign hd] at hc
  exact Bool.noConfusion hc

/-! ## Identifiers -/

theorem isWord_of_isNameStart {c : Char} (h : isNameStart c = true) : isWord c = true := by
  simp only [isNameStart, Bool.or_eq_true, beq_iff_eq] at h
  rcases h with h | h <;> simp [isWord, Char.isAlphanum, h]

theorem isBlank_of_isWord {c : Char} (h : isWord c = true) : isBlank c = false := by
  by_contra hc
  rw [isWord_of_isBlank (Bool.not_eq_false _ ▸ hc)] at h
  exact Bool.noConfusion h

theorem isWord_of_isIdentifier {s : List Char} (h : isIdentifier s = true) :
    ∀ c ∈ s, isWord c = true := by
  cases s with
  | nil => exact Bool.noConfusion h
  | cons c cs =>
    rw [isIdentifier, Bool.and_eq_true, List.all_eq_true] at h
    exact List.forall_mem_cons.mpr ⟨isWord_of_isNameStart h.1, h.2⟩

namespace Identifier

variable (n : Identifier)

theorem isWord_of_mem : ∀ c ∈ n.text, isWord c = true := isWord_of_isIdentifier n.valid

theorem exists_eq_cons : ∃ c cs, n.text = c :: cs ∧ isNameStart c = true := by
  have h := n.valid
  cases hn : n.text with
  | nil =>
    rw [hn] at h
    exact Bool.noConfusion h
  | cons c cs =>
    rw [hn, isIdentifier, Bool.and_eq_true] at h
    exact ⟨c, cs, rfl, h.1⟩

theorem isBlank_head (rest : List Char) : ∀ c ∈ (n.text ++ rest).head?, isBlank c = false := by
  obtain ⟨c, cs, hn, hc⟩ := n.exists_eq_cons
  rw [hn]
  intro d hd
  obtain rfl := Option.some.inj hd
  exact isBlank_of_isWord (isWord_of_isNameStart hc)

end Identifier

/-- **The name at the start of a text** is an identifier that does not go on. -/
theorem takeName_eq_some_iff {s name rest : List Char} : takeName s = some (name, rest) ↔
    s = name ++ rest ∧ isIdentifier name = true ∧ ∀ c ∈ rest.head?, isWord c = false := by
  constructor
  · intro h
    cases s with
    | nil => cases h
    | cons c cs =>
      rw [takeName] at h
      split at h
      · next hc =>
        obtain ⟨rfl, rfl⟩ := Prod.mk.inj (Option.some.inj h)
        refine ⟨?_, ?_, head?_dropWhile_eq_false⟩
        · rw [List.cons_append, List.takeWhile_append_dropWhile]
        · rw [isIdentifier, Bool.and_eq_true, List.all_eq_true]
          exact ⟨hc, fun d hd => List.mem_takeWhile_imp hd⟩
      · cases h
  · rintro ⟨rfl, hname, hrest⟩
    cases name with
    | nil => exact Bool.noConfusion hname
    | cons c cs =>
      rw [isIdentifier, Bool.and_eq_true, List.all_eq_true] at hname
      obtain ⟨htake, hdrop⟩ := span_of_boundary hname.2 hrest
      rw [List.cons_append, takeName, if_pos hname.1, htake, hdrop]

/-! ## Blanks -/

theorem Blanks.trimStart_append (w : Blanks) {s : List Char} (hs : ∀ c ∈ s.head?, isBlank c = false) :
    trimStart (w.text ++ s) = s := (span_of_boundary w.valid hs).2

theorem Blanks.isWord_head (w : Blanks) {s : List Char} (hs : ∀ c ∈ s.head?, isWord c = false) :
    ∀ c ∈ (w.text ++ s).head?, isWord c = false := by
  cases hw : w.text with
  | nil => exact hs
  | cons d ds =>
    intro c hc
    obtain rfl := Option.some.inj hc
    exact isWord_of_isBlank (w.valid d (hw ▸ List.mem_cons_self))

/-- The blanks at the start of a text. -/
def blanksOf (s : List Char) : Blanks where
  text := s.takeWhile isBlank
  valid _ hc := List.mem_takeWhile_imp hc

theorem blanksOf_append_trimStart (s : List Char) : (blanksOf s).text ++ trimStart s = s :=
  List.takeWhile_append_dropWhile

theorem exists_trim (s : List Char) : ∃ v w : Blanks, s = v.text ++ (trim s ++ w.text) := by
  obtain ⟨w, hw, hblank⟩ := exists_trimEnd (trimStart s)
  refine ⟨blanksOf s, ⟨w, hblank⟩, ?_⟩
  rw [trim, ← hw, blanksOf_append_trimStart]

theorem head?_trim (s : List Char) : ∀ c ∈ (trim s).head?, isBlank c = false := by
  rw [← trimStart_trim]
  exact head?_dropWhile_eq_false

/-- **Two texts in a row, trimmed**, are the trimmed texts with blanks between them. Without such
blanks one of them is blank, or they meet where the trimmed texts do. -/
theorem exists_trim_append (s t : List Char) :
    ∃ v, trim (s ++ t) = trim s ++ (v ++ trim t) ∧ (∀ c ∈ v, isBlank c = true) ∧
      (v = [] → trim s = [] ∨ trim t = [] ∨
        s.getLast? = (trim s).getLast? ∧ t.head? = (trim t).head?) := by
  by_cases hs : trim s = []
  · refine ⟨[], ?_, (fun c hc => nomatch hc), fun _ => .inl hs⟩
    rw [hs, trim, trimStart_blanks_append (trim_eq_nil_iff.mp hs)]
    rfl
  by_cases ht : trim t = []
  · refine ⟨[], ?_, (fun c hc => nomatch hc), fun _ => .inr (.inl ht)⟩
    rw [trim_append_blanks (trim_eq_nil_iff.mp ht), ht, List.append_nil, List.append_nil]
  obtain ⟨a, u, hsplit⟩ := exists_trim s
  obtain ⟨w, b, htsplit⟩ := exists_trim t
  have happend : s ++ t = (a.text ++ (trim s ++ ((u.text ++ w.text) ++ trim t))) ++ b.text := by
    calc s ++ t = (a.text ++ (trim s ++ u.text)) ++ (w.text ++ (trim t ++ b.text)) := by
          rw [← hsplit, ← htsplit]
      _ = _ := by simp only [List.append_assoc]
  refine ⟨u.text ++ w.text, ?_, List.forall_mem_append.mpr ⟨u.valid, w.valid⟩, fun hnil => ?_⟩
  · rw [happend, trim_append_blanks b.valid, trim_between a.valid hs ht]
  · obtain ⟨hu, hw⟩ := List.append_eq_nil_iff.mp hnil
    refine .inr (.inr ⟨?_, ?_⟩)
    · conv_lhs => rw [hsplit, hu, List.append_nil]
      rw [List.getLast?_append_of_ne_nil _ hs]
    · conv_lhs => rw [htsplit, hw, List.nil_append]
      rw [List.head?_append_of_ne_nil _ ht]

end ModelTypings.Text
