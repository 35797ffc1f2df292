import ModelTypings.Proofs.Source.Lexical

/-!
# The pieces of a line

A line is cut character by character.

* `pieces_code`, `pieces_quote`, `pieces_string_cons`: one character more;
* `pieces_delimiter`, `pieces_string_delimiter`: three equal quotes, which the splitter takes for an
  empty string and the start of another;
* `GoesOn`, **`pieces_append`**: the pieces of a text that goes on.
-/

namespace ModelTypings.Source

open Text

/-! ## Single characters -/

theorem consFirst_ne_nil (c : Char) (ps : List (List Char)) : consFirst c ps ≠ [] := by
  cases ps <;> simp [consFirst]

theorem pieces_ne_nil (d : Int) (q : Option Char) (s : List Char) : pieces d q s ≠ [] := by
  fun_cases pieces d q s <;> simp [consFirst_ne_nil]

theorem ne_escape_of_cases {c : Char} {cs : List Char} (h1 : c = '\\' → cs = [] → False)
    (h2 : ∀ e ds, c = '\\' → cs = e :: ds → False) : c ≠ '\\' := by
  rintro rfl
  cases cs with
  | nil => exact h1 rfl rfl
  | cons e cs => exact h2 e cs rfl rfl

section Pieces

variable (d : Int)

theorem pieces_comment (cs : List Char) : pieces d none ('#' :: cs) = [[]] := by
  rw [pieces, if_pos rfl]

theorem pieces_cut (cs : List Char) : pieces 0 none (';' :: cs) = [] :: pieces 0 none cs := by
  rw [pieces, if_neg (by decide), if_neg (by decide), if_pos ⟨rfl, rfl⟩]

theorem pieces_code {c : Char} (cs : List Char) (hc : c ≠ '#') (hq : isQuote c = false)
    (h : c = ';' → d ≠ 0) :
    pieces d none (c :: cs) = consFirst c (pieces (d + nesting c) none cs) := by
  rw [pieces, if_neg hc, if_neg (by simp [hq]), if_neg fun hcut => h hcut.1 hcut.2]

theorem pieces_quote {q : Char} (hq : isQuote q) (cs : List Char) :
    pieces d none (q :: cs) = consFirst q (pieces d (some q) cs) := by
  rw [pieces, if_neg (ne_comment_of_isQuote hq), if_pos hq]

theorem pieces_string_cons {q c : Char} (hc : c ≠ '\\') (cs : List Char) :
    pieces d (some q) (c :: cs) = consFirst c (pieces d (if c = q then none else some q) cs) := by
  rw [pieces]
  · exact fun e => absurd e hc
  · exact fun _ _ e => absurd e hc

/-- The delimiter of a triple-quoted string is an empty string and a quote to the splitter. -/
theorem pieces_delimiter {q : Char} (hq : isQuote q) (cs : List Char) :
    pieces d none (q :: q :: q :: cs) = [q, q, q].foldr consFirst (pieces d (some q) cs) := by
  rw [pieces_quote d hq, pieces_string_cons d (ne_escape_of_isQuote hq), if_pos rfl,
    pieces_quote d hq]
  rfl

theorem pieces_string_delimiter {q : Char} (hq : isQuote q) (cs : List Char) :
    pieces d (some q) (q :: q :: q :: cs) = [q, q, q].foldr consFirst (pieces d none cs) := by
  have hescape := ne_escape_of_isQuote hq
  rw [pieces_string_cons d hescape, if_pos rfl, pieces_quote d hq, pieces_string_cons d hescape,
    if_pos rfl]
  rfl

end Pieces

/-! ## Texts that go on -/

/-- The last of some pieces goes on, and more of them may follow. -/
def GoesOn (ps qs : List (List Char)) : Prop :=
  ∃ above u w below, ps = above ++ [u] ∧ qs = above ++ (u ++ w) :: below

theorem GoesOn.consFirst {ps qs : List (List Char)} (h : GoesOn ps qs) (c : Char) :
    GoesOn (consFirst c ps) (consFirst c qs) := by
  obtain ⟨above, u, w, below, rfl, rfl⟩ := h
  cases above with
  | nil => exact ⟨[], c :: u, w, below, rfl, rfl⟩
  | cons p above => exact ⟨(c :: p) :: above, u, w, below, rfl, rfl⟩

theorem GoesOn.cons {ps qs : List (List Char)} (h : GoesOn ps qs) (p : List Char) :
    GoesOn (p :: ps) (p :: qs) := by
  obtain ⟨above, u, w, below, rfl, rfl⟩ := h
  exact ⟨p :: above, u, w, below, rfl, rfl⟩

theorem goesOn_single {qs : List (List Char)} (h : qs ≠ []) : GoesOn [[]] qs := by
  obtain ⟨w, below, rfl⟩ := List.exists_cons_of_ne_nil h
  exact ⟨[], [], w, below, rfl, rfl⟩

/-- **The pieces of a text that goes on.** -/
theorem pieces_append (d : Int) (q : Option Char) (s t : List Char) :
    GoesOn (pieces d q s) (pieces d q (s ++ t)) := by
  fun_induction pieces d q s with
  | case1 => exact goesOn_single (pieces_ne_nil _ _ _)
  | case2 d q =>
    -- a backslash at the end hides the first character of what follows
    cases t with
    | nil => exact (goesOn_single (List.cons_ne_nil [] [])).consFirst '\\'
    | cons e cs =>
      rw [List.singleton_append, pieces]
      exact (goesOn_single (consFirst_ne_nil _ _)).consFirst '\\'
  | case3 d q e cs ih => exact (ih.consFirst e).consFirst '\\'
  | case4 d q c cs h1 h2 ih =>
    rw [List.cons_append, pieces_string_cons d (ne_escape_of_cases h1 h2)]
    exact ih.consFirst c
  | case5 d cs =>
    rw [List.cons_append, pieces_comment]
    exact goesOn_single (List.cons_ne_nil [] [])
  | case6 d c cs hc hq ih =>
    rw [List.cons_append, pieces_quote d hq]
    exact ih.consFirst c
  | case7 d c cs hc hq hcut ih =>
    obtain ⟨rfl, rfl⟩ := hcut
    rw [List.cons_append, pieces_cut]
    exact ih.cons []
  | case8 d c cs hc hq hcut ih =>
    rw [List.cons_append, pieces_code d _ hc (by simpa using hq) fun e hd => hcut ⟨e, hd⟩]
    exact ih.consFirst c

end ModelTypings.Source
