import ModelTypings.Proofs.Source.Header
import ModelTypings.Proofs.Source.Splitting

/-!
# The end of a line

Blanks at the end of a line say nothing, nor does a comment at which both the scan and the splitter
stop.

* `exists_lines_append`: what a line ends with, without its line feed;
* `ScanAt.ofScan_append_blanks`, `feed_append_blanks`: what blanks at the end leave open;
* `Trails`, `pieces_append_blanks`, `statements_append_blanks`: the statements before them;
* `StartsComment`: the first number sign is a comment to both;
* `pieces_of_cut`: the splitter without the comment;
* `StartsComment.statements_eq`, `StartsComment.feed_eq`: the line without its comment.
-/

namespace ModelTypings.Source

open Text Relation

/-! ## The line feed -/

theorem lines_concat {s : List Char} (hs : '\n' ∉ s) (hreturn : s.getLast? ≠ some '\r') :
    lines (s ++ ['\n']) = [s] := by
  induction s with
  | nil => rfl
  | cons c cs ih =>
    obtain ⟨hc, hcs⟩ := not_or.mp (List.mem_cons.not.mp hs)
    cases cs with
    | nil =>
      refine lines_cons_of_ne (Ne.symm hc) ?_ rfl
      rintro ⟨rfl, -⟩
      exact hreturn rfl
    | cons d cs =>
      refine lines_cons_of_ne (Ne.symm hc) ?_ (ih hcs (by rwa [List.getLast?_cons_cons] at hreturn))
      rintro ⟨-, hd⟩
      exact hcs (Option.some.inj hd ▸ List.mem_cons_self)

theorem lines_return {s : List Char} (hs : '\n' ∉ s) : lines (s ++ ['\r', '\n']) = [s] := by
  induction s with
  | nil => rfl
  | cons c cs ih =>
    obtain ⟨hc, hcs⟩ := not_or.mp (List.mem_cons.not.mp hs)
    refine lines_cons_of_ne (Ne.symm hc) ?_ (ih hcs)
    rintro ⟨-, hd⟩
    cases cs with
    | nil => exact absurd (Option.some.inj hd) (by decide)
    | cons d cs => exact hcs (Option.some.inj hd ▸ List.mem_cons_self)

/-- A text at the end of a line is what the line ends with, but for a carriage return. -/
theorem exists_lines_append {suite : List Char} (hsuite : suite ≠ []) (hline : '\n' ∉ suite) :
    ∃ s w, suite = s ++ w ∧ (∀ c ∈ w, isBlank c = true) ∧
      ∀ pre, '\n' ∉ pre → lines (pre ++ (suite ++ ['\n'])) = [pre ++ s] := by
  by_cases hreturn : suite.getLast? = some '\r'
  · obtain ⟨s, rfl⟩ := List.getLast?_eq_some_iff.mp hreturn
    refine ⟨s, ['\r'], rfl, List.forall_mem_singleton.mpr (by decide), fun pre hpre => ?_⟩
    have hs : '\n' ∉ pre ++ s := by
      rw [List.mem_append, not_or] at hline ⊢
      exact ⟨hpre, hline.1⟩
    rw [List.append_assoc, ← List.append_assoc, List.singleton_append, lines_return hs]
  · refine ⟨suite, [], (List.append_nil _).symm, (fun c hc => nomatch hc), fun pre hpre => ?_⟩
    rw [← List.append_assoc, lines_concat]
    · rw [List.mem_append, not_or]
      exact ⟨hpre, hline⟩
    · rwa [List.getLast?_append_of_ne_nil _ hsuite]

/-! ## Blanks -/

section Blanks

variable {w : List Char} (hw : ∀ c ∈ w, isBlank c = true)
include hw

theorem ne_quote_of_mem {q c : Char} (hq : isQuote q) (hc : c ∈ w) : c ≠ q := by
  rintro rfl
  exact Bool.noConfusion ((isQuote_of_isBlank (hw c hc)).symm.trans hq)

theorem not_prefix_append_blanks {u s : List Char} (hu : ∀ c ∈ u, isQuote c)
    (h : ¬ u <+: s) : ¬ u <+: s ++ w := by
  intro happend
  rcases List.prefix_or_prefix_of_prefix happend (List.prefix_append s w) with hs | ⟨v, rfl⟩
  · exact h hs
  obtain ⟨t, ht⟩ := (List.prefix_append_right_inj s).mp happend
  cases v with
  | nil => exact h (by rw [List.append_nil])
  | cons c v =>
    have hmem : c ∈ w := ht ▸ List.mem_cons_self
    exact ne_quote_of_mem hw (hu c (by simp)) hmem rfl

theorem ofScan_blanks {m : Mode} (hm : ∀ q, m = .short q ∨ m = .long q → isQuote q) (d : Int) :
    Carry.ofScan (scan m d w) = .ofScan (m, d) := by
  induction w with
  | nil => cases m <;> rfl
  | cons c cs ih =>
    have hc : c ≠ '\\' := ne_of_isBlank (by decide) (hw c List.mem_cons_self)
    have hcs := ih fun c hc => hw c (List.mem_cons_of_mem _ hc)
    cases m with
    | code => rw [← List.append_nil (c :: cs), scan_code_blanks hw, scan]
    | short q =>
      rwa [scan_short_cons (ne_quote_of_mem hw (hm q (.inl rfl)) List.mem_cons_self) hc]
    | long q =>
      have hcq := ne_quote_of_mem hw (hm q (.inr rfl)) List.mem_cons_self
      rwa [scan_long_cons d fun h => hcq (List.cons_prefix_cons.mp h).1.symm]

theorem ScanAt.Step.append_blanks {x y : ScanAt} (h : Step x y) (hx : x.IsSound) :
    Step ⟨x.mode, x.depth, x.rest ++ w⟩ ⟨y.mode, y.depth, y.rest ++ w⟩ := by
  cases h with
  | code hc hq => exact .code hc hq
  | shortOpen hq h => exact .shortOpen hq (not_prefix_append_blanks hw (by simpa using hq) h)
  | shortText hq h => exact .shortText hq h
  | shortEscape => exact .shortEscape
  | shortClose h => exact .shortClose h
  | longOpen hq => exact .longOpen hq
  | longText h => exact .longText (not_prefix_append_blanks hw (by simpa using hx _ (.inr rfl)) h)
  | longClose => exact .longClose

/-- **Blanks at the end of a line** leave open what is open above them. -/
theorem ScanAt.ofScan_append_blanks {x : ScanAt} (hx : x.IsSound) :
    Carry.ofScan (scan x.mode x.depth (x.rest ++ w)) = .ofScan x.result := by
  induction hn : x.rest.length using Nat.strong_induction_on generalizing x with
  | _ n ih =>
  subst hn
  rcases x.exists_step with ⟨y, h⟩ | hnil | ⟨hcode, cs, hcs⟩ | ⟨⟨q, hq⟩, hescape⟩
  · rw [h.result_eq, ← ih _ h.length_lt (h.isSound hx) rfl]
    exact congrArg _ (h.append_blanks hw hx).result_eq
  · rw [result, hnil, List.nil_append, ofScan_blanks hw hx]
    cases x.mode <;> rfl
  · rw [result, hcode, hcs, List.cons_append, scan_comment, scan_comment]
  · rw [result, hq, hescape]
    cases w with
    | nil => rfl
    | cons e w =>
      rw [List.singleton_append, scan_short_escape,
        ofScan_blanks (fun c hc => hw c (List.mem_cons_of_mem _ hc)) (hq ▸ hx)]
      rfl

theorem feed_append_blanks (line : List Char) : Carry.feed {} (line ++ w) = Carry.feed {} line := by
  rw [Carry.feed_eq, Carry.feed_eq]
  exact ScanAt.ofScan_append_blanks hw (ScanAt.isSound_code 0 line)

/-! ### The splitter -/

theorem pieces_blanks (d : Int) (q : Option Char) : pieces d q w = [w] := by
  induction w generalizing q with
  | nil => rw [pieces]
  | cons c cs ih =>
    have hc : isBlank c = true := hw c List.mem_cons_self
    have ih := ih fun c hc => hw c (List.mem_cons_of_mem _ hc)
    cases q with
    | none =>
      have hcut : c = ';' → d ≠ 0 := fun e => absurd e (ne_of_isBlank (by decide) hc)
      rw [pieces_code d cs (ne_of_isBlank (by decide) hc) (isQuote_of_isBlank hc) hcut,
        nesting_of_isBlank hc, Int.add_zero, ih, consFirst]
    | some q => rw [pieces_string_cons d (ne_of_isBlank (by decide) hc), ih, consFirst]

end Blanks

/-- The last of some pieces has blanks behind it. -/
def Trails (ps qs : List (List Char)) : Prop :=
  ∃ above u w, ps = above ++ [u] ∧ qs = above ++ [u ++ w] ∧ ∀ c ∈ w, isBlank c = true

namespace Trails

variable {ps qs : List (List Char)}

theorem consFirst (h : Trails ps qs) (c : Char) : Trails (consFirst c ps) (consFirst c qs) := by
  obtain ⟨above, u, w, rfl, rfl, hw⟩ := h
  cases above with
  | nil => exact ⟨[], c :: u, w, rfl, rfl, hw⟩
  | cons p above => exact ⟨(c :: p) :: above, u, w, rfl, rfl, hw⟩

theorem cons (h : Trails ps qs) (p : List Char) : Trails (p :: ps) (p :: qs) := by
  obtain ⟨above, u, w, rfl, rfl, hw⟩ := h
  exact ⟨p :: above, u, w, rfl, rfl, hw⟩

theorem map_trim (h : Trails ps qs) : qs.map trim = ps.map trim := by
  obtain ⟨above, u, w, rfl, rfl, hw⟩ := h
  rw [List.map_append, List.map_append, List.map_singleton, List.map_singleton,
    trim_append_blanks hw]

end Trails

/-- **Blanks at the end of a line** belong to its last piece. -/
theorem pieces_append_blanks {w : List Char} (hw : ∀ c ∈ w, isBlank c = true) (d : Int)
    (q : Option Char) (s : List Char) : Trails (pieces d q s) (pieces d q (s ++ w)) := by
  fun_induction pieces d q s with
  | case1 d q => exact ⟨[], [], w, rfl, pieces_blanks hw d q, hw⟩
  | case2 d q =>
    cases w with
    | nil => exact ⟨[], ['\\'], [], rfl, by rw [List.append_nil, pieces]; rfl, hw⟩
    | cons e cs =>
      have hcs := pieces_blanks (fun c hc => hw c (List.mem_cons_of_mem e hc)) d (some q)
      exact ⟨[], ['\\'], e :: cs, rfl, by rw [List.singleton_append, pieces, hcs]; rfl, hw⟩
  | case3 d q e cs ih => exact (ih.consFirst e).consFirst '\\'
  | case4 d q c cs h1 h2 ih =>
    rw [List.cons_append, pieces_string_cons d (ne_escape_of_cases h1 h2)]
    exact ih.consFirst c
  | case5 d cs =>
    rw [List.cons_append, pieces_comment]
    exact ⟨[], [], [], rfl, rfl, fun c hc => absurd hc List.not_mem_nil⟩
  | case6 d c cs hc hq ih =>
    rw [List.cons_append, pieces_quote d hq]
    exact ih.consFirst c
  | case7 d c cs hc hq hcut ih =>
    obtain ⟨rfl, rfl⟩ := hcut
    rw [List.cons_append, pieces_cut]
    exact ih.cons []
  | case8 d c cs hc hq hcut ih =>
    rw [List.cons_append, pieces_code d _ hc (by simpa using hq) fun e hd => hcut ⟨e, hd⟩]
    exact ih.consFirst c

theorem statements_append_blanks {w : List Char} (hw : ∀ c ∈ w, isBlank c = true) (line : List Char) :
    statements (line ++ w) = statements line := by
  rw [statements, statements, (pieces_append_blanks hw 0 none line).map_trim]

/-! ## Comments -/

/-- A line that goes on with a comment to the splitter has the pieces that it has without it. -/
theorem pieces_of_cut {d : Int} {q : Option Char} {s after : List Char}
    (h : joinWith ';' (pieces d q (s ++ '#' :: after)) = s) :
    pieces d q (s ++ '#' :: after) = pieces d q s := by
  fun_induction pieces d q s with
  | case1 d q =>
    cases q with
    | none => exact pieces_comment d after
    | some q =>
      rw [List.nil_append, pieces_string_cons d (by decide),
        joinWith_consFirst _ _ (pieces_ne_nil _ _ _)] at h
      exact absurd h (List.cons_ne_nil _ _)
  | case2 d q =>
    rw [List.singleton_append, pieces, joinWith_consFirst _ _ (consFirst_ne_nil _ _),
      joinWith_consFirst _ _ (pieces_ne_nil _ _ _)] at h
    exact absurd (List.cons.inj h).2 (List.cons_ne_nil _ _)
  | case3 d q e cs ih =>
    rw [List.cons_append, List.cons_append, pieces, joinWith_consFirst _ _ (consFirst_ne_nil _ _),
      joinWith_consFirst _ _ (pieces_ne_nil _ _ _)] at h
    rw [List.cons_append, List.cons_append, pieces, ih (List.cons.inj (List.cons.inj h).2).2]
  | case4 d q c cs h1 h2 ih =>
    have hc := ne_escape_of_cases h1 h2
    rw [List.cons_append, pieces_string_cons d hc, joinWith_consFirst _ _ (pieces_ne_nil _ _ _)] at h
    rw [List.cons_append, pieces_string_cons d hc, ih (List.cons.inj h).2]
  | case5 d cs =>
    rw [List.cons_append, pieces_comment] at h
    exact absurd h.symm (List.cons_ne_nil _ _)
  | case6 d c cs hc hq ih =>
    rw [List.cons_append, pieces_quote d hq, joinWith_consFirst _ _ (pieces_ne_nil _ _ _)] at h
    rw [List.cons_append, pieces_quote d hq, ih (List.cons.inj h).2]
  | case7 d c cs hc hq hcut ih =>
    obtain ⟨rfl, rfl⟩ := hcut
    rw [List.cons_append, pieces_cut, joinWith_cons_nil (pieces_ne_nil _ _ _)] at h
    rw [List.cons_append, pieces_cut, ih (List.cons.inj h).2]
  | case8 d c cs hc hq hcut ih =>
    have hcode : c = ';' → d ≠ 0 := fun e hd => hcut ⟨e, hd⟩
    rw [List.cons_append, pieces_code d _ hc (by simpa using hq) hcode,
      joinWith_consFirst _ _ (pieces_ne_nil _ _ _)] at h
    rw [List.cons_append, pieces_code d _ hc (by simpa using hq) hcode, ih (List.cons.inj h).2]

/-- The first number sign of a line, if it has one, starts a comment: the splitter cuts off the line
there and the scan stops there. -/
def StartsComment (line : List Char) : Prop :=
  ∀ after, line = withoutComment line ++ '#' :: after →
    CutsAt line (withoutComment line) after ∧ ∃ d, ScanAt.Scans line ⟨.code, d, '#' :: after⟩

theorem withoutComment_cases (line : List Char) :
    withoutComment line = line ∨ ∃ after, line = withoutComment line ++ '#' :: after := by
  have hsplit : withoutComment line ++ line.dropWhile (· != '#') = line :=
    List.takeWhile_append_dropWhile
  cases hrest : line.dropWhile (· != '#') with
  | nil =>
    rw [hrest, List.append_nil] at hsplit
    exact .inl hsplit
  | cons c after =>
    have hc := List.head?_dropWhile_not (fun c => c != '#') line
    rw [hrest] at hc hsplit
    obtain rfl : c = '#' := by simpa using hc
    exact .inr ⟨after, hsplit.symm⟩

theorem withoutComment_append_blanks {w : List Char} (hw : ∀ c ∈ w, isBlank c = true)
    (s : List Char) :
    ∃ v, withoutComment (s ++ w) = withoutComment s ++ v ∧ ∀ c ∈ v, isBlank c = true := by
  rw [withoutComment, List.takeWhile_append]
  split
  · next hs =>
    have hall : withoutComment s = s := (List.takeWhile_prefix _).eq_of_length hs
    exact ⟨_, by rw [hall], fun c hc => hw c ((List.takeWhile_subset _) hc)⟩
  · exact ⟨[], (List.append_nil _).symm, fun c hc => nomatch hc⟩

namespace StartsComment

variable {line : List Char} (h : StartsComment line)
include h

/-- **The statements of a line** are those without its comment. -/
theorem statements_eq : statements (withoutComment line) = statements line := by
  rcases withoutComment_cases line with hline | ⟨after, hline⟩
  · rw [hline]
  · obtain ⟨-, hcut⟩ := (h after hline).1
    have hpieces : pieces 0 none (withoutComment line ++ '#' :: after) =
        pieces 0 none (withoutComment line) := pieces_of_cut (by rw [← hline]; exact hcut)
    rw [statements, statements, ← hpieces, ← hline]

/-- **What a line leaves open** is what it leaves open without its comment. -/
theorem feed_eq : Carry.feed {} (withoutComment line) = Carry.feed {} line := by
  rcases withoutComment_cases line with hline | ⟨after, hline⟩
  · rw [hline]
  · obtain ⟨d, hscan⟩ := (h after hline).2
    have hwith := ScanAt.Visits.result_eq hscan
    have hwithout := ScanAt.Visits.result_eq (ScanAt.Visits.of_append hscan hline)
    rw [Carry.feed_eq, Carry.feed_eq]
    refine congrArg Carry.ofScan (hwithout.trans (.trans ?_ hwith.symm))
    exact (scan_comment d after).symm

end StartsComment

end ModelTypings.Source
