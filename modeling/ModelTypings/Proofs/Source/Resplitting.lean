import ModelTypings.Proofs.Source.Arguments
import ModelTypings.Proofs.Source.LineEnd

/-!
# Statements split again

Wherever the splitter cuts, it stands outside strings and brackets, as at the start of a line. So a
statement is one statement on a line of its own, and statements joined by semicolons are told apart
again.

* `StandIn`, `exists_joinWith_pieces`, `statements_standIn`: where the statements of a line stand;
* `PassesTo`: the state of the splitter behind a text in which it does not cut;
* `PassesTo.of_append_blanks`, `PassesTo.trim`: what trimming does to it;
* `IsCut`, `isCut_pieces`: the state at every cut is that at the start of the line;
* **`statements_rejoin`**: the statements of a line, alone and joined.
-/

namespace ModelTypings.Source

open Text

/-! ## Where the statements stand -/

/-- A character that may stand between two statements. -/
def isBetween (c : Char) : Bool := isBlank c || c == ';'

/-- Some texts stand in a line, one behind the other. Nothing else does but blanks, semicolons and,
behind them all, a comment. -/
inductive StandIn : List (List Char) → List Char → Prop
  | nil {v rest : List Char} (hv : ∀ c ∈ v, isBetween c = true) (hrest : ∀ c ∈ rest.head?, c = '#') :
      StandIn [] (v ++ rest)
  | cons {v s t : List Char} {ss : List (List Char)} (hv : ∀ c ∈ v, isBetween c = true)
      (h : StandIn ss t) : StandIn (s :: ss) (v ++ (s ++ t))

theorem StandIn.prepend {ss : List (List Char)} {v t : List Char} (h : StandIn ss t)
    (hv : ∀ c ∈ v, isBetween c = true) : StandIn ss (v ++ t) := by
  cases h with
  | nil hv' hrest =>
    rw [← List.append_assoc]
    exact .nil (List.forall_mem_append.mpr ⟨hv, hv'⟩) hrest
  | cons hv' h =>
    rw [← List.append_assoc]
    exact .cons (List.forall_mem_append.mpr ⟨hv, hv'⟩) h

theorem isBetween_of_mem (w : Blanks) : ∀ c ∈ w.text, isBetween c = true := fun c hc => by
  rw [isBetween, w.valid c hc, Bool.true_or]

theorem StandIn.piece {ss : List (List Char)} {t : List Char} (h : StandIn ss t) (p : List Char) :
    StandIn (([p].map trim).filter (fun s => !s.isEmpty) ++ ss) (p ++ t) := by
  obtain ⟨v, w, hp⟩ := exists_trim p
  have htext : p ++ t = v.text ++ (trim p ++ (w.text ++ t)) := by
    rw [← List.append_assoc (trim p), ← List.append_assoc, ← hp]
  have hw : StandIn ss (w.text ++ t) := h.prepend (isBetween_of_mem w)
  rw [htext, List.map_singleton]
  cases htrim : trim p with
  | nil => exact hw.prepend (isBetween_of_mem v)
  | cons c cs => exact .cons (isBetween_of_mem v) hw

/-- **The pieces of a line**, with semicolons between them, are the line up to its comment. -/
theorem exists_joinWith_pieces (d : Int) (q : Option Char) (s : List Char) :
    ∃ rest, s = joinWith ';' (pieces d q s) ++ rest ∧ ∀ c ∈ rest.head?, c = '#' := by
  fun_induction pieces d q s with
  | case1 | case2 => exact ⟨[], rfl, by simp⟩
  | case3 d q e cs ih =>
    obtain ⟨rest, hs, hrest⟩ := ih
    refine ⟨rest, ?_, hrest⟩
    rw [joinWith_consFirst _ _ (consFirst_ne_nil _ _), joinWith_consFirst _ _ (pieces_ne_nil _ _ _),
      List.cons_append, List.cons_append, ← hs]
  | case4 d q c cs _ _ ih | case6 d c cs _ _ ih | case8 d c cs _ _ _ ih =>
    obtain ⟨rest, hs, hrest⟩ := ih
    refine ⟨rest, ?_, hrest⟩
    rw [joinWith_consFirst _ _ (pieces_ne_nil _ _ _), List.cons_append, ← hs]
  | case5 d cs => exact ⟨'#' :: cs, rfl, fun c hc => (Option.some.inj hc).symm⟩
  | case7 d c cs _ _ hcut ih =>
    obtain ⟨rest, hs, hrest⟩ := ih
    refine ⟨rest, ?_, hrest⟩
    rw [joinWith_cons_nil (pieces_ne_nil _ _ _), List.cons_append, ← hs, hcut.1]

/-- **The statements of a line stand in it.** -/
theorem statements_standIn (line : List Char) : StandIn (statements line) line := by
  obtain ⟨rest, hline, hrest⟩ := exists_joinWith_pieces 0 none line
  have hpieces : ∀ ps : List (List Char), ps ≠ [] →
      StandIn ((ps.map trim).filter fun s => !s.isEmpty) (joinWith ';' ps ++ rest) := by
    intro ps hps
    induction ps with
    | nil => exact absurd rfl hps
    | cons p ps ih =>
      rw [← List.singleton_append, List.map_append, List.filter_append]
      cases ps with
      | nil => exact (StandIn.nil (v := []) (fun c hc => nomatch hc) hrest).piece p
      | cons q ps =>
        have hsemicolon : ∀ c ∈ [';'], isBetween c = true :=
          List.forall_mem_singleton.mpr (by decide)
        have hmore := ((ih (List.cons_ne_nil _ _)).prepend hsemicolon).piece p
        rwa [List.singleton_append, joinWith, List.append_assoc, List.cons_append]
  rw [statements]
  conv => arg 2; rw [hline]
  exact hpieces _ (pieces_ne_nil _ _ _)

/-! ## The state of the splitter -/

/-- From a depth and a string the splitter comes to others behind a text in which it does not cut. -/
inductive PassesTo : Int → Option Char → List Char → Int → Option Char → Prop
  | nil {d : Int} {q : Option Char} : PassesTo d q [] d q
  | code {d d' : Int} {q' : Option Char} {c : Char} {cs : List Char} (hc : c ≠ '#')
      (hq : isQuote c = false) (hcut : c = ';' → d ≠ 0)
      (h : PassesTo (d + nesting c) none cs d' q') : PassesTo d none (c :: cs) d' q'
  | quote {d d' : Int} {q' : Option Char} {c : Char} {cs : List Char} (hq : isQuote c = true)
      (h : PassesTo d (some c) cs d' q') : PassesTo d none (c :: cs) d' q'
  | escape {d d' : Int} {q c : Char} {q' : Option Char} {cs : List Char}
      (h : PassesTo d (some q) cs d' q') : PassesTo d (some q) ('\\' :: c :: cs) d' q'
  | text {d d' : Int} {q c : Char} {q' : Option Char} {cs : List Char} (hc : c ≠ '\\')
      (h : PassesTo d (if c = q then none else some q) cs d' q') : PassesTo d (some q) (c :: cs) d' q'

namespace PassesTo

variable {d d' d'' : Int} {q q' q'' : Option Char} {s t : List Char}

theorem append (h : PassesTo d q s d' q') (h' : PassesTo d' q' t d'' q'') :
    PassesTo d q (s ++ t) d'' q'' := by
  induction h with
  | nil => exact h'
  | code hc hq hcut _ ih => exact .code hc hq hcut (ih h')
  | quote hq _ ih => exact .quote hq (ih h')
  | escape _ ih => exact .escape (ih h')
  | text hc _ ih => exact .text hc (ih h')

/-- **The splitter behind a text** goes on with its first piece. -/
theorem pieces_append (h : PassesTo d q s d' q') (rest : List Char) :
    pieces d q (s ++ rest) = s.foldr consFirst (pieces d' q' rest) := by
  induction h with
  | nil => rfl
  | code hc hq hcut _ ih => rw [List.cons_append, pieces_code _ _ hc hq hcut, ih, List.foldr_cons]
  | quote hq _ ih => rw [List.cons_append, pieces_quote _ hq, ih, List.foldr_cons]
  | escape _ ih => rw [List.cons_append, List.cons_append, pieces, ih, List.foldr_cons, List.foldr_cons]
  | text hc _ ih => rw [List.cons_append, pieces_string_cons _ hc, ih, List.foldr_cons]

theorem pieces_eq (h : PassesTo d q s d' q') : pieces d q s = [s] := by
  have hnil := h.pieces_append []
  rwa [List.append_nil, pieces, foldr_consFirst, List.append_nil] at hnil

theorem pieces_cut (h : PassesTo d q s 0 none) (rest : List Char) :
    pieces d q (s ++ ';' :: rest) = s :: pieces 0 none rest := by
  rw [h.pieces_append, Source.pieces_cut, foldr_consFirst, List.append_nil]

/-! ### Blanks -/

section Blanks

variable {w : List Char} (hw : ∀ c ∈ w, isBlank c = true)
include hw

theorem of_blanks (d : Int) : PassesTo d none w d none := by
  induction w with
  | nil => exact .nil
  | cons c cs ih =>
    have hc : isBlank c = true := hw c List.mem_cons_self
    have hcs := ih fun c hc => hw c (List.mem_cons_of_mem _ hc)
    refine .code (ne_of_isBlank (by decide) hc) (isQuote_of_isBlank hc)
      (fun e => absurd e (ne_of_isBlank (by decide) hc)) ?_
    rwa [nesting_of_isBlank hc, Int.add_zero]

theorem eq_of_blanks (h : PassesTo d q w d' q') (hquote : ∀ c ∈ q, isQuote c = true) :
    d' = d ∧ q' = q := by
  induction h with
  | nil => exact ⟨rfl, rfl⟩
  | code _ _ _ _ ih =>
    have hc := nesting_of_isBlank (hw _ List.mem_cons_self)
    rw [hc, Int.add_zero] at ih
    exact ih (fun c hc => hw c (List.mem_cons_of_mem _ hc)) hquote
  | quote hq =>
    exact absurd hq (by simp [isQuote_of_isBlank (hw _ List.mem_cons_self)])
  | escape => exact absurd (hw '\\' List.mem_cons_self) (by decide)
  | @text _ _ q c _ _ _ _ ih =>
    have hne : c ≠ q := ne_quote_of_mem hw (hquote q rfl) List.mem_cons_self
    rw [if_neg hne] at ih
    exact ih (fun c hc => hw c (List.mem_cons_of_mem _ hc)) hquote

/-- **Blanks cut off at the end of a piece** leave the splitter outside strings. A backslash may hide
the first of them, but then the string does not end. -/
theorem of_append_blanks (h : PassesTo d q (s ++ w) d' none) (hquote : ∀ c ∈ q, isQuote c = true) :
    PassesTo d q s d' none := by
  generalize htext : s ++ w = text at h
  generalize hnone : (none : Option Char) = q' at h
  -- the text ends where the blanks begin, or goes on with its first item
  induction h generalizing s with
  | nil =>
    obtain ⟨rfl, rfl⟩ := List.append_eq_nil_iff.mp htext
    exact hnone ▸ .nil
  | code hc hq hcut h ih =>
    subst hnone
    cases s with
    | nil =>
      obtain rfl : w = _ := htext
      obtain ⟨rfl, -⟩ := eq_of_blanks hw (.code hc hq hcut h) hquote
      exact .nil
    | cons c' s =>
      obtain ⟨rfl, hs⟩ := List.cons.inj htext
      exact .code hc hq hcut (ih hquote hs rfl)
  | quote hq h ih =>
    cases s with
    | nil =>
      obtain rfl : w = _ := htext
      exact absurd hq (by simp [isQuote_of_isBlank (hw _ List.mem_cons_self)])
    | cons c' s =>
      obtain ⟨rfl, hs⟩ := List.cons.inj htext
      refine .quote hq (ih (fun c hc => ?_) hs hnone)
      obtain rfl := Option.some.inj hc
      exact hq
  | escape h ih =>
    match s with
    | [] =>
      obtain rfl : w = _ := htext
      exact absurd (hw '\\' List.mem_cons_self) (by decide)
    | ['\\'] =>
      obtain rfl : w = _ := (List.cons.inj htext).2
      have hstring := eq_of_blanks (fun c hc => hw c (List.mem_cons_of_mem _ hc)) h hquote
      exact nomatch hnone.trans hstring.2
    | c₁ :: c₂ :: s =>
      obtain ⟨rfl, hs⟩ := List.cons.inj htext
      obtain ⟨rfl, hs'⟩ := List.cons.inj hs
      exact .escape (ih hquote hs' hnone)
  | text hc h ih =>
    cases s with
    | nil =>
      obtain rfl : w = _ := htext
      have hstring := eq_of_blanks hw (.text hc h) hquote
      exact nomatch hnone.trans hstring.2
    | cons c' s =>
      obtain ⟨rfl, hs⟩ := List.cons.inj htext
      refine .text hc (ih (fun c hc => ?_) hs hnone)
      split at hc
      · exact nomatch hc
      · exact hquote c hc

theorem of_blanks_append (h : PassesTo d none (w ++ s) d' q') : PassesTo d none s d' q' := by
  induction w with
  | nil => exact h
  | cons c cs ih =>
    have hc : isBlank c = true := hw c List.mem_cons_self
    cases h with
    | code _ _ _ h =>
      rw [nesting_of_isBlank hc, Int.add_zero] at h
      exact ih (fun c hc => hw c (List.mem_cons_of_mem _ hc)) h
    | quote hq => exact absurd hq (by simp [isQuote_of_isBlank hc])

end Blanks

theorem trimmed (h : PassesTo d none s d' none) : PassesTo d none (trim s) d' none := by
  obtain ⟨v, w, hs⟩ := exists_trim s
  rw [hs] at h
  exact (h.of_blanks_append v.valid).of_append_blanks w.valid fun c hc => nomatch hc

end PassesTo

/-! ## The pieces of a line -/

/-- Some pieces are cut from a line on which the splitter stands at a depth and in a string at first:
it comes back to the start of a line at the end of each but the last, which is one piece alone. -/
inductive IsCut : Int → Option Char → List (List Char) → Prop
  | last {d : Int} {q : Option Char} {p : List Char} (h : pieces d q p = [p]) : IsCut d q [p]
  | more {d : Int} {q : Option Char} {p : List Char} {ps : List (List Char)}
      (h : PassesTo d q p 0 none) (hps : IsCut 0 none ps) : IsCut d q (p :: ps)

theorem IsCut.prepend {d d' : Int} {q q' : Option Char} {s : List Char} {ps : List (List Char)}
    (h : IsCut d' q' ps) (hs : PassesTo d q s d' q') : IsCut d q (s.foldr consFirst ps) := by
  cases h with
  | @last _ _ p h =>
    have happend := hs.pieces_append p
    rw [h] at happend
    rw [foldr_consFirst] at happend ⊢
    exact .last happend
  | more h hps =>
    rw [foldr_consFirst]
    exact .more (hs.append h) hps

/-- **At every cut the splitter stands as at the start of a line.** -/
theorem isCut_pieces (d : Int) (q : Option Char) (s : List Char) : IsCut d q (pieces d q s) := by
  fun_induction pieces d q s with
  | case1 d q => exact .last (by rw [pieces])
  | case2 d q => exact .last (by rw [pieces])
  | case3 d q e cs ih => exact ih.prepend (s := ['\\', e]) (.escape .nil)
  | case4 d q c cs h1 h2 ih => exact ih.prepend (s := [c]) (.text (ne_escape_of_cases h1 h2) .nil)
  | case5 d cs => exact .last (by rw [pieces])
  | case6 d c cs hc hq ih => exact ih.prepend (s := [c]) (.quote hq .nil)
  | case7 d c cs hc hq hcut ih =>
    rw [hcut.2] at ih ⊢
    exact .more .nil ih
  | case8 d c cs hc hq hcut ih =>
    exact ih.prepend (s := [c]) (.code hc (by simpa using hq) (fun e hd => hcut ⟨e, hd⟩) .nil)

theorem eq_single_of_consFirst {c : Char} {p : List Char} {ps : List (List Char)} (hps : ps ≠ [])
    (h : consFirst c ps = [c :: p]) : ps = [p] := by
  obtain ⟨p', ps, rfl⟩ := List.exists_cons_of_ne_nil hps
  obtain ⟨hp, rfl⟩ := List.cons.inj h
  rw [(List.cons.inj hp).2]

theorem pieces_of_append {d : Int} {q : Option Char} {s t : List Char}
    (h : pieces d q (s ++ t) = [s ++ t]) : pieces d q s = [s] := by
  fun_induction pieces d q s with
  | case1 | case2 => rfl
  | case3 d q e cs ih =>
    rw [List.cons_append, List.cons_append, pieces] at h
    rw [ih (eq_single_of_consFirst (pieces_ne_nil _ _ _)
      (eq_single_of_consFirst (consFirst_ne_nil _ _) h))]
    rfl
  | case4 d q c cs h1 h2 ih =>
    rw [List.cons_append, pieces_string_cons d (ne_escape_of_cases h1 h2)] at h
    rw [ih (eq_single_of_consFirst (pieces_ne_nil _ _ _) h)]
    rfl
  | case5 d cs =>
    rw [List.cons_append, pieces_comment] at h
    cases h
  | case6 d c cs hc hq ih =>
    rw [List.cons_append, pieces_quote d hq] at h
    rw [ih (eq_single_of_consFirst (pieces_ne_nil _ _ _) h)]
    rfl
  | case7 d c cs hc hq hcut ih =>
    rw [hcut.1, hcut.2, List.cons_append, pieces_cut] at h
    cases h
  | case8 d c cs hc hq hcut ih =>
    rw [List.cons_append, pieces_code d _ hc (by simpa using hq) fun e hd => hcut ⟨e, hd⟩] at h
    rw [ih (eq_single_of_consFirst (pieces_ne_nil _ _ _) h)]
    rfl

/-- A piece is one without its outer blanks, even where a backslash hides one of them. -/
theorem pieces_trim {p : List Char} (h : pieces 0 none p = [p]) :
    pieces 0 none (trim p) = [trim p] := by
  obtain ⟨v, w, hp⟩ := exists_trim p
  have hv : PassesTo 0 none v.text 0 none := .of_blanks v.valid 0
  obtain ⟨u, us, hu⟩ := List.exists_cons_of_ne_nil (pieces_ne_nil 0 none (trim p ++ w.text))
  rw [hp, hv.pieces_append, hu, foldr_consFirst] at h
  obtain ⟨happend, rfl⟩ := List.cons.inj h
  rw [List.append_cancel_left happend] at hu
  exact pieces_of_append hu

theorem IsCut.pieces_eq : ∀ {ps : List (List Char)}, IsCut 0 none ps →
    ∀ p ∈ ps, pieces 0 none p = [p]
  | _, .last h => List.forall_mem_singleton.mpr h
  | _, .more h hps => List.forall_mem_cons.mpr ⟨h.pieces_eq, hps.pieces_eq⟩

theorem IsCut.pairwise : ∀ {ps : List (List Char)}, IsCut 0 none ps →
    ps.Pairwise fun p _ => PassesTo 0 none p 0 none
  | _, .last _ => List.pairwise_singleton _ _
  | _, .more h hps => List.pairwise_cons.mpr ⟨fun _ _ => h, hps.pairwise⟩

/-! ## The statements of a line -/

theorem forall_mem_statements (line : List Char) :
    ∀ s ∈ statements line, s ≠ [] ∧ trim s = s ∧ pieces 0 none s = [s] := by
  intro s hs
  obtain ⟨hmem, hne⟩ := List.mem_filter.mp hs
  obtain ⟨p, hp, rfl⟩ := List.mem_map.mp hmem
  have hpiece := (isCut_pieces 0 none line).pieces_eq p hp
  exact ⟨by simpa using hne, trim_trim p, pieces_trim hpiece⟩

theorem pairwise_statements (line : List Char) :
    (statements line).Pairwise fun s _ => PassesTo 0 none s 0 none := by
  have hpieces := (isCut_pieces 0 none line).pairwise
  exact (List.pairwise_map.mpr (hpieces.imp PassesTo.trimmed)).filter _

theorem statements_eq_single {s : List Char} (hne : s ≠ []) (htrim : trim s = s)
    (h : pieces 0 none s = [s]) : statements s = [s] := by
  simp [statements, h, htrim, hne]

/-- The statements before and behind a semicolon outside strings and brackets. -/
theorem statements_cut {s : List Char} (h : PassesTo 0 none s 0 none) (rest : List Char) :
    statements (s ++ ';' :: rest) = statements s ++ statements rest := by
  rw [statements, h.pieces_cut, ← List.singleton_append, ← h.pieces_eq, List.map_append,
    List.filter_append]
  rfl

theorem statements_cons_blank {c : Char} (hc : isBlank c = true) (line : List Char) :
    statements (c :: line) = statements line := by
  have hblank : PassesTo 0 none [c] 0 none := .of_blanks (List.forall_mem_singleton.mpr hc) 0
  obtain ⟨p, ps, hps⟩ := List.exists_cons_of_ne_nil (pieces_ne_nil 0 none line)
  have hcons := hblank.pieces_append line
  rw [hps, List.singleton_append] at hcons
  have htrim : trim (c :: p) = trim p := by
    rw [trim, trimStart, List.dropWhile_cons_of_pos hc]
    rfl
  rw [statements, statements, hcons, hps, List.foldr_cons, List.foldr_nil, consFirst, List.map_cons,
    List.map_cons, htrim]

theorem statements_intercalate : ∀ {ss : List (List Char)},
    (ss.Pairwise fun s _ => PassesTo 0 none s 0 none) → (∀ s ∈ ss, statements s = [s]) →
      statements ([';', ' '].intercalate ss) = ss
  | [], _, _ => rfl
  | [s], _, hss => by simpa using hss
  | s :: s' :: ss, hcut, hss => by
    obtain ⟨hs, hmore⟩ := List.pairwise_cons.mp hcut
    obtain ⟨hone, hall⟩ := List.forall_mem_cons.mp hss
    rw [List.intercalate_cons_cons, List.append_assoc, List.cons_append, List.singleton_append,
      statements_cut (hs s' List.mem_cons_self), statements_cons_blank (by decide),
      statements_intercalate hmore hall, hone, List.singleton_append]

/-- **The statements of a line, alone and joined.** They stand in the line one behind the other with
nothing left out but blanks, semicolons and the comment. Each is trimmed, holds something and is the
one statement of itself. Joined by semicolons they are the statements of the joined text. -/
theorem statements_rejoin (line : List Char) :
    StandIn (statements line) line ∧
      (∀ s ∈ statements line, s ≠ [] ∧ trim s = s ∧ statements s = [s]) ∧
      statements ([';', ' '].intercalate (statements line)) = statements line := by
  have halone : ∀ s ∈ statements line, s ≠ [] ∧ trim s = s ∧ statements s = [s] := fun s hs =>
    have ⟨hne, htrim, hpiece⟩ := forall_mem_statements line s hs
    ⟨hne, htrim, statements_eq_single hne htrim hpiece⟩
  exact ⟨statements_standIn line, halone,
    statements_intercalate (pairwise_statements line) fun s hs => (halone s hs).2.2⟩

/-- A blank that a backslash hides is trimmed, a bracket closed too often holds a semicolon back. -/
example : statements "a = '#;'; ; b) ; c ; 'd\\ ".toList =
    ["a = '#;'".toList, "b) ; c ; 'd\\".toList] := by decide +kernel

end ModelTypings.Source
