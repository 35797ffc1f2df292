import ModelTypings.Proofs.Files.Path
import ModelTypings.Proofs.Source.Pieces
import ModelTypings.Proofs.Source.Places

/-!
# Where a line is cut

A line is scanned for what it leaves open and, by the splitter, cut into statements. The splitter
knows no triple-quoted strings: it takes the delimiter for an empty string and the start of a string
of one line. Where it cuts nothing there, both make the same of every character.

* `SplitsAt`, `CutsAt`: where the splitter ends a statement and where it stops;
* `passedOver`: a triple-quoted string in which the splitter cuts nothing and loses no bracket;
* `Agrees`, `Follows.agrees`: the splitter along the places of a scan;
* **`splitter_agrees`**: the splitter cuts the characters that the scan visits as code;
* **`not_splitter_agrees`**: a quote inside a triple-quoted string shows it what follows.
-/

namespace ModelTypings.Source

open Text Relation

/-! ## Where the splitter cuts -/

/-- One of several pieces ends behind `before`, and another one begins behind the semicolon there. -/
def EndsPiece (ps : List (List Char)) (before : List Char) : Prop :=
  ∃ above below, above ≠ [] ∧ below ≠ [] ∧ ps = above ++ below ∧ joinWith ';' above = before

/-- The splitter splits a line at the semicolon between two texts. -/
def SplitsAt (line before after : List Char) : Prop :=
  line = before ++ ';' :: after ∧ EndsPiece (pieces 0 none line) before

/-- The splitter cuts off a line at the number sign between two texts. -/
def CutsAt (line before after : List Char) : Prop :=
  line = before ++ '#' :: after ∧ joinWith ';' (pieces 0 none line) = before

theorem not_endsPiece_single (p before : List Char) : ¬ EndsPiece [p] before := by
  rintro ⟨above, below, habove, hbelow, hps, -⟩
  rcases List.append_eq_singleton_iff.mp hps.symm with ⟨h, -⟩ | ⟨-, h⟩
  · exact habove h
  · exact hbelow h

theorem endsPiece_cons {p : List Char} {ps : List (List Char)} (hps : ps ≠ []) (before : List Char) :
    EndsPiece (p :: ps) before ↔
      before = p ∨ ∃ b, before = p ++ ';' :: b ∧ EndsPiece ps b := by
  constructor
  · rintro ⟨above, below, habove, hbelow, happend, rfl⟩
    obtain ⟨a, above, rfl⟩ := List.exists_cons_of_ne_nil habove
    obtain rfl := (List.cons.inj happend).1
    cases above with
    | nil => exact Or.inl rfl
    | cons a above =>
      exact Or.inr ⟨_, rfl, a :: above, below, List.cons_ne_nil _ _, hbelow,
        (List.cons.inj happend).2, rfl⟩
  · rintro (rfl | ⟨b, rfl, above, below, habove, hbelow, rfl, rfl⟩)
    · exact ⟨[before], ps, List.cons_ne_nil _ _, hps, rfl, rfl⟩
    · obtain ⟨a, above, rfl⟩ := List.exists_cons_of_ne_nil habove
      exact ⟨p :: a :: above, below, List.cons_ne_nil _ _, hbelow, rfl, rfl⟩

theorem endsPiece_consFirst (c : Char) {ps : List (List Char)} (hps : ps ≠ []) (before : List Char) :
    EndsPiece (consFirst c ps) before ↔ ∃ b, before = c :: b ∧ EndsPiece ps b := by
  obtain ⟨p, ps, rfl⟩ := List.exists_cons_of_ne_nil hps
  rw [consFirst]
  by_cases h : ps = []
  · subst h
    simp [not_endsPiece_single]
  · simp only [endsPiece_cons h]
    constructor
    · rintro (rfl | ⟨b, rfl, hb⟩)
      · exact ⟨p, rfl, Or.inl rfl⟩
      · exact ⟨_, rfl, Or.inr ⟨b, rfl, hb⟩⟩
    · rintro ⟨_, rfl, rfl | ⟨b, rfl, hb⟩⟩
      · exact Or.inl rfl
      · exact Or.inr ⟨b, rfl, hb⟩

theorem joinWith_cons_nil {ps : List (List Char)} (hps : ps ≠ []) :
    joinWith ';' ([] :: ps) = ';' :: joinWith ';' ps := by
  obtain ⟨p, ps, rfl⟩ := List.exists_cons_of_ne_nil hps
  rfl

theorem foldr_consFirst_ne_nil (w : List Char) {ps : List (List Char)} (hps : ps ≠ []) :
    w.foldr consFirst ps ≠ [] := by
  cases w with
  | nil => exact hps
  | cons c cs => exact consFirst_ne_nil _ _

theorem endsPiece_foldr (w : List Char) {ps : List (List Char)} (hps : ps ≠ [])
    (before : List Char) :
    EndsPiece (w.foldr consFirst ps) before ↔ ∃ b, before = w ++ b ∧ EndsPiece ps b := by
  induction w generalizing before with
  | nil => simp
  | cons c w ih =>
    rw [List.foldr_cons, endsPiece_consFirst c (foldr_consFirst_ne_nil w hps)]
    simp only [ih]
    constructor
    · rintro ⟨_, rfl, b, rfl, hb⟩
      exact ⟨b, rfl, hb⟩
    · rintro ⟨b, rfl, hb⟩
      exact ⟨w ++ b, rfl, b, rfl, hb⟩

theorem joinWith_foldr (w : List Char) {ps : List (List Char)} (hps : ps ≠ []) :
    joinWith ';' (w.foldr consFirst ps) = w ++ joinWith ';' ps := by
  induction w with
  | nil => rfl
  | cons c w ih =>
    rw [List.foldr_cons, joinWith_consFirst ';' c (foldr_consFirst_ne_nil w hps), ih,
      List.cons_append]

/-- Some pieces are what the scan makes of the line from a place on: a piece ends at the semicolons
that are visited as code outside brackets, the last one at the comment. -/
structure Agrees (x : ScanAt) (ps : List (List Char)) : Prop where
  ne_nil : ps ≠ []
  split : ∀ before after, x.rest = before ++ ';' :: after →
    (EndsPiece ps before ↔ x.Visits ⟨.code, 0, ';' :: after⟩)
  cut : ∀ before after, x.rest = before ++ '#' :: after →
    (joinWith ';' ps = before ↔ ∃ d, x.Visits ⟨.code, d, '#' :: after⟩)

namespace Agrees

variable {x y : ScanAt} {ps : List (List Char)}

theorem of_rest {ps : List (List Char)} (hps : ps ≠ []) (h : ∀ c ∈ x.rest, c ≠ ';' ∧ c ≠ '#') :
    Agrees x ps where
  ne_nil := hps
  split before after hrest := absurd rfl (h ';' (by rw [hrest]; simp)).1
  cut before after hrest := absurd rfl (h '#' (by rw [hrest]; simp)).2

theorem comment (d : Int) (cs : List Char) : Agrees ⟨.code, d, '#' :: cs⟩ [[]] where
  ne_nil := List.cons_ne_nil _ _
  split before after _ := by
    refine iff_of_false (not_endsPiece_single _ _) fun hvisits => ?_
    rcases hvisits.cases_head with e | ⟨_, hstep, -⟩
    · cases e
    · exact ScanAt.not_step_comment hstep
  cut before after hrest := by
    constructor
    · rintro rfl
      obtain rfl := (List.cons.inj hrest).2
      exact ⟨d, .refl⟩
    · rintro ⟨d', hvisits⟩
      rcases hvisits.cases_head with e | ⟨_, hstep, -⟩
      · obtain rfl : cs = after := by cases e; rfl
        exact (List.append_left_eq_self.mp hrest.symm).symm
      · exact absurd hstep ScanAt.not_step_comment

theorem skip (h : ScanAt.Step x y) {w : List Char} (hrest : x.rest = w ++ y.rest)
    (hne : ∀ after, x ≠ ⟨.code, 0, ';' :: after⟩) (hy : Agrees y ps) :
    Agrees x (w.foldr consFirst ps) where
  ne_nil := foldr_consFirst_ne_nil w hy.ne_nil
  split before after heq := by
    rw [h.visits_append hrest heq (hne after), endsPiece_foldr w hy.ne_nil]
    refine exists_congr fun b => and_congr_right ?_
    rintro rfl
    have hyrest : y.rest = b ++ ';' :: after := by
      rw [hrest, List.append_assoc] at heq
      exact List.append_cancel_left heq
    rw [hy.split b after hyrest, and_iff_right hyrest]
  cut before after heq := by
    have hcomment : ∀ d, x ≠ ⟨.code, d, '#' :: after⟩ := by
      rintro d rfl
      exact ScanAt.not_step_comment h
    simp only [h.visits_append hrest heq (hcomment _), joinWith_foldr w hy.ne_nil]
    constructor
    · rintro rfl
      have hyrest : y.rest = joinWith ';' ps ++ '#' :: after := by
        rw [hrest, List.append_assoc] at heq
        exact List.append_cancel_left heq
      obtain ⟨d, hd⟩ := (hy.cut _ after hyrest).mp rfl
      exact ⟨d, _, rfl, hyrest, hd⟩
    · rintro ⟨d, b, rfl, hyrest, hd⟩
      rw [(hy.cut b after hyrest).mpr ⟨d, hd⟩]

theorem semicolon {cs : List Char} (hy : Agrees ⟨.code, 0, cs⟩ ps) :
    Agrees ⟨.code, 0, ';' :: cs⟩ ([] :: ps) := by
  have hstep : ScanAt.Step ⟨.code, 0, ';' :: cs⟩ ⟨.code, 0, cs⟩ := .code (by decide) (by decide)
  refine ⟨List.cons_ne_nil _ _, fun before after heq => ?_, fun before after heq => ?_⟩
  · rw [endsPiece_cons hy.ne_nil, hstep.visits_iff]
    cases before with
    | nil =>
      obtain rfl : cs = after := (List.cons.inj heq).2
      exact iff_of_true (Or.inl rfl) (Or.inl rfl)
    | cons c b =>
      obtain ⟨rfl, hcs⟩ := List.cons.inj heq
      have hne : (⟨.code, 0, ';' :: cs⟩ : ScanAt) ≠ ⟨.code, 0, ';' :: after⟩ := by
        rintro e
        obtain rfl : cs = after := by cases e; rfl
        have hlength := congrArg List.length hcs
        simp only [List.append_eq, List.length_append, List.length_cons] at hlength
        omega
      simp [hne, hy.split b after hcs]
  · cases before with
    | nil => exact absurd (List.cons.inj heq).1 (by decide)
    | cons c b =>
      obtain ⟨rfl, hcs⟩ := List.cons.inj heq
      have hne : ∀ d, (⟨.code, 0, ';' :: cs⟩ : ScanAt) ≠ ⟨.code, d, '#' :: after⟩ :=
        fun d e => by cases e
      simp [joinWith_cons_nil hy.ne_nil, hstep.visits_iff, hne, hy.cut b after hcs]

end Agrees

/-! ## The splitter along a scan -/

/-- The splitter, at its own bracket depth, inside the string of a quote or outside strings, cuts
nothing in what a triple-quoted string goes on with. Where the string ends, at the depth `d` at which
it began, the splitter is at that depth too, and in a string, so that this ends with it. -/
def passedOver (q : Char) (d : Int) : Int → Option Char → List Char → Bool
  | _, _, [] => true
  | _, some _, ['\\'] => true
  | e, some p, '\\' :: c :: cs => !decide ([q, q, q] <+: c :: cs) && passedOver q d e (some p) cs
  | e, some p, c :: cs =>
    if [q, q, q] <+: c :: cs then p == q && e == d
    else passedOver q d e (if c = p then none else some p) cs
  | e, none, c :: cs =>
    if [q, q, q] <+: c :: cs ∨ c = '#' ∨ c = ';' ∧ e = 0 then false
    else if isQuote c then passedOver q d e (some c) cs
    else passedOver q d (e + nesting c) none cs

theorem passedOver_string_cons {q p c : Char} {d : Int} (hc : c ≠ '\\') (e : Int)
    (cs : List Char) : passedOver q d e (some p) (c :: cs) =
      if [q, q, q] <+: c :: cs then p == q && e == d
      else passedOver q d e (if c = p then none else some p) cs := by
  rw [passedOver]
  · exact fun e => absurd e hc
  · exact fun _ _ e => absurd e hc

/-- Where the splitter stands along a scan: at which depth, and inside the string of a quote or
outside strings. -/
inductive Follows : ScanAt → Int → Option Char → Prop
  | code {d : Int} {cs : List Char} : Follows ⟨.code, d, cs⟩ d none
  | short {q : Char} {d : Int} {cs : List Char} (hq : isQuote q) :
      Follows ⟨.short q, d, cs⟩ d (some q)
  | long {q : Char} {d e : Int} {p : Option Char} {cs : List Char} (hq : isQuote q)
      (h : passedOver q d e p cs = true) : Follows ⟨.long q, d, cs⟩ e p

/-- The splitter cuts nothing in the triple-quoted strings that open behind a place. -/
def PassesStrings (x : ScanAt) : Prop :=
  ∀ q d cs, isQuote q → x.Visits ⟨.code, d, q :: q :: q :: cs⟩ → passedOver q d d (some q) cs = true

theorem PassesStrings.visits {x y : ScanAt} (hx : PassesStrings x) (h : x.Visits y) :
    PassesStrings y :=
  fun q d cs hq hy => hx q d cs hq (h.trans hy)

/-- A condition on the line alone: the splitter cuts nothing behind three equal quotes. -/
theorem passesStrings_of_line {line : List Char}
    (h : ∀ n ≤ line.length, (line.drop n).head?.all (fun q =>
      isQuote q → [q, q, q] <+: line.drop n →
        passedOver q (scan .code 0 (line.take n)).2 (scan .code 0 (line.take n)).2 (some q)
          (line.drop (n + 3))) = true) :
    PassesStrings ⟨.code, 0, line⟩ := by
  intro q d cs hq hvisits
  obtain ⟨before, hline⟩ := ScanAt.Visits.rest_isSuffix hvisits
  obtain rfl : before ++ q :: q :: q :: cs = line := hline
  -- the depth is that behind the text before the string
  have hdepth : scan .code 0 before = (.code, d) :=
    ScanAt.Visits.result_eq (ScanAt.Visits.of_append hvisits rfl)
  have hstring := h before.length (by simp)
  rw [List.drop_left, List.take_left, hdepth, ← List.drop_drop, List.drop_left] at hstring
  exact of_decide_eq_true hstring hq ⟨cs, rfl⟩

/-- The splitter makes of the line behind a place what the scan makes of it. -/
def AgreesBehind (x : ScanAt) : Prop :=
  ∀ {y : ScanAt} {e : Int} {p : Option Char}, x.Visits y → y.rest.length < x.rest.length →
    Follows y e p → Agrees y (pieces e p y.rest)

theorem AgreesBehind.next {x y : ScanAt} {e : Int} {p : Option Char} (hx : AgreesBehind x)
    (h : ScanAt.Step x y) (hy : Follows y e p) : Agrees y (pieces e p y.rest) :=
  hx (.single h) h.length_lt hy

section Follow

variable {d e : Int} {q : Char} {cs : List Char}

theorem agrees_code (hx : PassesStrings ⟨.code, d, cs⟩) (hbehind : AgreesBehind ⟨.code, d, cs⟩) :
    Agrees ⟨.code, d, cs⟩ (pieces d none cs) := by
  cases cs with
  | nil => exact .of_rest (pieces_ne_nil _ _ _) fun c hc => nomatch hc
  | cons c cs =>
    by_cases hc : c = '#'
    · subst hc
      rw [pieces_comment]
      exact .comment d cs
    by_cases hq : isQuote c = true
    · have hne : ∀ after, (⟨.code, d, c :: cs⟩ : ScanAt) ≠ ⟨.code, 0, ';' :: after⟩ := by
        rintro after e
        cases e
        exact Bool.noConfusion hq
      by_cases hlong : [c, c] <+: cs
      · obtain ⟨text, rfl⟩ := hlong
        have hstep : ScanAt.Step ⟨.code, d, c :: c :: c :: text⟩ ⟨.long c, d, text⟩ := .longOpen hq
        have hy := hbehind.next hstep (.long hq (hx c d text hq .refl))
        exact pieces_delimiter d hq text ▸ hy.skip hstep (w := [c, c, c]) rfl hne
      · have hstep := ScanAt.Step.shortOpen (d := d) hq hlong
        rw [pieces_quote d hq]
        exact (hbehind.next hstep (.short hq)).skip hstep (w := [c]) rfl hne
    have hcode : isQuote c = false := by simpa using hq
    have hstep : ScanAt.Step ⟨.code, d, c :: cs⟩ ⟨.code, d + nesting c, cs⟩ := .code hc hcode
    have hy := hbehind.next hstep .code
    by_cases hcut : c = ';' ∧ d = 0
    · obtain ⟨rfl, rfl⟩ := hcut
      rw [pieces_cut]
      exact hy.semicolon
    · rw [pieces_code d cs hc hcode fun e hd => hcut ⟨e, hd⟩]
      refine hy.skip hstep (w := [c]) rfl fun after e => hcut ?_
      cases e
      exact ⟨rfl, rfl⟩

theorem agrees_short (hq : isQuote q) (hbehind : AgreesBehind ⟨.short q, d, cs⟩) :
    Agrees ⟨.short q, d, cs⟩ (pieces d (some q) cs) := by
  have hne : ∀ after, (⟨.short q, d, cs⟩ : ScanAt) ≠ ⟨.code, 0, ';' :: after⟩ :=
    fun after e => by cases e
  match cs with
  | [] => exact .of_rest (pieces_ne_nil _ _ _) fun c hc => nomatch hc
  | c :: cs =>
    by_cases hc : c = '\\'
    · subst hc
      cases cs with
      | nil => exact .of_rest (pieces_ne_nil _ _ _) (by simp)
      | cons e cs =>
        rw [pieces]
        exact (hbehind.next .shortEscape (.short hq)).skip .shortEscape (w := ['\\', e]) rfl hne
    · rw [pieces_string_cons d hc]
      by_cases hcq : c = q
      · subst hcq
        rw [if_pos rfl]
        exact (hbehind.next (.shortClose hc) .code).skip (.shortClose hc) (w := [c]) rfl hne
      · rw [if_neg hcq]
        exact (hbehind.next (.shortText hcq hc) (.short hq)).skip (.shortText hcq hc) (w := [c]) rfl
          hne

theorem agrees_inside {p : Char} (hq : isQuote q) (h : passedOver q d e (some p) cs = true)
    (hbehind : AgreesBehind ⟨.long q, d, cs⟩) :
    Agrees ⟨.long q, d, cs⟩ (pieces e (some p) cs) := by
  have hescape := ne_escape_of_isQuote hq
  have hne : ∀ (cs after : List Char), (⟨.long q, d, cs⟩ : ScanAt) ≠ ⟨.code, 0, ';' :: after⟩ :=
    fun cs after e => by cases e
  match cs with
  | [] => exact .of_rest (pieces_ne_nil _ _ _) fun c hc => nomatch hc
  | c :: cs =>
    by_cases hc : c = '\\'
    · subst hc
      cases cs with
      | nil => exact .of_rest (pieces_ne_nil _ _ _) (by simp)
      | cons f cs =>
        -- the scan takes the two characters one by one
        rw [passedOver, Bool.and_eq_true, Bool.not_eq_true', decide_eq_false_iff_not] at h
        have hfirst : ScanAt.Step ⟨.long q, d, '\\' :: f :: cs⟩ ⟨.long q, d, f :: cs⟩ :=
          .longText fun hdelimiter => hescape (List.cons_prefix_cons.mp hdelimiter).1
        have hsecond : ScanAt.Step ⟨.long q, d, f :: cs⟩ ⟨.long q, d, cs⟩ := .longText h.1
        have hy := hbehind (.head hfirst (.single hsecond)) (Nat.lt_add_of_pos_right Nat.two_pos)
          (.long hq h.2)
        rw [pieces]
        exact (hy.skip hsecond (w := [f]) rfl (hne _)).skip hfirst (w := ['\\']) rfl (hne _)
    · rw [passedOver_string_cons hc] at h
      by_cases hdelimiter : [q, q, q] <+: c :: cs
      · rw [if_pos hdelimiter, Bool.and_eq_true, beq_iff_eq, beq_iff_eq] at h
        obtain ⟨rfl, rfl⟩ := h
        obtain ⟨text, htext⟩ := hdelimiter
        rw [← htext]
        have hstep : ScanAt.Step ⟨.long p, e, p :: p :: p :: text⟩ ⟨.code, e, text⟩ := .longClose
        rw [← htext] at hbehind
        have hy := hbehind.next hstep .code
        exact pieces_string_delimiter e hq text ▸ hy.skip hstep (w := [p, p, p]) rfl (hne _)
      · rw [if_neg hdelimiter] at h
        have hstep : ScanAt.Step ⟨.long q, d, c :: cs⟩ ⟨.long q, d, cs⟩ := .longText hdelimiter
        rw [pieces_string_cons e hc]
        exact (hbehind.next hstep (.long hq h)).skip hstep (w := [c]) rfl (hne _)

theorem agrees_outside (hq : isQuote q) (h : passedOver q d e none cs = true)
    (hbehind : AgreesBehind ⟨.long q, d, cs⟩) :
    Agrees ⟨.long q, d, cs⟩ (pieces e none cs) := by
  have hne : ∀ after, (⟨.long q, d, cs⟩ : ScanAt) ≠ ⟨.code, 0, ';' :: after⟩ :=
    fun after e => by cases e
  cases cs with
  | nil => exact .of_rest (pieces_ne_nil _ _ _) fun c hc => nomatch hc
  | cons c cs =>
    rw [passedOver] at h
    split at h
    · exact Bool.noConfusion h
    next hcut =>
    obtain ⟨hdelimiter, hcomment, hsemicolon⟩ := not_or.mp hcut |>.imp_right not_or.mp
    have hstep : ScanAt.Step ⟨.long q, d, c :: cs⟩ ⟨.long q, d, cs⟩ := .longText hdelimiter
    split at h
    · next hquote =>
      rw [pieces_quote e hquote]
      exact (hbehind.next hstep (.long hq h)).skip hstep (w := [c]) rfl hne
    · next hcode =>
      rw [pieces_code e cs hcomment (by simpa using hcode) fun h he => hsemicolon ⟨h, he⟩]
      exact (hbehind.next hstep (.long hq h)).skip hstep (w := [c]) rfl hne

end Follow

/-- **The splitter along a scan** makes of the rest of the line what the scan makes of it. -/
theorem Follows.agrees {x : ScanAt} {e : Int} {p : Option Char} (h : Follows x e p)
    (hx : PassesStrings x) : Agrees x (pieces e p x.rest) := by
  induction hn : x.rest.length using Nat.strong_induction_on generalizing x e p with
  | _ n ih =>
  subst hn
  have hbehind : AgreesBehind x := fun hvisits hlength hy =>
    ih _ hlength hy (hx.visits hvisits) rfl
  cases h with
  | code => exact agrees_code hx hbehind
  | short hq => exact agrees_short hq hbehind
  | @long q d e p cs hq h =>
    cases p with
    | none => exact agrees_outside hq h hbehind
    | some p => exact agrees_inside hq h hbehind

/-! ## One line -/

/-- **The splitter cuts the characters that the scan visits as code**, on a line in whose
triple-quoted strings it cuts nothing and finds the brackets closed: it splits at the semicolons of
code with no bracket open there and cuts off the line at the number sign at which the scan stops. So
it does neither inside a triple-quoted string. -/
theorem splitter_agrees {line : List Char} (h : PassesStrings ⟨.code, 0, line⟩) :
    (∀ before after, SplitsAt line before after ↔
      line = before ++ ';' :: after ∧ ScanAt.Scans line ⟨.code, 0, ';' :: after⟩) ∧
    (∀ before after, CutsAt line before after ↔
      line = before ++ '#' :: after ∧ ∃ d, ScanAt.Scans line ⟨.code, d, '#' :: after⟩) ∧
    ∀ q d c after, ScanAt.Scans line ⟨.long q, d, c :: after⟩ → ∀ before,
      ¬ SplitsAt line before after ∧ ¬ CutsAt line before after := by
  have hagrees : Agrees ⟨.code, 0, line⟩ (pieces 0 none line) := Follows.code.agrees h
  have hsplit : ∀ before after, SplitsAt line before after ↔
      line = before ++ ';' :: after ∧ ScanAt.Scans line ⟨.code, 0, ';' :: after⟩ :=
    fun before after => and_congr_right (hagrees.split before after)
  have hcut : ∀ before after, CutsAt line before after ↔
      line = before ++ '#' :: after ∧ ∃ d, ScanAt.Scans line ⟨.code, d, '#' :: after⟩ :=
    fun before after => and_congr_right (hagrees.cut before after)
  refine ⟨hsplit, hcut, fun q d c after hlong before => ⟨fun hs => ?_, fun hc => ?_⟩⟩
  · obtain ⟨-, hcode⟩ := (hsplit before after).mp hs
    cases ScanAt.Visits.unique hlong hcode rfl
  · obtain ⟨-, d', hcode⟩ := (hcut before after).mp hc
    cases ScanAt.Visits.unique hlong hcode rfl

/-- Two quotes inside a triple-quoted string, with brackets between them and a semicolon and a number
sign behind. -/
theorem splitter_agrees_quoted :
    let line := "x = F(\"\"\"a \"(b)\"; # c\"\"\"); y = G() # z".toList
    PassesStrings ⟨.code, 0, line⟩ ∧
    SplitsAt line "x = F(\"\"\"a \"(b)\"; # c\"\"\")".toList " y = G() # z".toList ∧
    ScanAt.Scans line ⟨.code, 0, "; y = G() # z".toList⟩ ∧
    CutsAt line "x = F(\"\"\"a \"(b)\"; # c\"\"\"); y = G() ".toList " z".toList ∧
    ∃ d, ScanAt.Scans line ⟨.code, d, "# z".toList⟩ := by
  intro line
  have h : PassesStrings ⟨.code, 0, line⟩ := passesStrings_of_line (by decide +kernel)
  obtain ⟨hsplit, hcut, -⟩ := splitter_agrees h
  have hs : SplitsAt line "x = F(\"\"\"a \"(b)\"; # c\"\"\")".toList " y = G() # z".toList :=
    ⟨by decide +kernel, ["x = F(\"\"\"a \"(b)\"; # c\"\"\")".toList], [" y = G() ".toList],
      List.cons_ne_nil _ _, List.cons_ne_nil _ _, by decide +kernel, rfl⟩
  have hc : CutsAt line "x = F(\"\"\"a \"(b)\"; # c\"\"\"); y = G() ".toList " z".toList :=
    ⟨by decide +kernel, by decide +kernel⟩
  exact ⟨h, hs, ((hsplit _ _).mp hs).2, hc, ((hcut _ _).mp hc).2⟩

/-- **A quote inside a triple-quoted string shows the splitter what follows.** It splits the line at
a semicolon inside the string, and a field is found there. -/
theorem not_splitter_agrees : ¬ ∀ line before after : List Char,
    (SplitsAt line before after ↔
      line = before ++ ';' :: after ∧ ScanAt.Scans line ⟨.code, 0, ';' :: after⟩) ∧
    (CutsAt line before after ↔
      line = before ++ '#' :: after ∧ ∃ d, ScanAt.Scans line ⟨.code, d, '#' :: after⟩) := by
  intro h
  have hsplit : SplitsAt "\"\"\"a\"; x = F()\"\"\"".toList "\"\"\"a\"".toList
      " x = F()\"\"\"".toList :=
    ⟨by decide +kernel, ["\"\"\"a\"".toList], [" x = F()\"\"\"".toList], List.cons_ne_nil _ _,
      List.cons_ne_nil _ _, by decide +kernel, rfl⟩
  -- the scan comes to the semicolon inside the string
  have hlong : ScanAt.Scans "\"\"\"a\"; x = F()\"\"\"".toList
      ⟨.long '"', 0, "; x = F()\"\"\"".toList⟩ :=
    .head (.longOpen rfl) (.head (.longText (by decide +kernel))
      (.single (.longText (by decide +kernel))))
  cases ScanAt.Visits.unique hlong ((h _ _ _).1.mp hsplit).2 rfl

end ModelTypings.Source
