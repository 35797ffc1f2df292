import ModelTypings.Proofs.Source.ClassLine
import ModelTypings.Proofs.Source.Pieces
import ModelTypings.Proofs.Text.Identifier

/-!
# The arguments of a class header

The argument list of a class as tokens: positional bases, with or without a subscript, and keyword
arguments. Where blanks stand between the tokens makes no difference to the reader.

* `Token`, `textOf`, `Expression`: tokens, and those of an expression with nested brackets;
* `Argument`, `argumentTokens`: arguments, and the tokens of an argument list;
* `IsSpaced`, `nested_of_isSpaced`, `splitArguments_filter`: tokens with blanks between them;
* `IsOnePiece`, `Expression.isOnePiece`: commas inside brackets do not split;
* `baseOfArgument_text`: the base of an argument is its dotted name;
* **`bases_of_isSpaced`**: the bases of a list are the dotted names of its positional arguments.
-/

namespace ModelTypings.Source

open Text

/-! ## Tokens -/

/-- A row of word characters, as a name or a number is. -/
structure Word where
  text : List Char
  ne_nil : text ≠ []
  valid : ∀ c ∈ text, isWord c = true

/-- The kinds of brackets in a header. -/
inductive Bracket
  | round
  | square

namespace Bracket

/-- The character that opens the brackets. -/
def opening : Bracket → Char
  | round => '('
  | square => '['

/-- The character that closes the brackets. -/
def closing : Bracket → Char
  | round => ')'
  | square => ']'

end Bracket

/-- A token of an argument list. -/
inductive Token
  | word (w : Word)
  | dot
  | comma
  | equals
  | opening (b : Bracket)
  | closing (b : Bracket)

/-- The token as it stands in a text. -/
def Token.text : Token → List Char
  | word w => w.text
  | dot => ['.']
  | comma => [',']
  | equals => ['=']
  | opening b => [b.opening]
  | closing b => [b.closing]

/-- The text of some tokens without blanks. -/
def textOf (ts : List Token) : List Char := ts.flatMap Token.text

/-- The tokens of an expression: words, dots and properly nested brackets, and commas inside those.
The flag tells that brackets stand around it. -/
inductive Expression : Bool → List Token → Prop
  | nil {inside : Bool} : Expression inside []
  | word {inside : Bool} (w : Word) {ts : List Token} (h : Expression inside ts) :
      Expression inside (.word w :: ts)
  | dot {inside : Bool} {ts : List Token} (h : Expression inside ts) :
      Expression inside (.dot :: ts)
  | comma {ts : List Token} (h : Expression true ts) : Expression true (.comma :: ts)
  | brackets {inside : Bool} (b : Bracket) {us vs : List Token} (hu : Expression true us)
      (hv : Expression inside vs) : Expression inside (.opening b :: (us ++ .closing b :: vs))

/-! ## Arguments -/

/-- An argument of a class header. -/
inductive Argument
  /-- A dotted name and what stands in square brackets behind it, if anything. -/
  | base (first : Word) (more : List Word) (subscript : Option { ts // Expression true ts })
  | keyword (name : Word) (value : { ts // Expression false ts })

/-- The tokens of a dotted name. -/
def dottedTokens (first : Word) (more : List Word) : List Token :=
  .word first :: more.flatMap fun w => [.dot, .word w]

/-- The tokens of a subscript. -/
def subscriptTokens : Option { ts // Expression true ts } → List Token
  | none => []
  | some ts => .opening .square :: (ts.val ++ [.closing .square])

namespace Argument

/-- The tokens of an argument. -/
def tokens : Argument → List Token
  | base first more subscript => dottedTokens first more ++ subscriptTokens subscript
  | keyword name value => .word name :: .equals :: value.val

/-- The base that a positional argument names. -/
def base? : Argument → Option String
  | base first more _ => some (String.ofList (textOf (dottedTokens first more)))
  | keyword .. => none

end Argument

/-- Some rows of tokens with commas between them. -/
def withCommas : List (List Token) → List Token
  | [] => []
  | [ts] => ts
  | ts :: us :: more => ts ++ .comma :: withCommas (us :: more)

/-- The tokens of an argument list, with or without a comma behind the last argument. -/
def argumentTokens (arguments : List Argument) (trailing : Bool) : List Token :=
  withCommas (arguments.map Argument.tokens ++ if trailing then [[]] else [])

/-! ## The characters of tokens -/

@[simp]
theorem textOf_nil : textOf [] = [] := rfl

@[simp]
theorem textOf_cons (t : Token) (ts : List Token) : textOf (t :: ts) = t.text ++ textOf ts := rfl

@[simp]
theorem textOf_append (ts us : List Token) : textOf (ts ++ us) = textOf ts ++ textOf us :=
  List.flatMap_append

theorem Bracket.closing?_opening (b : Bracket) : closing? b.opening = some b.closing := by
  cases b <;> rfl

theorem Token.mem_text {t : Token} {c : Char} (h : c ∈ t.text) : isBlank c = false ∧ c ≠ '#' := by
  cases t with
  | word w =>
    have hc := w.valid c h
    exact ⟨isBlank_of_isWord hc, ne_of_isSign (by decide) hc⟩
  | opening b => cases b <;> (obtain rfl := List.mem_singleton.mp h; decide)
  | closing b => cases b <;> (obtain rfl := List.mem_singleton.mp h; decide)
  | _ =>
    obtain rfl := List.mem_singleton.mp h
    decide

theorem mem_textOf {ts : List Token} {c : Char} (h : c ∈ textOf ts) :
    isBlank c = false ∧ c ≠ '#' := by
  obtain ⟨t, -, hc⟩ := List.mem_flatMap.mp h
  exact t.mem_text hc

theorem nesting_of_mem_word (w : Word) : ∀ c ∈ w.text, nesting c = 0 :=
  fun c hc => nesting_of_isWord (w.valid c hc)

/-! ## Nested brackets -/

theorem Nested.append {s t : List Char} (hs : Nested s) (ht : Nested t) : Nested (s ++ t) := by
  induction hs with
  | nil => exact ht
  | plain hc _ ih => exact .plain hc ih
  | @brackets b c u v hbc hu _ _ ihv =>
    rw [List.cons_append, List.append_assoc, List.cons_append]
    exact .brackets hbc hu ihv

theorem nested_of_forall {s : List Char} (h : ∀ c ∈ s, nesting c = 0) : Nested s :=
  nested_of_plain (List.all_eq_true.mpr fun c hc => decide_eq_true (h c hc))

theorem Expression.nested {inside : Bool} {ts : List Token} (h : Expression inside ts) :
    Nested (textOf ts) := by
  induction h with
  | nil => exact .nil
  | word w _ ih => exact (nested_of_forall (nesting_of_mem_word w)).append ih
  | dot _ ih => exact .plain (by decide) ih
  | comma _ ih => exact .plain (by decide) ih
  | brackets b _ _ ihu ihv =>
    rw [textOf_cons, textOf_append, textOf_cons]
    exact .brackets b.closing?_opening ihu ihv

/-- Up to any place of a nested text no more brackets are closed than opened. -/
theorem Nested.le_headerDepth {s : List Char} (h : Nested s) {p : List Char} (hp : p <+: s)
    (d : Int) : d ≤ headerDepth d p := by
  induction h generalizing p d with
  | nil => rw [List.prefix_nil.mp hp]; exact le_rfl
  | plain hc _ ih =>
    rcases List.prefix_cons_iff.mp hp with rfl | ⟨q, rfl, hq⟩
    · exact le_rfl
    · rw [headerDepth_cons, headerNesting_of_plain hc, Int.add_zero]
      exact ih hq d
  | @brackets b c u v hbc hu _ ihu ihv =>
    rcases List.prefix_cons_iff.mp hp with rfl | ⟨q, rfl, hq⟩
    · exact le_rfl
    have hpair : 0 ≤ headerNesting b ∧ headerNesting b + headerNesting c = 0 := by
      rcases closing?_eq_some hbc with ⟨rfl, rfl⟩ | ⟨rfl, rfl⟩ | ⟨rfl, rfl⟩ <;> decide
    rw [headerDepth_cons]
    -- the place lies inside the brackets, or behind what stands in them
    rcases List.prefix_or_prefix_of_prefix hq (List.prefix_append u (c :: v)) with hqu | ⟨r, rfl⟩
    · have := ihu hqu (d + headerNesting b)
      omega
    rw [headerDepth_append, hu.headerDepth_eq]
    rcases List.prefix_cons_iff.mp ((List.prefix_append_right_inj u).mp hq) with rfl | ⟨r, rfl, hr⟩
    · rw [headerDepth, List.foldl_nil]
      omega
    · rw [headerDepth_cons, Int.add_assoc, hpair.2, Int.add_zero]
      exact ihv hr d

/-! ## Blanks between tokens -/

/-- The character is no blank. -/
def isSolid (c : Char) : Bool := !isBlank c

/-- The text is some tokens with blanks around them, all on one line. -/
structure IsSpaced (x : List Char) (ts : List Token) : Prop where
  solid : x.filter isSolid = textOf ts
  line : '\n' ∉ x

theorem IsSpaced.append {x y : List Char} {ts us : List Token} (hx : IsSpaced x ts)
    (hy : IsSpaced y us) : IsSpaced (x ++ y) (ts ++ us) where
  solid := by rw [List.filter_append, hx.solid, hy.solid, textOf_append]
  line := by simp [hx.line, hy.line]

theorem not_isSolid {c : Char} (h : ¬ isSolid c = true) : isBlank c = true := by
  simpa [isSolid] using h

theorem nesting_of_not_isSolid {c : Char} (h : ¬ isSolid c = true) : nesting c = 0 :=
  nesting_of_isBlank (not_isSolid h)

theorem IsSpaced.not_mem_comment {x : List Char} {ts : List Token} (h : IsSpaced x ts) :
    '#' ∉ x := by
  intro hmem
  have hsolid : '#' ∈ x.filter isSolid := List.mem_filter.mpr ⟨hmem, by decide⟩
  rw [h.solid] at hsolid
  exact (mem_textOf hsolid).2 rfl

theorem headerDepth_filter (d : Int) (x : List Char) :
    headerDepth d (x.filter isSolid) = headerDepth d x := by
  induction x generalizing d with
  | nil => rfl
  | cons c cs ih =>
    by_cases hc : isSolid c = true
    · rw [List.filter_cons_of_pos hc, headerDepth_cons, headerDepth_cons, ih]
    · rw [List.filter_cons_of_neg hc, headerDepth_cons, headerNesting_of_isBlank (not_isSolid hc),
        Int.add_zero, ih]

/-- **Blanks do not change how brackets are nested.** -/
theorem nested_of_filter {s : List Char} (h : Nested s) {x : List Char}
    (hx : x.filter isSolid = s) : Nested x := by
  have hblanks : ∀ {w : List Char}, (∀ c ∈ w, ¬ isSolid c = true) → Nested w := fun hw =>
    nested_of_forall fun c hc => nesting_of_not_isSolid (hw c hc)
  induction h generalizing x with
  | nil => exact hblanks fun c hc => List.filter_eq_nil_iff.mp hx c hc
  | plain hc _ ih =>
    obtain ⟨w, y, rfl, hw, -, hy⟩ := List.filter_eq_cons_iff.mp hx
    exact (hblanks hw).append (.plain hc (ih hy))
  | brackets hbc _ _ ihu ihv =>
    obtain ⟨w, _, rfl, hw, -, hrest⟩ := List.filter_eq_cons_iff.mp hx
    obtain ⟨y, _, rfl, hy, hclosing⟩ := List.filter_eq_append_iff.mp hrest
    obtain ⟨v, z, rfl, hv, -, hz⟩ := List.filter_eq_cons_iff.mp hclosing
    have hinside : Nested (y ++ v) := (ihu hy).append (hblanks hv)
    have hbrackets := Nested.brackets hbc hinside (ihv hz)
    rw [List.append_assoc] at hbrackets
    exact (hblanks hw).append hbrackets

/-! ## Splitting at commas -/

theorem splitArguments_cons {d : Int} {c : Char} (h : ¬ (c = ',' ∧ d = 0)) (cs : List Char) :
    splitArguments d (c :: cs) = consFirst c (splitArguments (d + headerNesting c) cs) := by
  rw [splitArguments, if_neg h]

theorem splitArguments_ne_nil (d : Int) (s : List Char) : splitArguments d s ≠ [] := by
  fun_cases splitArguments d s <;> simp [consFirst_ne_nil]

/-- **Blanks in an argument list** go with the arguments that they stand in. -/
theorem splitArguments_filter (d : Int) (x : List Char) :
    splitArguments d (x.filter isSolid) = (splitArguments d x).map (List.filter isSolid) := by
  have hcons : ∀ (c : Char) {ps : List (List Char)}, ps ≠ [] →
      (consFirst c ps).map (List.filter isSolid) =
        if isSolid c then consFirst c (ps.map (List.filter isSolid))
        else ps.map (List.filter isSolid) := by
    intro c ps hps
    obtain ⟨p, ps, rfl⟩ := List.exists_cons_of_ne_nil hps
    simp only [consFirst, List.map_cons, List.filter_cons]
    split <;> rfl
  induction x generalizing d with
  | nil => rfl
  | cons c cs ih =>
    by_cases hcomma : c = ',' ∧ d = 0
    · obtain ⟨rfl, rfl⟩ := hcomma
      rw [List.filter_cons_of_pos (by decide), splitArguments, if_pos ⟨rfl, rfl⟩, splitArguments,
        if_pos ⟨rfl, rfl⟩, ih]
      rfl
    · rw [splitArguments_cons hcomma, hcons c (splitArguments_ne_nil _ _), ← ih]
      by_cases hc : isSolid c = true
      · rw [List.filter_cons_of_pos hc, splitArguments_cons hcomma, if_pos hc]
      · rw [List.filter_cons_of_neg hc, if_neg hc, headerNesting_of_isBlank (not_isSolid hc),
          Int.add_zero]

/-- The text is not split, and leaves the depth as it is. -/
def IsOnePiece (d : Int) (s : List Char) : Prop :=
  ∀ rest, splitArguments d (s ++ rest) = s.foldr consFirst (splitArguments d rest)

theorem IsOnePiece.append {d : Int} {s t : List Char} (hs : IsOnePiece d s) (ht : IsOnePiece d t) :
    IsOnePiece d (s ++ t) := by
  intro rest
  rw [List.append_assoc, hs, ht, List.foldr_append]

theorem isOnePiece_plain {s : List Char} (h : ∀ c ∈ s, nesting c = 0 ∧ c ≠ ',') (d : Int) :
    IsOnePiece d s := by
  intro rest
  induction s with
  | nil => rfl
  | cons c cs ih =>
    obtain ⟨hc, hcs⟩ := List.forall_mem_cons.mp h
    rw [List.cons_append, splitArguments_cons fun hcomma => hc.2 hcomma.1,
      headerNesting_of_plain hc.1, Int.add_zero, ih hcs, List.foldr_cons]

theorem isOnePiece_word (w : Word) (d : Int) : IsOnePiece d w.text :=
  isOnePiece_plain
    (fun c hc => ⟨nesting_of_mem_word w c hc, ne_of_isSign (by decide) (w.valid c hc)⟩) d

theorem isOnePiece_sign {c : Char} (h : nesting c = 0 ∧ c ≠ ',') (d : Int) : IsOnePiece d [c] :=
  isOnePiece_plain (fun a ha => by rwa [List.mem_singleton.mp ha]) d

/-- **An expression is not split**: its commas stand inside brackets, where the depth is not zero. -/
theorem Expression.isOnePiece {inside : Bool} {ts : List Token} (h : Expression inside ts) {d : Int}
    (hd : 0 ≤ d) (hinside : inside = true → 0 < d) : IsOnePiece d (textOf ts) := by
  induction h generalizing d with
  | nil => exact fun _ => rfl
  | word w _ ih => exact (isOnePiece_word w d).append (ih hd hinside)
  | dot _ ih => exact (isOnePiece_sign (by decide) d).append (ih hd hinside)
  | comma _ ih =>
    intro rest
    have hpos := hinside rfl
    have hcomma := ih hd hinside rest
    rw [textOf_cons, Token.text, List.singleton_append, List.cons_append,
      splitArguments_cons (by omega), show d + headerNesting ',' = d from Int.add_zero d, hcomma,
      List.foldr_cons]
  | @brackets inside b us vs _ _ ihu ihv =>
    intro rest
    have hopening : headerNesting b.opening = 1 ∧ b.opening ≠ ',' := by cases b <;> decide
    have hclosing : headerNesting b.closing = -1 ∧ b.closing ≠ ',' := by cases b <;> decide
    have htext : textOf (.opening b :: (us ++ .closing b :: vs)) ++ rest =
        b.opening :: (textOf us ++ (b.closing :: (textOf vs ++ rest))) := by
      simp [Token.text]
    have hback : d + 1 + -1 = d := by omega
    rw [htext, splitArguments_cons fun h => hopening.2 h.1, hopening.1,
      ihu (by omega) (fun _ => by omega), splitArguments_cons fun h => hclosing.2 h.1, hclosing.1,
      hback, ihv hd hinside]
    simp [Token.text, List.foldr_append]

/-! ## Arguments as texts -/

theorem Expression.append {inside : Bool} {ts us : List Token} (hts : Expression inside ts)
    (hus : Expression inside us) : Expression inside (ts ++ us) := by
  induction hts with
  | nil => exact hus
  | word w _ ih => exact .word w (ih hus)
  | dot _ ih => exact .dot (ih hus)
  | comma _ ih => exact .comma (ih hus)
  | brackets b hu _ _ ihv =>
    rw [List.cons_append, List.append_assoc, List.cons_append]
    exact .brackets b hu (ihv hus)

theorem expression_dotted (first : Word) (more : List Word) :
    Expression false (dottedTokens first more) := by
  refine .word first ?_
  induction more with
  | nil => exact .nil
  | cons w more ih => exact .dot (.word w ih)

theorem expression_subscript (subscript : Option { ts // Expression true ts }) :
    Expression false (subscriptTokens subscript) := by
  cases subscript with
  | none => exact .nil
  | some ts => exact .brackets .square ts.property .nil

theorem expression_base (first : Word) (more : List Word)
    (subscript : Option { ts // Expression true ts }) :
    Expression false (Argument.base first more subscript).tokens :=
  (expression_dotted first more).append (expression_subscript subscript)

theorem Argument.isOnePiece (a : Argument) : IsOnePiece 0 (textOf a.tokens) := by
  cases a with
  | base first more subscript =>
    exact (expression_base first more subscript).isOnePiece le_rfl fun h => Bool.noConfusion h
  | keyword name value =>
    exact (isOnePiece_word name 0).append ((isOnePiece_sign (by decide) 0).append
      (value.property.isOnePiece le_rfl fun h => Bool.noConfusion h))

theorem Argument.nested (a : Argument) : Nested (textOf a.tokens) := by
  cases a with
  | base first more subscript => exact (expression_base first more subscript).nested
  | keyword name value =>
    exact (nested_of_forall (nesting_of_mem_word name)).append (.plain (by decide)
      value.property.nested)

theorem Expression.not_mem_equals {inside : Bool} {ts : List Token} (h : Expression inside ts) :
    '=' ∉ textOf ts := by
  induction h with
  | nil => exact List.not_mem_nil
  | word w _ ih =>
    have hw : '=' ∉ w.text := fun hmem => ne_of_isSign (by decide) (w.valid _ hmem) rfl
    simp [Token.text, hw, ih]
  | dot _ ih => simp [Token.text, ih]
  | comma _ ih => simp [Token.text, ih]
  | brackets b _ _ ihu ihv =>
    have hb : '=' ≠ b.opening ∧ '=' ≠ b.closing := by cases b <;> decide
    simp [Token.text, ihu, ihv, hb]

theorem ne_bracket_of_mem_dotted {first : Word} {more : List Word} {c : Char}
    (h : c ∈ textOf (dottedTokens first more)) : (c != '[') = true := by
  have hword : ∀ w : Word, c ∈ w.text → (c != '[') = true := fun w hc =>
    bne_iff_ne.mpr (ne_of_isSign (by decide) (w.valid c hc))
  obtain ⟨t, ht, hc⟩ := List.mem_flatMap.mp h
  rcases List.mem_cons.mp ht with rfl | ht
  · exact hword first hc
  obtain ⟨w, -, ht⟩ := List.mem_flatMap.mp ht
  rcases List.mem_cons.mp ht with rfl | ht
  · obtain rfl := List.mem_singleton.mp hc
    decide
  · obtain rfl := List.mem_singleton.mp ht
    exact hword w hc

theorem head_subscript (subscript : Option { ts // Expression true ts }) :
    ∀ c ∈ (textOf (subscriptTokens subscript)).head?, (c != '[') = false := by
  cases subscript with
  | none => exact fun c hc => nomatch hc
  | some ts =>
    intro c hc
    obtain rfl := Option.some.inj hc
    decide

theorem filter_textOf (ts : List Token) : (textOf ts).filter isSolid = textOf ts :=
  List.filter_eq_self.mpr fun c hc => by simp [isSolid, (mem_textOf hc).1]

/-- Blanks in an argument make no other base of it. -/
theorem baseOfArgument_filter (s : List Char) :
    baseOfArgument (s.filter isSolid) = baseOfArgument s := by
  have hsolid : ∀ t, baseOfArgument t =
      if (t.filter isSolid).isEmpty || (t.filter isSolid).contains '=' then none
      else some (String.ofList ((t.filter isSolid).takeWhile (· != '['))) := fun _ => rfl
  rw [hsolid, hsolid s, List.filter_filter]
  simp only [Bool.and_self]

/-- **The base of an argument is its dotted name**, if it is positional. -/
theorem baseOfArgument_text (a : Argument) : baseOfArgument (textOf a.tokens) = a.base? := by
  have hbase : baseOfArgument (textOf a.tokens) =
      if (textOf a.tokens).isEmpty || (textOf a.tokens).contains '=' then none
      else some (String.ofList ((textOf a.tokens).takeWhile (· != '['))) := by
    have h := filter_textOf a.tokens
    rw [baseOfArgument, show (textOf a.tokens).filter (fun c => !isBlank c) = _ from h]
  rw [hbase]
  cases a with
  | base first more subscript =>
    have hne : (textOf (Argument.base first more subscript).tokens).isEmpty = false := by
      simp [Argument.tokens, dottedTokens, Token.text, first.ne_nil]
    have hequals : (textOf (Argument.base first more subscript).tokens).contains '=' = false := by
      simpa using (expression_base first more subscript).not_mem_equals
    rw [hne, hequals, Bool.or_false, if_neg Bool.false_ne_true, Argument.tokens, textOf_append,
      (span_of_boundary (fun c => ne_bracket_of_mem_dotted) (head_subscript subscript)).1]
    rfl
  | keyword name value =>
    have hequals : (textOf (Argument.keyword name value).tokens).contains '=' = true := by
      simp [Argument.tokens, Token.text]
    rw [hequals, Bool.or_true, if_pos rfl]
    rfl

/-! ## Argument lists -/

theorem foldr_consFirst (w p : List Char) (ps : List (List Char)) :
    w.foldr consFirst (p :: ps) = (w ++ p) :: ps := by
  induction w with
  | nil => rfl
  | cons c w ih => rw [List.foldr_cons, ih, consFirst, List.cons_append]

/-- Pieces with commas between them are told apart again. -/
theorem splitArguments_joinWith {ps : List (List Char)} (hps : ps ≠ [])
    (h : ∀ p ∈ ps, IsOnePiece 0 p) : splitArguments 0 (joinWith ',' ps) = ps := by
  induction ps with
  | nil => exact absurd rfl hps
  | cons p ps ih =>
    obtain ⟨hp, hmore⟩ := List.forall_mem_cons.mp h
    cases ps with
    | nil =>
      have hone := hp []
      rw [List.append_nil, splitArguments, foldr_consFirst, List.append_nil] at hone
      exact hone
    | cons q ps =>
      rw [joinWith, hp, splitArguments, if_pos ⟨rfl, rfl⟩, ih (List.cons_ne_nil _ _) hmore,
        foldr_consFirst, List.append_nil]

theorem textOf_withCommas (rows : List (List Token)) :
    textOf (withCommas rows) = joinWith ',' (rows.map textOf) := by
  induction rows with
  | nil => rfl
  | cons ts rows ih =>
    cases rows with
    | nil => rfl
    | cons us rows =>
      rw [withCommas, textOf_append, textOf_cons, ih]
      rfl

theorem nested_joinWith {ps : List (List Char)} (h : ∀ p ∈ ps, Nested p) :
    Nested (joinWith ',' ps) := by
  induction ps with
  | nil => exact .nil
  | cons p ps ih =>
    obtain ⟨hp, hmore⟩ := List.forall_mem_cons.mp h
    cases ps with
    | nil => exact hp
    | cons q ps => exact hp.append (.plain (by decide) (ih hmore))

section Lists

variable (arguments : List Argument) (trailing : Bool)

theorem forall_rows {P : List Char → Prop} (hnil : P []) (h : ∀ a : Argument, P (textOf a.tokens)) :
    ∀ p ∈ (arguments.map Argument.tokens ++ if trailing then [[]] else []).map textOf, P p := by
  intro p hp
  obtain ⟨ts, hts, rfl⟩ := List.mem_map.mp hp
  rcases List.mem_append.mp hts with hts | hts
  · obtain ⟨a, -, rfl⟩ := List.mem_map.mp hts
    exact h a
  · split at hts
    · rw [List.mem_singleton.mp hts]
      exact hnil
    · exact nomatch hts

theorem nested_argumentTokens : Nested (textOf (argumentTokens arguments trailing)) := by
  rw [argumentTokens, textOf_withCommas]
  exact nested_joinWith (forall_rows arguments trailing .nil Argument.nested)

theorem bases_argumentTokens :
    (splitArguments 0 (textOf (argumentTokens arguments trailing))).filterMap baseOfArgument =
      arguments.filterMap Argument.base? := by
  have hpieces := forall_rows arguments trailing (P := IsOnePiece 0) (fun _ => rfl)
    Argument.isOnePiece
  have hbases : ∀ as : List Argument,
      ((as.map Argument.tokens).map textOf).filterMap baseOfArgument =
        as.filterMap Argument.base? := fun as => by
    rw [List.map_map, List.filterMap_map]
    exact List.filterMap_congr fun a _ => baseOfArgument_text a
  have hnil : baseOfArgument [] = none := rfl
  rw [argumentTokens, textOf_withCommas]
  by_cases hrows : (arguments.map Argument.tokens ++ if trailing then [[]] else []) = []
  · obtain ⟨harguments, -⟩ := List.append_eq_nil_iff.mp hrows
    rw [hrows, List.map_eq_nil_iff.mp harguments]
    rfl
  · rw [splitArguments_joinWith (List.map_eq_nil_iff.not.mpr hrows) hpieces, List.map_append,
      List.filterMap_append, hbases]
    cases trailing with
    | false => rw [if_neg Bool.false_ne_true, List.map_nil, List.filterMap_nil, List.append_nil]
    | true =>
      rw [if_pos rfl, List.map_cons, List.map_nil, textOf_nil, List.filterMap_cons_none hnil,
        List.filterMap_nil, List.append_nil]

/-- **The bases of an argument list** are the dotted names of its positional arguments, whatever
blanks stand between its tokens. -/
theorem bases_of_isSpaced {x : List Char} (h : IsSpaced x (argumentTokens arguments trailing)) :
    (splitArguments 0 x).filterMap baseOfArgument = arguments.filterMap Argument.base? := by
  have hblanks : (splitArguments 0 x).filterMap baseOfArgument =
      ((splitArguments 0 x).map (List.filter isSolid)).filterMap baseOfArgument := by
    rw [List.filterMap_map]
    exact List.filterMap_congr fun p _ => (baseOfArgument_filter p).symm
  rw [hblanks, ← splitArguments_filter, h.solid, bases_argumentTokens]

theorem nested_of_isSpaced {x : List Char} (h : IsSpaced x (argumentTokens arguments trailing)) :
    Nested x := nested_of_filter (nested_argumentTokens arguments trailing) h.solid

end Lists

end ModelTypings.Source
