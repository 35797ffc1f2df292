import ModelTypings.Proofs.Source.Arguments

/-!
# Class headers laid out over lines

The argument list of a class may go over several lines, with blanks between its tokens, blank lines
and comments. The header joined from these lines says the same in every layout.

* `Row`, `Layout`, `Layout.lines`: the tokens of an argument list on lines;
* `joinedHeader`: the lines of a header without comments and outer blanks, joined by blanks;
* `HeaderText.Holds`, `HeaderText.Holds.add`: a header that is open, one line more;
* `HeaderText.Holds.collect`: the lines up to the one that closes the header, by induction on them;
* `Layout.collect`, `HeaderText.Closes.ofText?`: all lines of a header, and what it declares;
* **`collectHeader_layout`**: the header of a class is read back from every layout.
-/

namespace ModelTypings.Source

open Text

/-! ## Layouts -/

/-- Blanks inside a line. -/
structure Gap extends Blanks where
  line : '\n' ∉ text

/-- Some tokens on a line, each behind blanks, then blanks and perhaps a comment. -/
structure Row where
  tokens : List (Gap × Token)
  blanks : Gap
  comment : Option (List Char)

/-- A comment, of any text, or none. -/
def commentText : Option (List Char) → List Char
  | none => []
  | some text => '#' :: text

namespace Row

/-- The tokens on the line. -/
def tokenList (r : Row) : List Token := r.tokens.map Prod.snd

/-- The line without its comment. -/
def code (r : Row) : List Char :=
  r.tokens.flatMap (fun p => p.1.text ++ p.2.text) ++ r.blanks.text

/-- The line with its comment. -/
def text (r : Row) : List Char := r.code ++ commentText r.comment

end Row

/-- The tokens of an argument list on lines. -/
structure Layout (ts : List Token) where
  /-- The lines that end inside the brackets. -/
  rows : List Row
  /-- The line of the closing bracket, up to this. Its comment stands behind the colon. -/
  last : Row
  /-- The blanks behind the colon. -/
  ending : Gap
  tokens_eq : rows.flatMap Row.tokenList ++ last.tokenList = ts

/-- The line that closes a header. -/
def closingLine (last : Row) (ending : Gap) : List Char :=
  last.code ++ ')' :: ':' :: (ending.text ++ commentText last.comment)

/-- A class header up to its opening bracket. -/
def openingOf (n : Identifier) : List Char := classWord ++ ' ' :: (n.text ++ ['('])

/-- The lines of the header of a class. -/
def Layout.lines {ts : List Token} (l : Layout ts) (n : Identifier) : List (List Char) :=
  match l.rows with
  | [] => [openingOf n ++ closingLine l.last l.ending]
  | r :: rows => (openingOf n ++ r.text) :: (rows.map Row.text ++ [closingLine l.last l.ending])

/-- The lines of a header without comments and outer blanks, joined by blanks. -/
def joinedHeader (lines : List (List Char)) : List Char :=
  joinWith ' ' (lines.map fun line => trim (withoutComment line))

/-! ## Lines as code -/

theorem isSpaced_blanks {w : List Char} (hw : ∀ c ∈ w, isBlank c = true) (hline : '\n' ∉ w) :
    IsSpaced w [] where
  solid := List.filter_eq_nil_iff.mpr fun c hc => by simp [isSolid, hw c hc]
  line := hline

theorem isSpaced_blank : IsSpaced [' '] [] := ⟨rfl, by decide⟩

theorem Gap.isSpaced (w : Gap) : IsSpaced w.text [] := isSpaced_blanks w.valid w.line

theorem Token.isSpaced (t : Token) : IsSpaced t.text [t] where
  solid := by
    have htext : textOf [t] = t.text := List.append_nil _
    rw [htext, ← htext, filter_textOf]
  line hmem := absurd (t.mem_text hmem).1 (by decide)

theorem Row.isSpaced (r : Row) : IsSpaced r.code r.tokenList := by
  have htokens : ∀ ps : List (Gap × Token),
      IsSpaced (ps.flatMap fun p => p.1.text ++ p.2.text) (ps.map Prod.snd) := by
    intro ps
    induction ps with
    | nil => exact isSpaced_blanks (fun c hc => nomatch hc) List.not_mem_nil
    | cons p ps ih => exact ((p.1.isSpaced.append p.2.isSpaced).append ih)
  have hrow := (htokens r.tokens).append r.blanks.isSpaced
  rwa [List.append_nil] at hrow

theorem IsSpaced.of_blanks {v w : Blanks} {x : List Char} {ts : List Token}
    (h : IsSpaced (v.text ++ (x ++ w.text)) ts) : IsSpaced x ts where
  solid := by
    have hnone : ∀ w : Blanks, w.text.filter isSolid = [] := fun w =>
      List.filter_eq_nil_iff.mpr fun c hc => by simp [isSolid, w.valid c hc]
    have hsolid := h.solid
    rwa [List.filter_append, List.filter_append, hnone, hnone, List.append_nil,
      List.nil_append] at hsolid
  line hmem := h.line (by simp [hmem])

theorem IsSpaced.trimStart {x : List Char} {ts : List Token} (h : IsSpaced x ts) :
    IsSpaced (trimStart x) ts := by
  refine IsSpaced.of_blanks (v := blanksOf x) (w := ⟨[], fun c hc => nomatch hc⟩) ?_
  rwa [List.append_nil, blanksOf_append_trimStart]

theorem IsSpaced.trimEnd {x : List Char} {ts : List Token} (h : IsSpaced x ts) :
    IsSpaced (trimEnd x) ts := by
  obtain ⟨w, hw, hblank⟩ := exists_trimEnd x
  refine IsSpaced.of_blanks (v := ⟨[], fun c hc => nomatch hc⟩) (w := ⟨w, hblank⟩) ?_
  rwa [List.nil_append, ← hw]

theorem withoutComment_append_comment {code : List Char} (h : '#' ∉ code)
    (comment : Option (List Char)) : withoutComment (code ++ commentText comment) = code := by
  refine (span_of_boundary (fun c hc => bne_iff_ne.mpr (ne_of_mem_of_not_mem hc h)) ?_).1
  cases comment with
  | none => exact fun c hc => nomatch hc
  | some text =>
    intro c hc
    obtain rfl := Option.some.inj hc
    decide

theorem withoutComment_closingLine {before : List Char} (h : '#' ∉ before) (last : Row)
    (ending : Gap) : withoutComment (before ++ closingLine last ending) =
      before ++ (last.code ++ ')' :: ':' :: ending.text) := by
  have hcode : '#' ∉ before ++ (last.code ++ ')' :: ':' :: ending.text) := by
    simp [h, last.isSpaced.not_mem_comment, ending.isSpaced.not_mem_comment]
  have happend : before ++ closingLine last ending =
      (before ++ (last.code ++ ')' :: ':' :: ending.text)) ++ commentText last.comment := by
    simp [closingLine]
  rw [happend, withoutComment_append_comment hcode]

theorem not_mem_openingOf (n : Identifier) : '#' ∉ openingOf n := by
  have hname : '#' ∉ n.text := fun hmem => ne_of_isSign (by decide) (n.isWord_of_mem _ hmem) rfl
  simp [openingOf, classWord, hname]

theorem trim_openingOf (n : Identifier) (s : List Char) :
    trim (openingOf n ++ s) = openingOf n ++ trimEnd s := by
  have hbracket : ∀ t, openingOf n ++ t = classWord ++ ((' ' :: n.text) ++ '(' :: t) := by
    simp [openingOf]
  rw [hbracket, trim_classWord_append, trimEnd_append_cons (by decide), ← hbracket]

theorem trimEnd_closing (s : List Char) (w : Gap) :
    trimEnd (s ++ ')' :: ':' :: w.text) = s ++ [')', ':'] := by
  have hcolon : s ++ ')' :: ':' :: w.text = (s ++ [')']) ++ ':' :: w.text := by simp
  rw [hcolon, trimEnd_append_cons (by decide), trimEnd_eq_nil_iff.mpr w.valid, List.append_assoc]
  rfl

theorem trim_closing (s : List Char) (w : Gap) :
    trim (s ++ ')' :: ':' :: w.text) = trimStart s ++ [')', ':'] := by
  rw [trim, trimStart_append_cons (by decide), trimEnd_closing]

/-! ## Depth -/

theorem headerDepth_eq_add (d : Int) (s : List Char) : headerDepth d s = d + headerDepth 0 s := by
  induction s generalizing d with
  | nil => exact (Int.add_zero d).symm
  | cons c cs ih =>
    rw [headerDepth_cons, headerDepth_cons, ih, ih (0 + headerNesting c)]
    omega

theorem IsSpaced.headerDepth_eq {x : List Char} {ts : List Token} (h : IsSpaced x ts) (d : Int) :
    headerDepth d x = d + headerDepth 0 (textOf ts) := by
  rw [← headerDepth_filter, h.solid, headerDepth_eq_add]

theorem headerDepth_openingOf (n : Identifier) : headerDepth 0 (openingOf n) = 1 := by
  have hname : ∀ d, headerDepth d n.text = d := headerDepth_of_forall fun c hc =>
    headerNesting_of_plain (nesting_of_isWord (n.isWord_of_mem c hc))
  have hword : headerDepth 0 classWord = 0 := by decide
  rw [openingOf, headerDepth_append, hword, headerDepth_cons, headerDepth_append, hname]
  rfl

theorem headerDepth_closing (d : Int) (w : Gap) : headerDepth d (')' :: ':' :: w.text) = d - 1 := by
  rw [headerDepth_cons, headerDepth_cons, w.isSpaced.headerDepth_eq]
  show d + -1 + 0 + 0 = d - 1
  omega

/-! ## A header from line to line -/

/-- The header of a class is open, with some tokens of its argument list. -/
def HeaderText.Holds (h : HeaderText) (n : Identifier) (ts : List Token) : Prop :=
  ∃ x, h.text = openingOf n ++ x ∧ IsSpaced x ts ∧ h.depth = 1 + headerDepth 0 (textOf ts)

/-- The header of a class is complete, with the tokens of its argument list. -/
def HeaderText.Closes (h : HeaderText) (n : Identifier) (ts : List Token) : Prop :=
  ∃ x, h.text = openingOf n ++ (x ++ [')', ':']) ∧ IsSpaced x ts ∧
    h.depth = headerDepth 0 (textOf ts)

namespace HeaderText

variable {n : Identifier} {ts : List Token}

theorem add_empty (line : List Char) : HeaderText.add {} line =
    ⟨trim (withoutComment line), headerDepth 0 (withoutComment line)⟩ := rfl

theorem holds_opening (n : Identifier) (r : Row) :
    (HeaderText.add {} (openingOf n ++ r.text)).Holds n r.tokenList := by
  have hcode : withoutComment (openingOf n ++ r.text) = openingOf n ++ r.code := by
    rw [Row.text, ← List.append_assoc, withoutComment_append_comment]
    simp [not_mem_openingOf, r.isSpaced.not_mem_comment]
  rw [add_empty, hcode, trim_openingOf]
  refine ⟨_, rfl, r.isSpaced.trimEnd, ?_⟩
  rw [headerDepth_append, headerDepth_openingOf, r.isSpaced.headerDepth_eq]

theorem closes_opening (n : Identifier) (last : Row) (ending : Gap) :
    (HeaderText.add {} (openingOf n ++ closingLine last ending)).Closes n last.tokenList := by
  rw [add_empty, withoutComment_closingLine (not_mem_openingOf n), trim_openingOf, trimEnd_closing]
  refine ⟨_, rfl, last.isSpaced, ?_⟩
  rw [headerDepth_append, headerDepth_openingOf, headerDepth_append, headerDepth_closing,
    last.isSpaced.headerDepth_eq]
  exact (by omega : ∀ a : Int, 1 + a - 1 = a) _

/-- Inside the brackets of a nested text a header goes on, since no more are closed than opened. -/
theorem Holds.isComplete_eq_false {h : HeaderText} (hh : h.Holds n ts) {s : List Char}
    (hnested : Nested s) (hpart : textOf ts <+: s) : h.isComplete = false := by
  obtain ⟨x, -, -, hdepth⟩ := hh
  have hpos := hnested.le_headerDepth hpart 0
  rw [isComplete, hdepth]
  exact decide_eq_false (by omega)

theorem Closes.isComplete_eq_true {h : HeaderText} (hh : h.Closes n ts)
    (hnested : Nested (textOf ts)) : h.isComplete = true := by
  obtain ⟨x, -, -, hdepth⟩ := hh
  rw [isComplete, hdepth]
  exact decide_eq_true (hnested.headerDepth_eq 0).le

theorem Holds.add_eq {h : HeaderText} (hh : h.Holds n ts) (line : List Char) : h.add line =
    ⟨h.text ++ ' ' :: trim (withoutComment line), headerDepth h.depth (withoutComment line)⟩ := by
  obtain ⟨x, htext, -⟩ := hh
  have hne : h.text.isEmpty = false := by
    rw [htext]
    rfl
  rw [HeaderText.add, hne, if_neg Bool.false_ne_true, List.append_assoc]
  rfl

/-- **One more line** of a header that goes on. -/
theorem Holds.add {h : HeaderText} (hh : h.Holds n ts) (r : Row) :
    (h.add r.text).Holds n (ts ++ r.tokenList) := by
  rw [hh.add_eq, Row.text, withoutComment_append_comment r.isSpaced.not_mem_comment]
  obtain ⟨x, htext, hx, hdepth⟩ := hh
  refine ⟨x ++ ([' '] ++ trim r.code), by simp [htext],
    hx.append (isSpaced_blank.append r.isSpaced.trimStart.trimEnd), ?_⟩
  rw [hdepth, r.isSpaced.headerDepth_eq, textOf_append, headerDepth_append,
    headerDepth_eq_add (headerDepth 0 (textOf ts))]
  exact Int.add_assoc ..

/-- **The line that closes a header.** -/
theorem Holds.closes {h : HeaderText} (hh : h.Holds n ts) (last : Row) (ending : Gap) :
    (h.add (closingLine last ending)).Closes n (ts ++ last.tokenList) := by
  have hcode : withoutComment (closingLine last ending) = last.code ++ ')' :: ':' :: ending.text :=
    withoutComment_closingLine (List.not_mem_nil : '#' ∉ []) last ending
  rw [hh.add_eq, hcode, trim_closing]
  obtain ⟨x, htext, hx, hdepth⟩ := hh
  refine ⟨x ++ ([' '] ++ trimStart last.code), by simp [htext],
    hx.append (isSpaced_blank.append last.isSpaced.trimStart), ?_⟩
  rw [hdepth, headerDepth_append, headerDepth_closing, last.isSpaced.headerDepth_eq, textOf_append,
    headerDepth_append, headerDepth_eq_add (headerDepth 0 (textOf ts)), Int.add_assoc]
  exact (by omega : ∀ a : Int, 1 + a - 1 = a) _

theorem joinWith_append_cons (a b : List Char) (ps : List (List Char)) :
    joinWith ' ' ((a ++ ' ' :: b) :: ps) = joinWith ' ' (a :: b :: ps) := by
  cases ps with
  | nil => rfl
  | cons p ps => simp [joinWith]

/-- **The rest of a header** up to the line that closes it. -/
theorem Holds.collect {h : HeaderText} (hh : h.Holds n ts) (rows : List Row) (last : Row)
    (ending : Gap)
    (hnested : Nested (textOf (ts ++ (rows.flatMap Row.tokenList ++ last.tokenList))))
    (index : Nat) (below : List (List Char)) :
    ∃ g : HeaderText, g.Closes n (ts ++ (rows.flatMap Row.tokenList ++ last.tokenList)) ∧
      h.collect index (rows.map Row.text ++ closingLine last ending :: below) =
        some (g.text, index + rows.length + 1) ∧
      g.text = joinWith ' ' (h.text ::
        (rows.map Row.text ++ [closingLine last ending]).map fun line => trim (withoutComment line)) := by
  induction rows generalizing h ts index with
  | nil =>
    have hcloses := hh.closes last ending
    refine ⟨_, hcloses, ?_, ?_⟩
    · rw [List.map_nil, List.nil_append, HeaderText.collect,
        if_pos (hcloses.isComplete_eq_true hnested)]
      rfl
    · rw [hh.add_eq]
      rfl
  | cons r rows ih =>
    have hadd := hh.add r
    rw [List.flatMap_cons, List.append_assoc, ← List.append_assoc ts] at hnested
    have hopen : (h.add r.text).isComplete = false := by
      refine hadd.isComplete_eq_false hnested ?_
      rw [textOf_append (ts ++ r.tokenList)]
      exact List.prefix_append _ _
    obtain ⟨g, hg, hcollect, htext⟩ := ih hadd hnested (index + 1)
    rw [List.append_assoc, ← List.append_assoc r.tokenList, ← List.flatMap_cons] at hg
    refine ⟨g, hg, ?_, ?_⟩
    · rw [List.map_cons, List.cons_append, HeaderText.collect, hopen, if_neg Bool.false_ne_true,
        hcollect, List.length_cons]
      exact congrArg (fun k => some (g.text, k)) (by omega)
    · rw [htext, hh.add_eq, joinWith_append_cons]
      rfl

end HeaderText

/-- **All lines of a header** are collected, from the first one on. -/
theorem Layout.collect {ts : List Token} (l : Layout ts) (n : Identifier)
    (hnested : Nested (textOf ts)) (index : Nat) (below : List (List Char)) :
    ∃ g : HeaderText, g.Closes n ts ∧
      HeaderText.collect {} index (l.lines n ++ below) =
        some (g.text, index + (l.lines n).length) ∧ g.text = joinedHeader (l.lines n) := by
  obtain ⟨rows, last, ending, htokens⟩ := l
  cases rows with
  | nil =>
    rw [List.flatMap_nil, List.nil_append] at htokens
    have hcloses := HeaderText.closes_opening n last ending
    rw [htokens] at hcloses
    refine ⟨_, hcloses, ?_, rfl⟩
    rw [Layout.lines, List.singleton_append, HeaderText.collect,
      if_pos (hcloses.isComplete_eq_true hnested)]
    rfl
  | cons r rows =>
    have hholds := HeaderText.holds_opening n r
    have hrest : r.tokenList ++ (rows.flatMap Row.tokenList ++ last.tokenList) = ts := by
      rw [← htokens, List.flatMap_cons, List.append_assoc]
    rw [← hrest] at hnested
    have hopen : (HeaderText.add {} (openingOf n ++ r.text)).isComplete = false := by
      refine hholds.isComplete_eq_false hnested ?_
      rw [textOf_append]
      exact List.prefix_append _ _
    obtain ⟨g, hg, hcollect, htext⟩ := hholds.collect rows last ending hnested (index + 1) below
    refine ⟨g, hrest ▸ hg, ?_, htext⟩
    rw [Layout.lines, List.cons_append, List.append_assoc, List.singleton_append,
      HeaderText.collect, hopen, if_neg Bool.false_ne_true, hcollect]
    simp [Nat.add_comm, Nat.add_left_comm]

/-! ## Reading a header back -/

theorem HeaderText.Closes.ofText? {n : Identifier} {g : HeaderText} {arguments : List Argument}
    {trailing : Bool} (hg : g.Closes n (argumentTokens arguments trailing)) :
    ClassHeader.ofText? g.text = some
      ⟨String.ofList n.text, arguments.filterMap Argument.base?, []⟩ := by
  obtain ⟨x, htext, hx, -⟩ := hg
  have hline : openingOf n ++ (x ++ [')', ':']) = classLine n.text x ++ [] := by
    simp [openingOf, classLine]
  have hmarks : headerMarks.all isSign = true := by decide
  have hheader : IsHeader n.text x :=
    { name := fun c hc hmark =>
        ne_of_isSign (List.all_eq_true.mp hmarks c hmark) (n.isWord_of_mem c hc) rfl
      nested := nested_of_isSpaced arguments trailing hx
      line := hx.line
      comment := hx.not_mem_comment }
  have hname : takeName (Text.trimStart n.text) = some (n.text, []) := by
    obtain ⟨c, cs, hn, hc⟩ := n.exists_eq_cons
    have hstart : Text.trimStart n.text = n.text := by
      rw [hn]
      exact List.dropWhile_cons_of_neg (by simp [isBlank_of_isWord (isWord_of_isNameStart hc)])
    rw [hstart]
    exact takeName_eq_some_iff.mpr
      ⟨(List.append_nil _).symm, n.valid, fun c hc => absurd hc (Option.not_mem_none c)⟩
  have hdeclared : declared? n.text x =
      some ⟨String.ofList n.text, arguments.filterMap Argument.base?, []⟩ := by
    rw [declared?, hname, Option.bind_some, bases_of_isSpaced arguments trailing hx]
    exact if_pos rfl
  rw [htext, hline, hheader.ofText?_classLine, hdeclared]
  rfl

/-- **The header of a class is read back from every layout**: from its line on it is collected up to
the line of its colon, and the class has its name, the bases of its positional arguments and nothing
behind the colon. -/
theorem collectHeader_layout (n : Identifier) (arguments : List Argument) (trailing : Bool)
    (l : Layout (argumentTokens arguments trailing)) (above below : List (List Char)) :
    collectHeader (above ++ (l.lines n ++ below)) above.length =
        some (joinedHeader (l.lines n), above.length + (l.lines n).length) ∧
      ClassHeader.ofText? (joinedHeader (l.lines n)) = some
        { name := String.ofList n.text, bases := arguments.filterMap Argument.base?
          inlineBody := [] } := by
  have hnested := nested_argumentTokens arguments trailing
  obtain ⟨g, hg, hcollect, hjoined⟩ := l.collect n hnested above.length below
  rw [← hjoined, collectHeader, List.drop_left]
  exact ⟨hcollect, hg.ofText?⟩

/-- A subscript with a comma in it, a keyword with a call, a comma at the end, a line without tokens
and comments with brackets. -/
theorem collectHeader_layout_rows :
    let lines := ["x = 1", "class A( # (", "  a . B[K, V],", "", "  m = f(x, y[0]), #)", "): # done",
      "  pass"].map String.toList
    let header := "class A( a . B[K, V],  m = f(x, y[0]), ):".toList
    collectHeader lines 1 = some (header, 6) ∧
      ClassHeader.ofText? header = some { name := "A", bases := ["a.B"], inlineBody := [] } := by
  intro lines header
  let word (c : Char) (h : isWord c = true) : Word :=
    ⟨[c], List.cons_ne_nil _ _, fun d hd => List.mem_singleton.mp hd ▸ h⟩
  let gap (n : Nat) : Gap :=
    ⟨⟨List.replicate n ' ', fun c hc => List.eq_of_mem_replicate hc ▸ rfl⟩,
      fun h => absurd (List.eq_of_mem_replicate h) (by decide)⟩
  let a := word 'a' (by decide)
  let b := word 'B' (by decide)
  let k := word 'K' (by decide)
  let v := word 'V' (by decide)
  let m := word 'm' (by decide)
  let f := word 'f' (by decide)
  let x := word 'x' (by decide)
  let y := word 'y' (by decide)
  let zero := word '0' (by decide)
  let item : { ts // Expression true ts } :=
    ⟨_, .word y (.brackets .square (.word zero .nil) .nil)⟩
  let value : { ts // Expression false ts } :=
    ⟨_, .word f (.brackets .round (.word x (.comma item.property)) .nil)⟩
  let arguments : List Argument :=
    [.base a [b] (some ⟨_, .word k (.comma (.word v .nil))⟩), .keyword m value]
  let l : Layout (argumentTokens arguments true) :=
    { rows :=
        [⟨[], gap 1, some " (".toList⟩,
          ⟨[(gap 2, .word a), (gap 1, .dot), (gap 1, .word b), (gap 0, .opening .square),
            (gap 0, .word k), (gap 0, .comma), (gap 1, .word v), (gap 0, .closing .square),
            (gap 0, .comma)], gap 0, none⟩,
          ⟨[], gap 0, none⟩,
          ⟨[(gap 2, .word m), (gap 1, .equals), (gap 1, .word f), (gap 0, .opening .round),
            (gap 0, .word x), (gap 0, .comma), (gap 1, .word y), (gap 0, .opening .square),
            (gap 0, .word zero), (gap 0, .closing .square), (gap 0, .closing .round),
            (gap 0, .comma)], gap 1, some [')']⟩]
      last := ⟨[], gap 0, some " done".toList⟩
      ending := gap 1
      tokens_eq := rfl }
  let n : Identifier := ⟨['A'], by decide⟩
  have hlines : ["x = 1".toList] ++ (l.lines n ++ ["  pass".toList]) = lines := by decide +kernel
  have hheader : joinedHeader (l.lines n) = header := by decide +kernel
  have h := collectHeader_layout n arguments true l ["x = 1".toList] ["  pass".toList]
  rw [hlines, hheader] at h
  exact ⟨h.1, h.2.trans (by decide +kernel)⟩

end ModelTypings.Source
