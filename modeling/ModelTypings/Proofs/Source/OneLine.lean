import ModelTypings.Proofs.Source.Alike

/-!
# Classes on one line

A class whose statements stand on the header line says what it says with the statements on a line of
their own. The header line is read up to its first number sign and counts brackets in strings, so
that a number sign or a bracket in a string can make a difference.

* `oneLine`, `block`: the two forms of a class;
* `IsSuite`, `ReadsInHeader`: the statements, and how the header line reads them;
* `SaysSame`, `IsSuite.saysSame`: the statements of the header line are those of a line of their own;
* `phase_oneLine`, `phase_block`, `keep_forms`: the body of the class, and its model;
* **`readModels_oneLine`**: both forms give the same models;
* **`not_readModels_oneLine`**: a bracket in a string on the header line.
-/

namespace ModelTypings.Source

open Text Log Files

/-! ## The statements of a class on one line -/

/-- Statements that can stand on the header line of a class: they begin with a character and leave
neither a string nor a bracket open. -/
structure IsSuite (suite : List Char) : Prop where
  line : '\n' ∉ suite
  starts : ∃ c cs, suite = c :: cs ∧ isBlank c = false ∧ c ≠ '#'
  closed : (Carry.feed {} suite).isOpen = false

/-- A header line reads its statements as it should: their first number sign is a comment, and the
brackets above it, with those in strings, are closed. -/
structure ReadsInHeader (suite : List Char) : Prop where
  comment : StartsComment suite
  complete : (HeaderText.add {} suite).isComplete = true

/-- The indentation of statements on a line of their own. -/
def fourBlanks : List Char := [' ', ' ', ' ', ' ']

/-- The class with its statements on the header line, and what follows it. -/
def oneLine (name bases suite rest : List Char) : String :=
  String.ofList (classLine name bases ++ ' ' :: (suite ++ '\n' :: rest))

/-- The class with its statements on a line of their own, and what follows it. -/
def block (name bases suite rest : List Char) : String :=
  String.ofList (classLine name bases ++ '\n' :: (fourBlanks ++ (suite ++ '\n' :: rest)))

/-- What follows the colon of a header line, up to its comment. -/
def inlineText (suite : List Char) : List Char := trim (withoutComment suite)

/-- Statements on the header line and on a line of their own say the same. -/
structure SaysSame (suite s : List Char) : Prop where
  starts : ∃ c cs, s = c :: cs ∧ isBlank c = false ∧ c ≠ '#'
  inline : trim (trimEnd (withoutComment (' ' :: s))) = inlineText suite
  complete : headerDepth 0 (withoutComment (' ' :: s)) ≤ 0
  statements : statements (inlineText suite) = statements s
  feed : Carry.feed {} (inlineText suite) = Carry.feed {} s
  closed : (Carry.feed {} s).isOpen = false

theorem IsSuite.saysSame {suite : List Char} (h : IsSuite suite) (hread : ReadsInHeader suite)
    {s w : List Char} (hsuite : suite = s ++ w) (hw : ∀ c ∈ w, isBlank c = true) :
    SaysSame suite s := by
  obtain ⟨c, cs, hc, hblank, hcomment⟩ := h.starts
  have hs : ∃ cs, s = c :: cs := by
    cases s with
    | nil =>
      have hmem : c ∈ w := by
        rw [← List.nil_append w, ← hsuite, hc]
        exact List.mem_cons_self
      exact absurd (hw c hmem) (by simp [hblank])
    | cons d ds =>
      rw [hc] at hsuite
      exact ⟨ds, by rw [(List.cons.inj hsuite).1]⟩
  obtain ⟨v, hv, hvblank⟩ := withoutComment_append_blanks hw s
  rw [← hsuite] at hv
  have hspace : withoutComment (' ' :: s) = ' ' :: withoutComment s := rfl
  -- the text before the comment begins as the statements do
  have hstart : trimStart (withoutComment suite) = withoutComment suite := by
    have hcode : withoutComment suite = c :: withoutComment cs := by
      rw [hc]
      exact List.takeWhile_cons_of_pos (by simpa using hcomment)
    rw [hcode]
    exact List.dropWhile_cons_of_neg (by simp [hblank])
  have htrim : ∃ u, withoutComment suite = inlineText suite ++ u ∧ ∀ c ∈ u, isBlank c = true := by
    rw [inlineText, trim, hstart]
    exact exists_trimEnd _
  obtain ⟨u, hu, hublank⟩ := htrim
  have hstatements : statements (inlineText suite) = statements s := by
    rw [← statements_append_blanks hublank, ← hu, hread.comment.statements_eq, hsuite,
      statements_append_blanks hw]
  have hfeed : Carry.feed {} (inlineText suite) = Carry.feed {} s := by
    rw [← feed_append_blanks hublank, ← hu, hread.comment.feed_eq, hsuite, feed_append_blanks hw]
  refine ⟨?_, ?_, ?_, hstatements, hfeed, ?_⟩
  · obtain ⟨cs, rfl⟩ := hs
    exact ⟨c, cs, rfl, hblank, hcomment⟩
  · rw [trim_trimEnd, hspace, inlineText, hv, trim_append_blanks hvblank]
    exact congrArg trimEnd (List.dropWhile_cons_of_pos (by decide))
  · have hdepth : headerDepth 0 (withoutComment suite) ≤ 0 := of_decide_eq_true hread.complete
    rw [hv, headerDepth_append,
      headerDepth_of_forall fun c hc => headerNesting_of_isBlank (hvblank c hc)] at hdepth
    exact hdepth
  · rw [← feed_append_blanks hw, ← hsuite, h.closed]

/-! ## The two forms -/

/-- The number of a line after the second line has been joined to the first. -/
def joined (line : Nat) : Nat := if line ≤ 1 then line else line - 1

section Forms

variable {name bases suite s : List Char} (h : IsHeader name bases)
include h

/-- **The header line with its statements** opens the body of the class. -/
theorem phase_oneLine (hs : SaysSame suite s) :
    let b := Body.ofHeader 1 (classLine name bases ++ trimEnd (withoutComment (' ' :: s)))
    (Phase.outside {}).after 0 [classLine name bases ++ ' ' :: s] = .inBody b ∧
      (Phase.outside {}).classes 0 [classLine name bases ++ ' ' :: s] = [b] ∧
      b.carry.isOpen = false := by
  have hheader := h.next_classLine 1 hs.complete
  refine ⟨hheader, ?_, ?_⟩
  · show (Carry.next {} 1 (classLine name bases ++ ' ' :: s)).classes 1 [] = _
    rw [hheader]
    rfl
  · rw [h.ofHeader_classLine, hs.inline, hs.feed]
    cases declared? name bases with
    | none => rfl
    | some x => exact hs.closed

theorem next_block (hs : SaysSame suite s) :
    (Body.ofHeader 1 (classLine name bases)).next 2 (fourBlanks ++ s) =
      { header := declared? name bases, line := 1, indent := some 4
        carry := Carry.feed {} s
        fields := (fieldsOf 2 (statements s)).1
        skipped := (fieldsOf 2 (statements s)).2.length } ∧
    (Body.ofHeader 1 (classLine name bases)).endsAbove (fourBlanks ++ s) = false := by
  obtain ⟨c, cs, rfl, hblank, hcomment⟩ := hs.starts
  have hspaces : ∀ a ∈ fourBlanks, isBlank a = true := List.all_eq_true.mp rfl
  have hneg : ¬ isBlank c = true := by simp [hblank]
  have hindent : indentation (fourBlanks ++ c :: cs) = 4 := by
    rw [indentation, List.takeWhile_append_of_pos hspaces, List.takeWhile_cons_of_neg hneg]
    rfl
  have hstart : trimStart (fourBlanks ++ c :: cs) = c :: cs := by
    rw [trimStart, List.dropWhile_append_of_pos hspaces, List.dropWhile_cons_of_neg hneg]
  have hidle : isIdle (fourBlanks ++ c :: cs) = false := by
    rw [isIdle, hstart]
    simp [hcomment]
  rw [h.ofHeader_classLine_nil]
  constructor
  · simp [Body.next, Body.statementLine, hidle, hindent, hstart, Carry.isOpen]
  · simp [Body.endsAbove, hindent]

/-- **The header line and the line of the statements** open the body of the class. -/
theorem phase_block (hs : SaysSame suite s) :
    let b := (Body.ofHeader 1 (classLine name bases)).next 2 (fourBlanks ++ s)
    (Phase.outside {}).after 0 [classLine name bases, fourBlanks ++ s] = .inBody b ∧
      (Phase.outside {}).classes 0 [classLine name bases, fourBlanks ++ s] = [b] ∧
      b.carry.isOpen = false := by
  have hheader := h.next_classLine 1 (show headerDepth 0 (withoutComment []) ≤ 0 from le_rfl)
  rw [show trimEnd (withoutComment []) = [] from rfl, List.append_nil] at hheader
  have hnext := Phase.next_inBody 2 (fourBlanks ++ s) (Body.ofHeader 1 (classLine name bases))
  have hended := Phase.ended_inBody (fourBlanks ++ s) (Body.ofHeader 1 (classLine name bases))
  rw [(next_block h hs).2, if_neg Bool.false_ne_true] at hnext hended
  refine ⟨(congrArg (Phase.next 2 _) hheader).trans hnext, ?_, ?_⟩
  · show (Carry.next {} 1 (classLine name bases)).ended _ ++
      ((Carry.next {} 1 (classLine name bases)).next 2 _).classes 2 [] = _
    rw [hheader, hended, hnext]
    rfl
  · rw [(next_block h hs).1]
    exact hs.closed

/-- **The model of a class** is the same in both forms, but for the lines of its fields. -/
theorem keep_forms (file : Path) (markers : List String) (hs : SaysSame suite s) :
    Models.keep file markers {}
        (.ofHeader 1 (classLine name bases ++ trimEnd (withoutComment (' ' :: s)))) =
      (Models.keep file markers {}
        ((Body.ofHeader 1 (classLine name bases)).next 2 (fourBlanks ++ s))).relabel joined := by
  obtain ⟨hfields, hskipped⟩ := fieldsOf_relabel joined 2 (statements s)
  rw [(next_block h hs).1, h.ofHeader_classLine, hs.inline, hs.statements]
  cases declared? name bases with
  | none => rfl
  | some x =>
    have hmodel : ∀ t, { x with inlineBody := t }.isModel markers = x.isModel markers := fun _ => rfl
    have hline : joined 2 = 1 := rfl
    rw [hline] at hfields hskipped
    simp only [Models.keep, Body.model?, hmodel]
    by_cases hm : x.isModel markers = true
    · simp only [hm, if_true, hfields, hskipped]
      rfl
    · simp only [hm, if_false, Bool.false_eq_true]
      rfl

end Forms

theorem startsAtMargin_lines {rest : List Char} (h : ∀ c ∈ rest.head?, isBlank c = false ∧ c ≠ '#') :
    StartsAtMargin (lines rest) := by
  cases rest with
  | nil => exact fun line hline => nomatch hline
  | cons c cs =>
    obtain ⟨hblank, hcomment⟩ := h c rfl
    have hfeed : c ≠ '\n' := Ne.symm (ne_of_isBlank hblank (by decide))
    have hreturn : c ≠ '\r' := Ne.symm (ne_of_isBlank hblank (by decide))
    have hfirst : ∃ l ls, lines (c :: cs) = (c :: l) :: ls := by
      cases hl : lines cs with
      | nil =>
        rw [lines, hl]
        · exact ⟨[], [], rfl⟩
        · exact fun e => hfeed e
        · exact fun _ e => absurd e hreturn
      | cons l ls => exact ⟨l, ls, lines_cons_of_ne hfeed (fun e => hreturn e.1) hl⟩
    obtain ⟨l, ls, hlines⟩ := hfirst
    have hstart : trimStart (c :: l) = c :: l := List.dropWhile_cons_of_neg (by simp [hblank])
    intro line hline
    rw [hlines, List.find?_cons_of_pos (by simp [isIdle, hstart, hcomment])] at hline
    obtain rfl := Option.some.inj hline
    intro d hd
    obtain rfl := Option.some.inj hd
    exact hblank

section Lines

variable {name bases suite s : List Char} (h : IsHeader name bases)
  (hlines : ∀ pre, '\n' ∉ pre → lines (pre ++ (suite ++ ['\n'])) = [pre ++ s])
include h hlines

theorem lines_oneLine (rest : List Char) :
    lines (oneLine name bases suite rest).toList =
      [classLine name bases ++ ' ' :: s] ++ lines rest := by
  have htext : (oneLine name bases suite rest).toList =
      classLine name bases ++ [' '] ++ (suite ++ ['\n']) ++ rest := by
    simp [oneLine]
  have hpre : '\n' ∉ classLine name bases ++ [' '] := by
    simp [h.not_mem_classLine]
  have hend : EndsLine (classLine name bases ++ [' '] ++ (suite ++ ['\n'])) := by
    rw [← List.append_assoc]
    exact .inr List.getLast?_concat
  rw [htext, lines_append hend, hlines _ hpre, List.append_assoc]
  rfl

theorem lines_block (rest : List Char) :
    lines (block name bases suite rest).toList =
      [classLine name bases, fourBlanks ++ s] ++ lines rest := by
  have htext : (block name bases suite rest).toList =
      classLine name bases ++ ['\n'] ++ (fourBlanks ++ (suite ++ ['\n']) ++ rest) := by
    simp [block]
  have hlast : (classLine name bases).getLast? = some ':' := by
    have hcolon : classLine name bases =
        classWord ++ (' ' :: (name ++ '(' :: (bases ++ [')']))) ++ [':'] := by
      simp [classLine]
    rw [hcolon, List.getLast?_concat]
  have hheader : lines (classLine name bases ++ ['\n']) = [classLine name bases] :=
    lines_concat h.not_mem_classLine (by rw [hlast]; decide)
  have hend : EndsLine (fourBlanks ++ (suite ++ ['\n'])) := by
    rw [← List.append_assoc]
    exact .inr List.getLast?_concat
  rw [htext, lines_append (.inr List.getLast?_concat), hheader, lines_append hend,
    hlines _ (by decide)]
  rfl

end Lines

/-- **The two forms of a class** in a text: the same models but for the numbers of lines, or a header
left open in both. -/
theorem readModels_oneLine_joined (file : Path) (markers : List String)
    {name bases suite rest : List Char} (hheader : IsHeader name bases) (hsuite : IsSuite suite)
    (hread : ReadsInHeader suite) (hrest : ∀ c ∈ rest.head?, isBlank c = false ∧ c ≠ '#') :
    (∀ m, (readModels file markers (oneLine name bases suite rest)).1 = .ok m →
      ∃ m', (readModels file markers (block name bases suite rest)).1 = .ok m' ∧
        m = m'.relabel joined) ∧
    ∀ e, (readModels file markers (oneLine name bases suite rest)).1 = .error e →
      ∃ e', (readModels file markers (block name bases suite rest)).1 = .error e' := by
  have hne : suite ≠ [] := by
    obtain ⟨c, cs, rfl, -⟩ := hsuite.starts
    exact List.cons_ne_nil _ _
  obtain ⟨s, w, hsw, hw, hlines⟩ := exists_lines_append hne hsuite.line
  have hs := hsuite.saysSame hread hsw hw
  have hone := lines_oneLine hheader hlines rest
  have hblock := lines_block hheader hlines rest
  obtain ⟨hafter, hclasses, hclosed⟩ := phase_oneLine hheader hs
  obtain ⟨hafter', hclasses', hclosed'⟩ := phase_block hheader hs
  have hmargin := startsAtMargin_lines hrest
  have hselect : (Models.select file markers
      ((Phase.outside {}).classes 0 [classLine name bases ++ ' ' :: s])).relabel id =
        (Models.select file markers
          ((Phase.outside {}).classes 0 [classLine name bases, fourBlanks ++ s])).relabel joined := by
    rw [hclasses, hclasses', Models.relabel_id]
    exact keep_forms hheader file markers hs
  have hnumbers : ∀ i, id (1 + i + 1) = joined (2 + i + 1) := fun i => by
    rw [joined, if_neg (by omega)]
    exact (by omega : 1 + i + 1 = 2 + i + 1 - 1)
  obtain ⟨hok, herror⟩ := readModels_below file markers hone hblock
    (by rw [hafter, Phase.isClosed, hclosed]; rfl) (by rw [hafter', Phase.isClosed, hclosed']; rfl)
    hmargin hselect hnumbers
  refine ⟨fun m hm => ?_, herror⟩
  obtain ⟨m', hm', hsame⟩ := hok m hm
  exact ⟨m', hm', by rw [← hsame, Models.relabel_id]⟩

/-- **A class on one line says what it says as a block**: both can be read or neither, with the same
models, fields and number of statements that are no fields. -/
theorem readModels_oneLine (file : Path) (markers : List String)
    {name bases suite rest : List Char} (hheader : IsHeader name bases) (hsuite : IsSuite suite)
    (hread : ReadsInHeader suite) (hrest : ∀ c ∈ rest.head?, isBlank c = false ∧ c ≠ '#') :
    (∀ m, (readModels file markers (oneLine name bases suite rest)).1 = .ok m →
      ∃ m', (readModels file markers (block name bases suite rest)).1 = .ok m' ∧
        m.skipped = m'.skipped ∧ m.signatures = m'.signatures) ∧
    ∀ e, (readModels file markers (oneLine name bases suite rest)).1 = .error e →
      ∃ e', (readModels file markers (block name bases suite rest)).1 = .error e' := by
  obtain ⟨hok, herror⟩ := readModels_oneLine_joined file markers hheader hsuite hread hrest
  refine ⟨fun m hm => ?_, herror⟩
  obtain ⟨m', hm', rfl⟩ := hok m hm
  exact ⟨m', hm', rfl, signatures_relabel joined m'⟩

/-- Two statements on the header line, the first with a semicolon in a string, and a comment. -/
theorem readModels_oneLine_commented :
    let suite := "x = F(\"a;b\"); y = G() # (z".toList
    let rest := "z = 1\nclass B(Model): pass\n".toList
    ∃ m, (readModels ⟨["m.py"]⟩ ["Model"] (oneLine ['A'] "G[T], Model".toList suite rest)).1 = .ok m ∧
      m.signatures = [("A", [("x", "F"), ("y", "G")]), ("B", [])] ∧ m.skipped = 1 ∧
      ∃ m', (readModels ⟨["m.py"]⟩ ["Model"] (block ['A'] "G[T], Model".toList suite rest)).1 =
        .ok m' ∧ m.skipped = m'.skipped ∧ m.signatures = m'.signatures := by
  intro suite rest
  have hnested : Nested "G[T], Model".toList := by
    have hmodel : Nested ", Model".toList := nested_of_plain (by decide +kernel)
    exact .plain rfl (.brackets (u := ['T']) rfl (.plain rfl .nil) hmodel)
  have hheader : IsHeader ['A'] "G[T], Model".toList :=
    ⟨by simp [headerMarks], hnested, by decide +kernel, by decide +kernel⟩
  have hsuite : IsSuite suite := ⟨by decide +kernel, ⟨'x', _, rfl, by decide, by decide⟩,
    by decide +kernel⟩
  have hcomment : StartsComment suite := fun after hafter => by
    have hpasses : PassesStrings ⟨.code, 0, suite⟩ := passesStrings_of_line (by decide +kernel)
    have hcut : joinWith ';' (pieces 0 none suite) = withoutComment suite := by decide +kernel
    exact ⟨⟨hafter, hcut⟩, ((Follows.code.agrees hpasses).cut _ after hafter).mp hcut⟩
  have hm : (readModels ⟨["m.py"]⟩ ["Model"]
      (oneLine ['A'] "G[T], Model".toList suite rest)).1 =
        .ok ⟨[⟨"A", [⟨"x", "F", true, 1⟩, ⟨"y", "G", true, 1⟩], ⟨["m.py"]⟩, 1⟩,
          ⟨"B", [], ⟨["m.py"]⟩, 3⟩], 1⟩ := by decide +kernel
  have hrest : ∀ c ∈ rest.head?, isBlank c = false ∧ c ≠ '#' := fun c hc => by
    obtain rfl := Option.some.inj hc
    decide
  obtain ⟨hok, -⟩ := readModels_oneLine ⟨["m.py"]⟩ ["Model"] hheader hsuite
    ⟨hcomment, by decide +kernel⟩ hrest
  exact ⟨_, hm, rfl, rfl, hok _ hm⟩

/-- **A bracket in a string on the header line.** The header goes on to the end of the file, where
the block has a field. -/
theorem not_readModels_oneLine : ¬ ∀ (file : Path) (markers : List String)
    (name bases suite rest : List Char), IsHeader name bases → IsSuite suite →
    (∀ c ∈ rest.head?, isBlank c = false ∧ c ≠ '#') →
    (∀ m, (readModels file markers (oneLine name bases suite rest)).1 = .ok m →
      ∃ m', (readModels file markers (block name bases suite rest)).1 = .ok m' ∧
        m.skipped = m'.skipped ∧ m.signatures = m'.signatures) ∧
    ∀ e, (readModels file markers (oneLine name bases suite rest)).1 = .error e →
      ∃ e', (readModels file markers (block name bases suite rest)).1 = .error e' := by
  intro h
  have hheader : IsHeader ['A'] "Model".toList :=
    ⟨by simp [headerMarks], nested_of_plain (by decide +kernel), by decide +kernel,
      by decide +kernel⟩
  have hsuite : IsSuite "x = F(\"(\")".toList :=
    ⟨by decide +kernel, ⟨'x', _, rfl, by decide, by decide⟩, by decide +kernel⟩
  have herror : (readModels ⟨["m.py"]⟩ ["Model"]
      (oneLine ['A'] "Model".toList "x = F(\"(\")".toList [])).1 =
        .error (.unterminatedClass ⟨["m.py"]⟩ 1) := by decide +kernel
  have hok : (readModels ⟨["m.py"]⟩ ["Model"]
      (block ['A'] "Model".toList "x = F(\"(\")".toList [])).1 =
        .ok ⟨[⟨"A", [⟨"x", "F", true, 2⟩], ⟨["m.py"]⟩, 1⟩], 0⟩ := by decide +kernel
  obtain ⟨e', he'⟩ := (h ⟨["m.py"]⟩ ["Model"] ['A'] "Model".toList "x = F(\"(\")".toList []
    hheader hsuite (fun c hc => absurd hc (Option.not_mem_none c))).2 _ herror
  cases hok.symm.trans he'

end ModelTypings.Source
