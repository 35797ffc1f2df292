import ModelTypings.Proofs.Source.Alike
import ModelTypings.Proofs.Source.Insertion

/-!
# Line breaks inside brackets

A line of a class body may be broken at a space inside an open bracket, as long as no further field
is declared behind the space: statements are looked for on the first line of a row only. On a header
line the statements behind the colon go on while a bracket of the header is open.

* `Phase.IsInBracket`: a space of a class body inside an open bracket;
* `Phase.KeepsFields`: no field is declared behind it where it would not be looked for;
* `Body.next_break`, `HeaderText.next_break`: what is under way below a broken line;
* **`readModels_break`**: a text with a line broken at such a space;
* **`not_readModels_break`**: a field that is declared behind the space is lost.
-/

namespace ModelTypings.Source

open Text Log Files

/-! ## The place of a break -/

/-- What the body of a class leaves open for the next line. -/
def Phase.carry? : Phase → Option Carry
  | inBody b => some b.carry
  | _ => none

/-- The header that a line begins or goes on with. -/
def Phase.header? (p : Phase) (line : List Char) : Option HeaderText :=
  match p with
  | outside carry => if carry.isOpen || !isClassStart line then none else some {}
  | inHeader _ h => some h
  | inBody b => if b.endsAbove line && isClassStart line then some {} else none

/-- A line of a header reaches behind its colon: up to `text` the header is `x`, and a space behind
it lies inside an open bracket of the statements there. -/
structure HeaderText.InSuite (h : HeaderText) (text : List Char) (x : ClassHeader) : Prop where
  comment : '#' ∉ text
  header : ClassHeader.ofText? (h.add text).text = some x
  bracket : ∃ d, 0 < d ∧ ScansTo .code 0 x.inlineBody d

/-- A space behind `text` on the next line belongs to the body of a class and lies inside an open
bracket, outside strings and comments. -/
def Phase.IsInBracket (p : Phase) (text : List Char) : Prop :=
  (∃ carry, p.carry? = some carry ∧ (carry.isOpen = true ∨ indentation text ≠ 0) ∧
    ∃ d, 0 < d ∧ ScansTo (.ofString carry.string) carry.brackets text d) ∨
  ∃ h x, p.header? text = some h ∧ h.InSuite text x

/-- No field is declared behind a space of the next line where it would not be looked for. -/
structure Phase.KeepsFields (p : Phase) (text more : List Char) : Prop where
  /-- On a line of statements. -/
  statements : p.isClosed = true → p.header? text = none →
    p.indent?.all (· == indentation text) = true →
      fieldCount (trimStart text ++ ' ' :: more) = fieldCount (trimStart text)
  /-- On a line of a header that is complete up to the space. It is complete behind it too, and its
  first number sign there is a comment. -/
  suite : ∀ h x, p.header? text = some h → ClassHeader.ofText? (h.add text).text = some x →
    (h.add text).isComplete = true → (h.add (text ++ ' ' :: more)).isComplete = true ∧
      (∀ y, ClassHeader.ofText? (h.add (text ++ ' ' :: more)).text = some y →
        fieldCount y.inlineBody = fieldCount x.inlineBody) ∧
      Carry.feed {} (x.inlineBody ++ ' ' :: withoutComment more) =
        Carry.feed {} (x.inlineBody ++ ' ' :: more)

/-! ## A line of the body -/

theorem indentation_append {text : List Char} (h : trimStart text ≠ []) (more : List Char) :
    indentation (text ++ more) = indentation text := by
  have htake : (text ++ more).takeWhile isBlank = text.takeWhile isBlank := by
    induction text with
    | nil => exact absurd rfl h
    | cons c cs ih =>
      by_cases hc : isBlank c = true
      · rw [trimStart, List.dropWhile_cons_of_pos hc] at h
        rw [List.cons_append, List.takeWhile_cons_of_pos hc, List.takeWhile_cons_of_pos hc, ih h]
      · rw [List.cons_append, List.takeWhile_cons_of_neg hc, List.takeWhile_cons_of_neg hc]
  rw [indentation, htake, indentation]

theorem isIdle_append {text : List Char} (h : trimStart text ≠ []) (more : List Char) :
    isIdle (text ++ more) = isIdle text := by
  obtain ⟨c, cs, hc⟩ := List.exists_cons_of_ne_nil h
  rw [isIdle, trimStart_append h, hc, isIdle, hc]
  rfl

/-- **The body below a broken line** says the same as below the line. -/
theorem Body.next_break {b : Body} {text more indent : List Char} {d : Int} (hd : 0 < d)
    (hscan : ScansTo (.ofString b.carry.string) b.carry.brackets text d)
    (hmargin : b.carry.isOpen = true ∨ indentation text ≠ 0)
    (hkeeps : b.carry.isOpen = false → b.indent.all (· == indentation text) = true →
      fieldCount (trimStart text ++ ' ' :: more) = fieldCount (trimStart text))
    (hi : ∀ a ∈ indent, isBlank a = true) (n : Nat) :
    b.endsAbove (text ++ ' ' :: more) = false ∧ b.endsAbove text = false ∧
      (b.next n text).endsAbove (indent ++ more) = false ∧
      (b.next n (text ++ ' ' :: more)).Alike ((b.next n text).next (n + 1) (indent ++ more)) := by
  obtain ⟨hopen, hfeed⟩ := feed_break hd hscan hi more
  by_cases ho : b.carry.isOpen = true
  · have hnext : b.next n (text ++ ' ' :: more) = (b.next n text).next (n + 1) (indent ++ more) := by
      simp [Body.next, ho, hopen, hfeed]
    rw [hnext]
    exact ⟨by simp [endsAbove, ho], by simp [endsAbove, ho], by simp [endsAbove, next, ho, hopen],
      .refl _⟩
  have hc : b.carry.isOpen = false := by simpa using ho
  -- a line that opens a bracket is neither blank nor a comment
  have hidle : isIdle text = false := by
    by_contra h
    rw [Carry.eq_of_isOpen hc, feed_of_isIdle (by simpa using h)] at hopen
    exact Bool.noConfusion hopen
  have ht : trimStart text ≠ [] := by
    intro e
    rw [isIdle, e] at hidle
    exact Bool.noConfusion hidle
  have hindent : indentation text ≠ 0 := by simpa [ho] using hmargin
  have hidle' := (isIdle_append ht (' ' :: more)).trans hidle
  have hindent' := indentation_append ht (' ' :: more)
  have hfields : (b.statementLine n (text ++ ' ' :: more)).1 = (b.statementLine n text).1 := by
    rw [statementLine, statementLine, hindent', trimStart_append ht]
    split
    · next h => exact fieldsOf_append (hkeeps hc h) n
    · rfl
  have hnext : b.next n text =
      { b with
        carry := b.carry.feed text
        indent := some (b.indent.getD (indentation text))
        fields := b.fields ++ (b.statementLine n text).1
        skipped := b.skipped + (b.statementLine n text).2.length } := by
    simp [Body.next, ho, hidle, feed_trimStart hc]
  refine ⟨by simp [endsAbove, hindent', hindent], by simp [endsAbove, hindent],
    by simp [endsAbove, hnext, hopen], ?_⟩
  rw [hnext]
  simp only [Body.next, hopen, hfeed, ho, hidle', hindent', hfields, feed_trimStart hc, if_true,
    if_false, Bool.false_eq_true]
  exact ⟨rfl, rfl, rfl, rfl, rfl⟩

/-! ## A line of a header -/

theorem withoutComment_append {text : List Char} (h : '#' ∉ text) (more : List Char) :
    withoutComment (text ++ more) = text ++ withoutComment more :=
  List.takeWhile_append_of_pos fun _ hc => bne_iff_ne.mpr (ne_of_mem_of_not_mem hc h)

theorem withoutComment_of_not_mem {text : List Char} (h : '#' ∉ text) :
    withoutComment text = text := by
  have happend := withoutComment_append h []
  rw [List.append_nil] at happend
  exact happend.trans (List.append_nil text)

theorem trim_append_space (s t : List Char) :
    ∃ v, trim (s ++ ' ' :: t) = trim s ++ (v ++ trim t) ∧ (∀ c ∈ v, isBlank c = true) ∧
      (v = [] → trim s = [] ∨ trim t = []) := by
  have hspace : isBlank ' ' = true := by decide
  have htrim : trim (' ' :: t) = trim t := by
    rw [← List.singleton_append, trim, trimStart_blanks_append (List.forall_mem_singleton.mpr hspace),
      trim]
  obtain ⟨v, hv, hblanks, hmeet⟩ := exists_trim_append s (' ' :: t)
  rw [htrim] at hv hmeet
  refine ⟨v, hv, hblanks, fun hnil => (hmeet hnil).imp_right fun h => h.resolve_right ?_⟩
  rintro ⟨-, hhead⟩
  exact Bool.noConfusion (hspace.symm.trans (head?_trim t ' ' hhead.symm))

namespace HeaderText

variable {h : HeaderText} {text : List Char} {x : ClassHeader}

namespace InSuite

theorem inlineBody_ne_nil (hx : h.InSuite text x) : x.inlineBody ≠ [] := by
  obtain ⟨d, hd, hscan⟩ := hx.bracket
  intro hnil
  rw [hnil] at hscan
  have hdepth : (0 : Int) = d := congrArg Prod.snd (hscan [] fun c hc => nomatch hc)
  exact absurd hdepth hd.ne

theorem text_add (hx : h.InSuite text x) (more : List Char) :
    ∃ v, (h.add (text ++ ' ' :: more)).text =
        (h.add text).text ++ (v ++ trim (withoutComment more)) ∧
      (∀ c ∈ v, isBlank c = true) ∧
      StandsApart (h.add text).text (v ++ trim (withoutComment more)) := by
  have hne := SameHeader.ne_nil_of_ofText? hx.header
  obtain ⟨v, htrim, hv, hapart⟩ := trim_append_space text (withoutComment more)
  have hcode : withoutComment (text ++ ' ' :: more) = text ++ ' ' :: withoutComment more :=
    withoutComment_append hx.comment (' ' :: more)
  have htext := withoutComment_of_not_mem hx.comment
  have hadd : ∀ line, (h.add line).text =
      (if h.text.isEmpty then [] else h.text ++ [' ']) ++ trim (withoutComment line) := fun _ => rfl
  refine ⟨v, by rw [hadd, hadd, hcode, htext, htrim, List.append_assoc], hv, ?_⟩
  cases v with
  | cons c v => exact .inr (.inl ⟨c, rfl, hv c List.mem_cons_self⟩)
  | nil =>
    rcases hapart rfl with hblank | hblank
    · -- the line begins with blanks, so that the header goes on behind the one that joins it
      refine .inr (.inr ⟨' ', ?_, by decide⟩)
      rw [hadd, htext, hblank, List.append_nil] at hne ⊢
      split at hne
      · exact absurd rfl hne
      · next hempty =>
        rw [if_neg hempty, List.getLast?_concat]
        rfl
    · exact .inl hblank

theorem add_add (hx : h.InSuite text x) {indent : List Char}
    (hi : ∀ a ∈ indent, isBlank a = true) (more : List Char) :
    ((h.add text).add (indent ++ more)).text =
        (h.add text).text ++ ([' '] ++ trim (withoutComment more)) ∧
      ((h.add text).add (indent ++ more)).depth = (h.add (text ++ ' ' :: more)).depth := by
  have hindent : '#' ∉ indent := fun hmem => absurd (hi _ hmem) (by decide)
  have hempty : (h.add text).text.isEmpty = false := by
    rw [List.isEmpty_eq_false_iff]
    exact SameHeader.ne_nil_of_ofText? hx.header
  have hcode := withoutComment_append hindent more
  have hblanks : ∀ d, headerDepth d indent = d :=
    headerDepth_of_forall fun c hc => headerNesting_of_isBlank (hi c hc)
  constructor
  · have hadd : ((h.add text).add (indent ++ more)).text =
        (h.add text).text ++ [' '] ++ trim (withoutComment (indent ++ more)) := by
      rw [HeaderText.add, hempty]
      rfl
    rw [hadd, hcode, trim, trimStart_blanks_append hi, trim, List.append_assoc]
  · show headerDepth (headerDepth h.depth (withoutComment text)) (withoutComment (indent ++ more)) =
      headerDepth h.depth (withoutComment (text ++ ' ' :: more))
    have hspace : ∀ d, headerDepth d (withoutComment (' ' :: more)) =
        headerDepth d (withoutComment more) :=
      fun d => congrArg (headerDepth · (withoutComment more)) (Int.add_zero d)
    rw [hcode, withoutComment_append hx.comment, withoutComment_of_not_mem hx.comment,
      headerDepth_append, headerDepth_append, hblanks, hspace]

theorem same (hx : h.InSuite text x) {indent : List Char} (hi : ∀ a ∈ indent, isBlank a = true)
    (more : List Char) :
    SameHeader (h.add (text ++ ' ' :: more)).text ((h.add text).add (indent ++ more)).text := by
  obtain ⟨v, htext, hv, hapart⟩ := hx.text_add more
  obtain ⟨d, -, hscan⟩ := hx.bracket
  rw [htext, (hx.add_add hi more).1]
  have hspace : isBlank ' ' = true := by decide
  exact .suite hx.header hx.inlineBody_ne_nil hscan hv (List.forall_mem_singleton.mpr hspace) hapart
    (.inr (.inl ⟨' ', rfl, hspace⟩))

theorem feed_withoutComment {d : Int} (hd : ScansTo .code 0 x.inlineBody d) (more : List Char) :
    Carry.feed {} (x.inlineBody ++ ' ' :: withoutComment more) =
      Carry.ofScan (scan .code d (trim (withoutComment more))) := by
  obtain ⟨v, w, hmore⟩ := exists_trim (withoutComment more)
  have hblanks : ∀ c ∈ ' ' :: v.text, isBlank c = true :=
    List.forall_mem_cons.mpr ⟨by decide, v.valid⟩
  have hline : x.inlineBody ++ ' ' :: withoutComment more =
      (x.inlineBody ++ ((' ' :: v.text) ++ trim (withoutComment more))) ++ w.text := by
    conv_lhs => rw [hmore]
    simp only [List.append_assoc, List.cons_append]
  rw [hline, feed_append_blanks w.valid]
  exact (Continues.blanks (List.cons_ne_nil _ _) hblanks).feed_eq hd

/-- The class of a header that is complete at the break, with the rest of the line behind its colon
or on a line of its own. -/
theorem ofHeader_break (hx : h.InSuite text x) {more indent : List Char}
    (hcount : ∀ y, ClassHeader.ofText? (h.add (text ++ ' ' :: more)).text = some y →
      fieldCount y.inlineBody = fieldCount x.inlineBody)
    (hcomment : Carry.feed {} (x.inlineBody ++ ' ' :: withoutComment more) =
      Carry.feed {} (x.inlineBody ++ ' ' :: more))
    (hi : ∀ a ∈ indent, isBlank a = true) (k n : Nat) :
    (Body.ofHeader k (h.add text).text).carry.isOpen = true ∧
      (Body.ofHeader k (h.add (text ++ ' ' :: more)).text).Alike
        ((Body.ofHeader k (h.add text).text).next n (indent ++ more)) := by
  obtain ⟨v, htext, hv, hapart⟩ := hx.text_add more
  obtain ⟨d, hd, hscan⟩ := hx.bracket
  obtain ⟨y, hy, hname, hbases, hcontinues⟩ :=
    ofText?_append hx.header hx.inlineBody_ne_nil hapart
  obtain ⟨hopen, hfeed⟩ := feed_break (c := {}) hd hscan hi more
  have htrim : trim (v ++ trim (withoutComment more)) = trim (withoutComment more) := by
    rw [trim, trimStart_blanks_append hv, ← trim, trim_trim]
  rw [htrim] at hcontinues
  rw [← htext] at hy
  have hfields : (fieldsOf k (statements y.inlineBody)).1 =
      (fieldsOf k (statements x.inlineBody)).1 := by
    obtain ⟨rest, hrest⟩ := hcontinues.exists_append
    have hsame := hcount y hy
    rw [hrest] at hsame ⊢
    exact fieldsOf_append hsame k
  have hcarry : Carry.feed {} y.inlineBody =
      (Carry.feed {} x.inlineBody).feed (indent ++ more) := by
    rw [hfeed, ← hcomment, feed_withoutComment hscan, hcontinues.feed_eq hscan]
  simp only [Body.ofHeader, hy, hx.header, Body.next, hopen, if_true, true_and]
  exact ⟨congrArg some hname, congrArg some hbases, hcarry, rfl, congrArg _ hfields⟩

end InSuite

/-- **What is under way below a broken line of a header** is alike below the line. -/
theorem next_break (hx : h.InSuite text x) {more indent : List Char}
    (hkeeps : (h.add text).isComplete = true → (h.add (text ++ ' ' :: more)).isComplete = true ∧
      (∀ y, ClassHeader.ofText? (h.add (text ++ ' ' :: more)).text = some y →
        fieldCount y.inlineBody = fieldCount x.inlineBody) ∧
      Carry.feed {} (x.inlineBody ++ ' ' :: withoutComment more) =
        Carry.feed {} (x.inlineBody ++ ' ' :: more))
    (hi : ∀ a ∈ indent, isBlank a = true) (k n : Nat) :
    (h.next k (text ++ ' ' :: more)).Alike ((h.next k text).next n (indent ++ more)) ∧
      (h.next k text).ended (indent ++ more) = [] := by
  by_cases hcomplete : (h.add text).isComplete = true
  · obtain ⟨hwhole, hcount, hcomment⟩ := hkeeps hcomplete
    obtain ⟨hopen, halike⟩ := hx.ofHeader_break hcount hcomment hi k n
    have hends : (Body.ofHeader k (h.add text).text).endsAbove (indent ++ more) = false := by
      rw [Body.endsAbove, hopen]
      rfl
    have hbody : h.next k text = .inBody (.ofHeader k (h.add text).text) := if_pos hcomplete
    have hbody' : h.next k (text ++ ' ' :: more) =
        .inBody (.ofHeader k (h.add (text ++ ' ' :: more)).text) := if_pos hwhole
    rw [hbody, hbody', Phase.next_inBody, Phase.ended_inBody, hends, if_neg Bool.false_ne_true,
      if_neg Bool.false_ne_true]
    exact ⟨.inBody halike, rfl⟩
  · have hheader : h.next k text = .inHeader k (h.add text) := if_neg hcomplete
    rw [hheader]
    exact ⟨alike_of_same (hx.same hi more) (hx.add_add hi more).2.symm k k, rfl⟩

end HeaderText

/-! ## The text -/

/-- A line that begins or goes on with a header, also if more stands on it. -/
theorem Phase.next_header {p : Phase} {text : List Char} {h : HeaderText}
    (hp : p.header? text = some h) (more : List Char) (n : Nat) : ∃ k, p.next n text = h.next k text ∧
      p.next n (text ++ more) = h.next k (text ++ more) ∧ p.ended (text ++ more) = p.ended text := by
  have hstart : ∀ {text : List Char}, isClassStart text = true →
      isClassStart (text ++ more) = true ∧ trimStart text ≠ [] := by
    intro text hclass
    obtain ⟨c, cs, rfl, hc⟩ := isClassStart_iff.mp hclass
    refine ⟨isClassStart_iff.mpr ⟨c, cs ++ more, by simp, hc⟩, ?_⟩
    exact fun hnil => nomatch hnil
  cases p with
  | outside carry =>
    rw [Phase.header?] at hp
    split at hp
    · exact nomatch hp
    next hopen =>
    obtain rfl := Option.some.inj hp
    have hclass : isClassStart text = true := by
      by_contra hclass
      exact hopen (by simp [hclass])
    have hcarry : carry.isOpen = false := by simpa [hclass] using hopen
    refine ⟨n, ?_, ?_, rfl⟩
    · exact if_neg hopen
    · exact if_neg (by simp [(hstart hclass).1, hcarry])
  | inHeader start text =>
    obtain rfl := Option.some.inj hp
    exact ⟨start, rfl, rfl, rfl⟩
  | inBody b =>
    rw [Phase.header?] at hp
    split at hp
    · next hends =>
      obtain rfl := Option.some.inj hp
      obtain ⟨hends, hclass⟩ := Bool.and_eq_true_iff.mp hends
      obtain ⟨hclass', hne⟩ := hstart hclass
      have hends' : b.endsAbove (text ++ more) = true := by
        rw [Body.endsAbove, isIdle_append hne, indentation_append hne]
        exact hends
      have hnext : ∀ {line}, b.endsAbove line = true → isClassStart line = true →
          (inBody b).next n line = HeaderText.next {} n line := fun hends hclass => by
        rw [Phase.next_inBody, if_pos hends, Carry.next, if_neg (by simp [hclass, Carry.isOpen])]
      refine ⟨n, hnext hends hclass, hnext hends' hclass', ?_⟩
      rw [Phase.ended_inBody, Phase.ended_inBody, hends, hends']
    · exact nomatch hp

/-- **Below a broken line** the reader stands as it stands below the line. -/
theorem Phase.after_break {p : Phase} {text more : List Char} (hp : p.IsInBracket text)
    (hkeeps : p.KeepsFields text more) {indent : List Char} (hi : ∀ a ∈ indent, isBlank a = true)
    (n : Nat) :
    (p.after n [text ++ ' ' :: more]).Alike (p.after n [text, indent ++ more]) ∧
      p.completed n [text ++ ' ' :: more] = p.completed n [text, indent ++ more] := by
  rcases hp with ⟨carry, hcarry, hmargin, d, hd, hscan⟩ | ⟨h, x, hheader, hx⟩
  · cases p with
    | outside carry => exact nomatch hcarry
    | inHeader start text => exact nomatch hcarry
    | inBody b =>
      obtain rfl : b.carry = carry := Option.some.inj hcarry
      have hends : b.endsAbove text = false := by
        rcases hmargin with hopen | hindent
        · simp [Body.endsAbove, hopen]
        · simp [Body.endsAbove, hindent]
      obtain ⟨hline, htext, hmore, hnext⟩ := Body.next_break hd hscan hmargin (fun hclosed =>
        hkeeps.statements (by simp [Phase.isClosed, hclosed]) (by simp [Phase.header?, hends])) hi
        (n + 1)
      simp only [Phase.after, Phase.completed, Phase.next_inBody, Phase.ended_inBody, hline, htext,
        hmore, if_false, Bool.false_eq_true]
      exact ⟨.inBody hnext, rfl⟩
  · obtain ⟨k, htext, hline, hended⟩ := Phase.next_header hheader (' ' :: more) (n + 1)
    obtain ⟨halike, hnone⟩ := HeaderText.next_break hx (hkeeps.suite h x hheader hx.header) hi k
      (n + 1 + 1)
    simp only [Phase.after, Phase.completed, htext, hline, hended, hnone]
    exact ⟨halike, rfl⟩

/-- **Line breaks inside brackets do not matter** where no further field is declared behind them on
their line: the models have the same names and their fields the same names and types. -/
theorem readModels_break (file : Path) (markers : List String) {content content' : String}
    {pre post : List (List Char)} {text more indent : List Char}
    (hlines : lines content.toList = pre ++ (text ++ ' ' :: more) :: post)
    (hlines' : lines content'.toList = pre ++ text :: (indent ++ more) :: post)
    (hi : ∀ a ∈ indent, isBlank a = true)
    (hp : (pre.foldl (step file markers) {}).phase.IsInBracket text)
    (hkeeps : (pre.foldl (step file markers) {}).phase.KeepsFields text more) {m : Models}
    (hm : (readModels file markers content).1 = .ok m) :
    ∃ m', (readModels file markers content').1 = .ok m' ∧ m'.signatures = m.signatures := by
  rw [foldl_step_phase] at hp hkeeps
  obtain ⟨hafter, hcompleted⟩ := Phase.after_break hp hkeeps hi pre.length
  refine readModels_alike file markers [text ++ ' ' :: more] [text, indent ++ more] hlines hlines'
    rfl hafter ?_ hm
  exact hcompleted ▸ List.forall₂_same.mpr fun b _ => .refl b

/-- The second of two statements on a line, broken inside its brackets before a statement that is no
field, and a statement on the header line, broken before another one that is. -/
theorem readModels_break_second :
    (∃ m', (readModels ⟨["m.py"]⟩ ["Model"]
        "class A(Model):\n x = F(); y = G(1,\n   2); pass\n z = H()\n").1 = .ok m' ∧
      m'.signatures = [("A", [("x", "F"), ("y", "G"), ("z", "H")])]) ∧
    ∃ m', (readModels ⟨["m.py"]⟩ ["Model"] "class A(Model): x = F(1,\n2); y = G()\n").1 = .ok m' ∧
      m'.signatures = [("A", [("x", "F"), ("y", "G")])] := by
  constructor
  · have hlines : lines "class A(Model):\n x = F(); y = G(1, 2); pass\n z = H()\n".toList =
        ["class A(Model):".toList] ++ (" x = F(); y = G(1,".toList ++ ' ' :: "2); pass".toList) ::
          [" z = H()".toList] := by decide +kernel
    have hlines' : lines "class A(Model):\n x = F(); y = G(1,\n   2); pass\n z = H()\n".toList =
        ["class A(Model):".toList] ++ " x = F(); y = G(1,".toList ::
          ("   ".toList ++ "2); pass".toList) :: [" z = H()".toList] := by decide +kernel
    have hm : (readModels ⟨["m.py"]⟩ ["Model"]
        "class A(Model):\n x = F(); y = G(1, 2); pass\n z = H()\n").1 =
          .ok ⟨[⟨"A", [⟨"x", "F", true, 2⟩, ⟨"y", "G", true, 2⟩, ⟨"z", "H", true, 3⟩], ⟨["m.py"]⟩, 1⟩],
            1⟩ := by decide +kernel
    have hbracket : (["class A(Model):".toList].foldl (step ⟨["m.py"]⟩ ["Model"]) {}).phase.IsInBracket
        " x = F(); y = G(1,".toList :=
      .inl ⟨{}, by decide +kernel, by decide +kernel, 1, by decide,
        scansTo_of_plain (s := " x = F(); y = G(1,".toList) (by decide) 0⟩
    have hnone : (["class A(Model):".toList].foldl (step ⟨["m.py"]⟩ ["Model"]) {}).phase.header?
        " x = F(); y = G(1,".toList = none :=
      Option.isNone_iff_eq_none.mp (by decide +kernel)
    exact readModels_break ⟨["m.py"]⟩ ["Model"] hlines hlines' (List.all_eq_true.mp (by decide))
      hbracket ⟨fun _ _ _ => by decide +kernel, fun h x hh => nomatch hnone.symm.trans hh⟩ hm
  · have hlines : lines "class A(Model): x = F(1, 2); y = G()\n".toList =
        [] ++ ("class A(Model): x = F(1,".toList ++ ' ' :: "2); y = G()".toList) :: [] := by
      decide +kernel
    have hlines' : lines "class A(Model): x = F(1,\n2); y = G()\n".toList =
        [] ++ "class A(Model): x = F(1,".toList :: ([] ++ "2); y = G()".toList) :: [] := by
      decide +kernel
    have hm : (readModels ⟨["m.py"]⟩ ["Model"] "class A(Model): x = F(1, 2); y = G()\n").1 =
        .ok ⟨[⟨"A", [⟨"x", "F", true, 1⟩, ⟨"y", "G", true, 1⟩], ⟨["m.py"]⟩, 1⟩], 0⟩ := by
      decide +kernel
    have hheader : (Phase.outside {}).header? "class A(Model): x = F(1,".toList = some {} := rfl
    have hsuite : HeaderText.InSuite {} "class A(Model): x = F(1,".toList
        ⟨"A", ["Model"], "x = F(1,".toList⟩ :=
      ⟨by decide +kernel, by decide +kernel, 1, by decide,
        scansTo_of_plain (s := "x = F(1,".toList) (by decide) 0⟩
    -- the bracket of the statement keeps the header open
    have hopen : (HeaderText.add {} "class A(Model): x = F(1,".toList).isComplete = false := by
      decide +kernel
    refine readModels_break ⟨["m.py"]⟩ ["Model"] hlines hlines' (fun _ ha => nomatch ha)
      (.inr ⟨{}, _, hheader, hsuite⟩) ⟨fun _ hnone => ?_, ?_⟩ hm
    · exact nomatch hheader.symm.trans hnone
    · rintro h x hh - hcomplete
      obtain rfl := Option.some.inj (hheader.symm.trans hh)
      exact Bool.noConfusion (hopen.symm.trans hcomplete)

/-- **A field that is declared behind the break is lost.** The field after the semicolon is found if
the call before it stands on one line, not if the line is broken inside its brackets. -/
theorem not_readModels_break : ¬ ∀ (file : Path) (markers : List String) (content content' : String)
    (pre post : List (List Char)) (text more indent : List Char) (m : Models),
    lines content.toList = pre ++ (text ++ ' ' :: more) :: post →
    lines content'.toList = pre ++ text :: (indent ++ more) :: post →
    (∀ a ∈ indent, isBlank a = true) →
    (pre.foldl (step file markers) {}).phase.IsInBracket text →
    (readModels file markers content).1 = .ok m →
    ∃ m', (readModels file markers content').1 = .ok m' ∧ m'.signatures = m.signatures := by
  intro h
  have hm : (readModels ⟨["m.py"]⟩ ["Model"] "class A(Model):\n x = F(1, 2); y = G()\n").1 =
      .ok ⟨[⟨"A", [⟨"x", "F", true, 2⟩, ⟨"y", "G", true, 2⟩], ⟨["m.py"]⟩, 1⟩], 0⟩ := by
    decide +kernel
  have hm' : (readModels ⟨["m.py"]⟩ ["Model"] "class A(Model):\n x = F(1,\n2); y = G()\n").1 =
      .ok ⟨[⟨"A", [⟨"x", "F", true, 2⟩], ⟨["m.py"]⟩, 1⟩], 0⟩ := by decide +kernel
  have hbracket : (["class A(Model):".toList].foldl (step ⟨["m.py"]⟩ ["Model"]) {}).phase.IsInBracket
      " x = F(1,".toList :=
    .inl ⟨{}, by decide +kernel, by decide +kernel, 1, by decide,
      scansTo_of_plain (s := " x = F(1,".toList) (by decide) 0⟩
  obtain ⟨m', hread, hsame⟩ := h ⟨["m.py"]⟩ ["Model"] _ "class A(Model):\n x = F(1,\n2); y = G()\n"
    ["class A(Model):".toList] [] " x = F(1,".toList "2); y = G()".toList [] _ (by decide +kernel)
    (by decide +kernel) (fun _ ha => nomatch ha) hbracket hm
  obtain rfl := Except.ok.inj (hm'.symm.trans hread)
  exact absurd hsame (by decide)

end ModelTypings.Source
