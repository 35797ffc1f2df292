import Mathlib.Control.Monad.Basic
import Mathlib.Data.Finset.Card
import Mathlib.Data.Finset.Insert
import Mathlib.Data.Finset.Lattice.Lemmas
import ModelTypings.Proofs.Source.Field

/-!
# Reading one text after another

A text that leaves nothing open can be read apart from the text that follows it.

* `lines_append`: the lines of two texts, the first of which ends its last line;
* `Field.below`, `Model.below`, `Models.followedBy`: what is found after earlier lines;
* `State.settled`, `finish_foldl_settled`: a class that nothing keeps open may be closed at once;
* `State.Follows`, `Follows.step`, `Follows.foldl`: reading some lines alone and after others, in
  lockstep;
* **`readModels_append`**: the models, the fault and the warnings of two texts in a row.
-/

namespace ModelTypings.Source

open Text Log Files

/-! ## Lines of two texts -/

/-- The text is empty or ends its last line. -/
def EndsLine (cs : List Char) : Prop := cs = [] ∨ cs.getLast? = some '\n'

theorem EndsLine.tail {c : Char} {cs : List Char} (h : EndsLine (c :: cs)) : EndsLine cs := by
  cases cs with
  | nil => exact Or.inl rfl
  | cons d cs => exact Or.inr (by simpa [EndsLine, List.getLast?_cons_cons] using h)

theorem EndsLine.tail_ne_nil {c : Char} {cs : List Char} (h : EndsLine (c :: cs)) (hc : c ≠ '\n') :
    cs ≠ [] := by
  rintro rfl
  simp [EndsLine, hc] at h

theorem lines_ne_nil {cs : List Char} (h : cs ≠ []) : lines cs ≠ [] := by
  fun_cases lines cs <;> simp_all

theorem lines_cons_of_ne {c : Char} {cs l : List Char} {ls : List (List Char)} (hc : c ≠ '\n')
    (hr : ¬ (c = '\r' ∧ cs.head? = some '\n')) (h : lines cs = l :: ls) :
    lines (c :: cs) = (c :: l) :: ls := by
  rw [lines, h]
  · exact fun e => hc e
  · rintro ds rfl rfl
    exact hr ⟨rfl, rfl⟩

/-- **The lines of two texts in a row**, if the first ends its last line. -/
theorem lines_append {a b : List Char} (h : EndsLine a) : lines (a ++ b) = lines a ++ lines b := by
  fun_induction lines a with
  | case1 => rfl
  | case2 cs ih => rw [List.cons_append, lines, ih h.tail, List.cons_append]
  | case3 cs ih =>
    rw [List.cons_append, List.cons_append, lines, ih h.tail.tail, List.cons_append]
  | case4 c cs hc _ e => exact absurd e (lines_ne_nil (h.tail_ne_nil fun e => hc e))
  | case5 c cs hc hr l ls e ih =>
    have hne : cs ≠ [] := h.tail_ne_nil fun e => hc e
    have hb := ih h.tail
    rw [e, List.cons_append] at hb
    rw [List.cons_append, lines_cons_of_ne (fun e => hc e) _ hb, List.cons_append]
    rintro ⟨rfl, hn⟩
    rw [List.head?_append_of_ne_nil _ hne] at hn
    obtain ⟨ds, rfl⟩ := List.head?_eq_some_iff.mp hn
    exact hr ds rfl rfl

/-! ## Blank lines and comments -/

/-- The line is blank or a comment. -/
def isIdle (line : List Char) : Bool :=
  (trimStart line).isEmpty || (trimStart line).head? == some '#'

/-- The first line that is neither blank nor a comment starts with a character that is not blank. -/
def StartsAtMargin (ls : List (List Char)) : Prop :=
  ∀ line, ls.find? (fun line => !isIdle line) = some line → ∀ c ∈ line.head?, isBlank c = false

theorem indentation_eq_zero {line : List Char} (h : ∀ c ∈ line.head?, isBlank c = false) :
    indentation line = 0 := by
  cases line with
  | nil => rfl
  | cons c cs =>
    have hc : isBlank c = false := h c rfl
    rw [indentation, List.takeWhile_cons_of_neg (by simp [hc]), List.foldr_nil]

theorem isQuote_of_isBlank {c : Char} (hc : isBlank c = true) : isQuote c = false := by
  simp only [isQuote, Bool.or_eq_false_iff, beq_eq_false_iff_ne]
  exact ⟨ne_of_isBlank (by decide) hc, ne_of_isBlank (by decide) hc⟩

theorem scan_code_cons {c : Char} (d : Int) (cs : List Char) (hc : c ≠ '#')
    (hq : isQuote c = false) : scan .code d (c :: cs) = scan .code (d + nesting c) cs := by
  match cs with
  | [] | [_] | _ :: _ :: _ => simp [scan, hc, hq]

theorem scan_comment (d : Int) (cs : List Char) : scan .code d ('#' :: cs) = (.code, d) := by
  match cs with
  | [] | [_] | _ :: _ :: _ => simp [scan]

theorem scan_trimStart (d : Int) : ∀ line, scan .code d line = scan .code d (trimStart line)
  | [] => rfl
  | c :: cs => by
    by_cases hc : isBlank c = true
    · have ht : trimStart (c :: cs) = trimStart cs := List.dropWhile_cons_of_pos hc
      rw [ht, scan_code_cons d cs (ne_of_isBlank (by decide) hc) (isQuote_of_isBlank hc),
        nesting_of_isBlank hc, Int.add_zero, scan_trimStart d cs]
    · rw [trimStart, List.dropWhile_cons_of_neg hc]

/-- **A blank line or a comment leaves nothing open.** -/
theorem feed_of_isIdle {line : List Char} (h : isIdle line = true) : Carry.feed {} line = {} := by
  have hs : scan .code (({} : Carry).brackets : Int) line = (.code, 0) := by
    rw [scan_trimStart]
    cases ht : trimStart line with
    | nil => rfl
    | cons c cs =>
      simp only [isIdle, ht, List.isEmpty_cons, Bool.false_or, List.head?_cons,
        beq_iff_eq, Option.some.injEq] at h
      rw [h, scan_comment]
      rfl
  rw [Carry.feed, hs]
  rfl

theorem isClassStart_of_isIdle {line : List Char} (h : isIdle line = true) :
    isClassStart line = false := by
  by_contra hc
  have hl : ∃ cs, line = 'c' :: cs := by
    unfold isClassStart afterClass at hc
    split at hc
    · split at * <;> simp_all
    · simp at hc
  obtain ⟨cs, rfl⟩ := hl
  have ht : trimStart ('c' :: cs) = 'c' :: cs := List.dropWhile_cons_of_neg (by decide)
  simp [isIdle, ht] at h

/-! ## Closing a class at once -/

/-- No header, string or bracket is open. -/
def Phase.isClosed : Phase → Bool
  | .outside carry => !carry.isOpen
  | .inHeader .. => false
  | .inBody b => !b.carry.isOpen

theorem Carry.eq_of_isOpen {c : Carry} (h : c.isOpen = false) : c = {} := by
  obtain ⟨string, brackets⟩ := c
  simp [Carry.isOpen] at h
  simp [h]

/-- The account with the class under way closed. -/
def State.settled (file : Path) (markers : List String) (s : State) : State :=
  match s.phase with
  | .inBody b => { b.close file markers s with phase := .outside {} }
  | _ => s

section Settled

variable (file : Path) (markers : List String) {s : State}

theorem Body.close_read (b : Body) (s : State) (n : Nat) :
    b.close file markers { s with read := n } = { b.close file markers s with read := n } := by
  unfold Body.close
  split
  · rfl
  · split <;> rfl

theorem Body.read_close (b : Body) (s : State) : (b.close file markers s).read = s.read := by
  unfold Body.close
  split
  · rfl
  · split <;> rfl

theorem isClosed_settled (h : s.phase.isClosed) : (s.settled file markers).phase.isClosed := by
  unfold State.settled
  split
  · rfl
  · exact h

theorem read_settled (s : State) : (s.settled file markers).read = s.read := by
  unfold State.settled
  split
  · exact Body.read_close ..
  · rfl

theorem settled_setRead (n : Nat) : ({ s with read := n } : State).settled file markers =
    { s.settled file markers with read := n } := by
  obtain ⟨read, phase, found, events⟩ := s
  cases phase with
  | outside c => rfl
  | inHeader line text => rfl
  | inBody b =>
    have e := Body.close_read file markers b ⟨read, .inBody b, found, events⟩ n
    simp only [State.settled, e]

theorem step_of_isIdle (h : s.phase.isClosed) {line : List Char} (hl : isIdle line = true) :
    step file markers s line = { s with read := s.read + 1 } := by
  obtain ⟨read, phase, found, events⟩ := s
  cases phase with
  | outside c =>
    obtain rfl : c = {} := Carry.eq_of_isOpen (by simpa [Phase.isClosed] using h)
    simp [step, outsideLine, isClassStart_of_isIdle hl, feed_of_isIdle hl]
  | inHeader line text => simp [Phase.isClosed] at h
  | inBody b =>
    have hb : b.carry.isOpen = false := by simpa [Phase.isClosed] using h
    have hi : ((trimStart line).isEmpty || (trimStart line).head? == some '#') = true := hl
    simp only [step, bodyLine, hb, hi, if_true, Bool.false_eq_true, if_false]

/-- What a line outside classes makes of an account does not depend on the phase. -/
theorem outsideLine_phase (carry : Carry) (n : Nat) (line : List Char) (s : State) (p : Phase) :
    outsideLine file carry n line { s with phase := p } = outsideLine file carry n line s := by
  unfold outsideLine headerLine openBody
  split <;> rfl

theorem step_of_margin (h : s.phase.isClosed) {line : List Char} (hl : isIdle line = false)
    (hi : indentation line = 0) :
    step file markers s line = step file markers (s.settled file markers) line := by
  obtain ⟨read, phase, found, events⟩ := s
  cases phase with
  | outside c => rfl
  | inHeader line text => rfl
  | inBody b =>
    have hb : b.carry.isOpen = false := by simpa [Phase.isClosed] using h
    have hl' : ((trimStart line).isEmpty || (trimStart line).head? == some '#') = false := hl
    have e := Body.close_read file markers b ⟨read, .inBody b, found, events⟩ (read + 1)
    have hr := Body.read_close file markers b ⟨read, .inBody b, found, events⟩
    simp only [step, bodyLine, hb, hl', hi, if_true, Bool.false_eq_true, if_false, State.settled,
      e, hr]
    exact (outsideLine_phase file {} (read + 1) line
      { b.close file markers ⟨read, .inBody b, found, events⟩ with read := read + 1 }
      (.outside {})).symm

theorem finish_settled : finish file markers (s.settled file markers) = finish file markers s := by
  obtain ⟨read, phase, found, events⟩ := s
  cases phase <;> rfl

/-- **A class that nothing keeps open may be closed before the lines that follow**, if they start
at the margin. -/
theorem finish_foldl_settled : ∀ {ls : List (List Char)} {s : State}, s.phase.isClosed →
    StartsAtMargin ls →
      finish file markers (ls.foldl (step file markers) (s.settled file markers)) =
        finish file markers (ls.foldl (step file markers) s)
  | [], s, _, _ => finish_settled file markers
  | line :: ls, s, h, hm => by
    rw [List.foldl_cons, List.foldl_cons]
    by_cases hl : isIdle line = true
    · rw [step_of_isIdle file markers h hl,
        step_of_isIdle file markers (isClosed_settled file markers h) hl]
      rw [read_settled, ← settled_setRead]
      refine finish_foldl_settled h fun line' hf => hm line' ?_
      rw [List.find?_cons_of_neg (by simp [hl]), hf]
    · have hf : (line :: ls).find? (fun line => !isIdle line) = some line :=
        List.find?_cons_of_pos (by simpa using hl)
      rw [step_of_margin file markers h (by simpa using hl) (indentation_eq_zero (hm line hf))]

end Settled

/-! ## What is found after earlier lines -/

/-- The field, `n` lines further down. -/
def Field.below (n : Nat) (f : Field) : Field := { f with line := n + f.line }

/-- The model, `n` lines further down. -/
def Model.below (n : Nat) (m : Model) : Model :=
  { m with line := n + m.line, fields := m.fields.map (Field.below n) }

/-- The names of the models. -/
def Models.names (m : Models) : Finset String := (m.models.map Model.name).toFinset

/-- What is found in two texts, the first of `n` lines: a model of the first is dropped if the
second has one of its name. -/
def Models.followedBy (n : Nat) (a b : Models) : Models where
  models := a.models.filter (fun m => m.name ∉ b.names) ++ b.models.map (Model.below n)
  skipped := a.skipped + b.skipped

/-- The class under way, `n` lines further down. -/
def Body.below (n : Nat) (b : Body) : Body :=
  { b with line := n + b.line, fields := b.fields.map (Field.below n) }

/-- Where the reader stands, `n` lines further down. -/
def Phase.below (n : Nat) : Phase → Phase
  | outside carry => outside carry
  | inHeader line text => inHeader (n + line) text
  | inBody b => inBody (b.below n)

/-- The event warns of a model that is dropped for a later one of its name. -/
def isRedefinition : Event → Bool
  | .redefined .. => true
  | _ => false

/-- The number of warnings of dropped models. -/
def redefinitions (events : List Event) : Nat := events.countP isRedefinition

theorem redefinitions_append (es fs : List Event) :
    redefinitions (es ++ fs) = redefinitions es + redefinitions fs := List.countP_append

theorem names_followedBy (n : Nat) (a b : Models) : (a.followedBy n b).names = a.names ∪ b.names := by
  ext name
  simp only [Models.names, Models.followedBy, List.map_append, List.toFinset_append,
    Finset.mem_union, List.mem_toFinset, List.mem_map, List.mem_filter, decide_eq_true_eq]
  constructor
  · rintro (⟨m, ⟨hm, _⟩, rfl⟩ | ⟨m, ⟨m', hm, rfl⟩, rfl⟩)
    · exact Or.inl ⟨m, hm, rfl⟩
    · exact Or.inr ⟨m', hm, rfl⟩
  · rintro (⟨m, hm, rfl⟩ | ⟨m, hm, rfl⟩)
    · by_cases hb : ∃ m' ∈ b.models, m'.name = m.name
      · obtain ⟨m', hm', e⟩ := hb
        exact Or.inr ⟨m'.below n, ⟨m', hm', rfl⟩, e⟩
      · exact Or.inl ⟨m, ⟨hm, hb⟩, rfl⟩
    · exact Or.inr ⟨m.below n, ⟨m, hm, rfl⟩, rfl⟩

theorem names_add (a : Models) (m : Model) (k : Nat) :
    (a.add m k).names = insert m.name a.names := by
  ext name
  simp only [Models.names, Models.add, List.map_append, List.toFinset_append, List.map_cons,
    List.map_nil, Finset.mem_union, List.mem_toFinset, List.mem_map, List.mem_filter,
    Finset.mem_insert, List.mem_singleton, bne_iff_ne, ne_eq]
  constructor
  · rintro (⟨m', ⟨hm, _⟩, rfl⟩ | rfl)
    · exact Or.inr ⟨m', hm, rfl⟩
    · exact Or.inl rfl
  · rintro (rfl | ⟨m', hm, rfl⟩)
    · exact Or.inr rfl
    · by_cases e : m'.name = m.name
      · exact Or.inr e
      · exact Or.inl ⟨m', ⟨hm, e⟩, rfl⟩

/-- Adding a model to what is found below adds it to the whole. -/
theorem followedBy_add (n : Nat) (a b : Models) (m : Model) (k : Nat) :
    (a.followedBy n b).add (m.below n) k = a.followedBy n (b.add m k) := by
  simp only [Models.followedBy, names_add]
  simp only [Models.add, Models.mk.injEq, List.filter_append, List.filter_filter, List.map_append,
    List.append_assoc, List.map_cons, List.map_nil]
  refine ⟨congrArg₂ _ (List.filter_congr fun x _ => ?_) (congrArg₂ _ ?_ rfl), Nat.add_assoc ..⟩
  · by_cases e : x.name = m.name <;> simp [Model.below, e]
  · rw [List.filter_map]
    rfl

/-! ## The warning of a dropped model -/

theorem close_isModel {file : Path} {markers : List String} {b : Body} {h : ClassHeader} {s : State}
    (hb : b.header = some h) (hm : h.isModel markers = true) :
    (b.close file markers s).phase = s.phase ∧
      (b.close file markers s).found = s.found.add ⟨h.name, b.fields, file, b.line⟩ b.skipped ∧
      redefinitions (b.close file markers s).events =
        redefinitions s.events + if h.name ∈ s.found.names then 1 else 0 := by
  simp only [Body.close, hb, hm, if_true, true_and]
  rw [redefinitions_append, Nat.add_left_cancel_iff]
  cases hf : s.found.models.find? fun m => m.name == h.name with
  | none =>
    have hn : h.name ∉ s.found.names := by
      simp only [List.find?_eq_none, beq_iff_eq] at hf
      simp only [Models.names, List.mem_toFinset, List.mem_map, not_exists, not_and]
      exact hf
    rw [if_neg hn]
    rfl
  | some old =>
    have hn : h.name ∈ s.found.names := by
      have e : old.name = h.name := by simpa using List.find?_some hf
      exact List.mem_toFinset.mpr (List.mem_map.mpr ⟨old, List.mem_of_find?_eq_some hf, e⟩)
    rw [if_pos hn]
    rfl

theorem close_of_header_none {file : Path} {markers : List String} {b : Body} (s : State)
    (hb : b.header = none) : b.close file markers s = s := by
  simp only [Body.close, hb]

theorem close_of_not_isModel {file : Path} {markers : List String} {b : Body} {h : ClassHeader}
    (s : State) (hb : b.header = some h) (hm : h.isModel markers = false) :
    b.close file markers s =
      { s with events := s.events ++ [.notModel file b.line h.name h.bases] } := by
  simp only [Body.close, hb, hm, Bool.false_eq_true, if_false]

/-! ## The statements of a line further down -/

theorem fieldsOf_below (n line : Nat) (ss : List (List Char)) :
    (fieldsOf (n + line) ss).1 = (fieldsOf line ss).1.map (Field.below n) ∧
      (fieldsOf (n + line) ss).2.length = (fieldsOf line ss).2.length :=
  fieldsOf_relabel (n + ·) line ss

theorem redefinitions_fieldsOf (line : Nat) (ss : List (List Char)) :
    redefinitions (fieldsOf line ss).2 = 0 := by
  rw [fieldsOf_eq, redefinitions, List.countP_map, List.countP_eq_zero]
  exact fun s _ h => nomatch h

/-! ## In lockstep -/

/-- `t` is the account of some lines read after those of `base`, and `s` that of the same lines read
alone. -/
structure State.Follows (base s t : State) : Prop where
  read : t.read = base.read + s.read
  phase : t.phase = s.phase.below base.read
  found : t.found = base.found.followedBy base.read s.found
  warned : redefinitions t.events =
    redefinitions base.events + redefinitions s.events + (base.found.names ∩ s.found.names).card

namespace State.Follows

variable {file : Path} {markers : List String} {base s t : State}

theorem setRead (h : Follows base s t) (n : Nat) :
    Follows base { s with read := n } { t with read := base.read + n } :=
  ⟨rfl, h.phase, h.found, h.warned⟩

theorem setPhase (h : Follows base s t) (p : Phase) :
    Follows base { s with phase := p } { t with phase := p.below base.read } :=
  ⟨h.read, rfl, h.found, h.warned⟩

theorem addEvents (h : Follows base s t) {es fs : List Event}
    (e : redefinitions es = redefinitions fs) :
    Follows base { s with events := s.events ++ es } { t with events := t.events ++ fs } := by
  refine ⟨h.read, h.phase, h.found, ?_⟩
  simp only [redefinitions_append, h.warned]
  omega

theorem setBody (h : Follows base s t) (b : Body) {es fs : List Event}
    (he : redefinitions es = 0) (hf : redefinitions fs = 0) :
    Follows base { s with phase := .inBody b, events := s.events ++ es }
      { t with phase := .inBody (b.below base.read), events := t.events ++ fs } :=
  (h.setPhase (.inBody b)).addEvents (he.trans hf.symm)

/-- A name is common to both texts from the first model that has it on. -/
theorem card_inter_insert (a b : Finset String) (name : String) :
    (a ∩ insert name b).card + (if name ∈ b then 1 else 0) =
      (a ∩ b).card + if name ∈ a ∪ b then 1 else 0 := by
  by_cases hb : name ∈ b
  · rw [Finset.insert_eq_of_mem hb, if_pos hb, if_pos (Finset.mem_union_right _ hb)]
  · by_cases ha : name ∈ a
    · have hn : name ∉ a ∩ b := fun h => hb (Finset.mem_inter.mp h).2
      rw [Finset.inter_insert_of_mem ha, Finset.card_insert_of_notMem hn, if_neg hb,
        if_pos (Finset.mem_union_left _ ha)]
    · have hn : name ∉ a ∪ b := fun h => (Finset.mem_union.mp h).elim ha hb
      rw [Finset.inter_insert_of_notMem ha, if_neg hb, if_neg hn]

/-- **The end of a class.** -/
theorem close (h : Follows base s t) (b : Body) :
    Follows base (b.close file markers s) ((b.below base.read).close file markers t) := by
  cases hh : b.header with
  | none => rwa [close_of_header_none s hh, close_of_header_none t (b := b.below base.read) hh]
  | some header =>
    cases hm : header.isModel markers with
    | false =>
      rw [close_of_not_isModel s hh hm, close_of_not_isModel t (b := b.below base.read) hh hm]
      exact h.addEvents rfl
    | true =>
      obtain ⟨hp, hf, hw⟩ := @close_isModel file markers b _ s hh hm
      obtain ⟨hp', hf', hw'⟩ := @close_isModel file markers (b.below base.read) _ t hh hm
      refine ⟨?_, ?_, ?_, ?_⟩
      · rw [Body.read_close, Body.read_close, h.read]
      · rw [hp, hp', h.phase]
      · rw [hf, hf', h.found]
        exact followedBy_add base.read base.found s.found ⟨header.name, b.fields, file, b.line⟩ _
      · have hc := card_inter_insert base.found.names s.found.names header.name
        rw [hw, hw', hf, names_add, h.found, names_followedBy, h.warned]
        dsimp only
        omega

theorem openBody (h : Follows base s t) (line : Nat) (text : List Char) :
    Follows base (openBody file line text s) (openBody file (base.read + line) text t) := by
  unfold Source.openBody
  cases ClassHeader.ofText? text with
  | none => exact h.setBody { header := none, line } rfl rfl
  | some header =>
    have hf := fieldsOf_below base.read line (statements header.inlineBody)
    dsimp only
    rw [hf.1, hf.2]
    exact h.setBody
      { header := some header, line
        carry := Carry.feed {} header.inlineBody
        fields := (fieldsOf line (statements header.inlineBody)).1
        skipped := (fieldsOf line (statements header.inlineBody)).2.length }
      (redefinitions_fieldsOf ..) (redefinitions_fieldsOf ..)

theorem headerLine (h : Follows base s t) (start : Nat) (text : HeaderText) (line : List Char) :
    Follows base (headerLine file start text line s)
      (headerLine file (base.read + start) text line t) := by
  unfold Source.headerLine
  dsimp only
  split
  · exact h.openBody start _
  · exact h.setPhase (.inHeader start _)

theorem outsideLine (h : Follows base s t) (carry : Carry) (n : Nat) (line : List Char) :
    Follows base (outsideLine file carry n line s)
      (outsideLine file carry (base.read + n) line t) := by
  unfold Source.outsideLine
  split
  · exact h.setPhase (.outside _)
  · exact h.headerLine n {} line

theorem bodyLine (h : Follows base s t) (b : Body) (n : Nat) (line : List Char) :
    Follows base (bodyLine file markers b n line s)
      (bodyLine file markers (b.below base.read) (base.read + n) line t) := by
  unfold Source.bodyLine
  have hc : (b.below base.read).carry = b.carry := rfl
  have hi : (b.below base.read).indent = b.indent := rfl
  dsimp only
  rw [hc, hi]
  split
  · exact h.setPhase (.inBody { b with carry := b.carry.feed line })
  split
  · exact h
  split
  · exact (h.close b).outsideLine {} n line
  split
  -- a line at the indentation of the body, then a deeper one
  · have hf := fieldsOf_below base.read n (statements (trimStart line))
    have := h.setBody
      { b with
        carry := b.carry.feed (trimStart line)
        indent := some (b.indent.getD (indentation line))
        fields := b.fields ++ (fieldsOf n (statements (trimStart line))).1
        skipped := b.skipped + (fieldsOf n (statements (trimStart line))).2.length }
      (redefinitions_fieldsOf n (statements (trimStart line)))
      (redefinitions_fieldsOf (base.read + n) (statements (trimStart line)))
    rw [hf.1, hf.2]
    simpa only [Body.below, List.map_append] using this
  · have := @setBody base s t h
      { b with
        carry := b.carry.feed (trimStart line)
        indent := some (b.indent.getD (indentation line)) } [] [] rfl rfl
    simpa only [Body.below, List.append_nil, List.length_nil, Nat.add_zero] using this

/-- **One more line.** -/
theorem step (h : Follows base s t) (line : List Char) :
    Follows base (step file markers s line) (step file markers t line) := by
  have hr := h.setRead (s.read + 1)
  have hn : t.read + 1 = base.read + (s.read + 1) := by rw [h.read]; omega
  rw [h.phase] at hr
  unfold Source.step
  dsimp only
  rw [h.phase, hn]
  cases hp : s.phase with rw [hp] at hr
  | outside carry => exact hr.outsideLine carry (s.read + 1) line
  | inHeader start text => exact hr.headerLine start text line
  | inBody b => exact hr.bodyLine b (s.read + 1) line

theorem foldl (h : Follows base s t) (ls : List (List Char)) :
    Follows base (ls.foldl (Source.step file markers) s)
      (ls.foldl (Source.step file markers) t) := by
  induction ls generalizing s t with
  | nil => exact h
  | cons line ls ih => exact ih (h.step line)

theorem refl (hp : base.phase = .outside {}) : Follows base {} base where
  read := rfl
  phase := hp
  found := by simp [Models.followedBy, Models.names]
  warned := by simp [redefinitions, Models.names]

end State.Follows

/-! ## Two texts -/

/-- The account at the end of a text. -/
def stateAfter (file : Path) (markers : List String) (content : String) : State :=
  (lines content.toList).foldl (step file markers) {}

theorem readModels_eq (file : Path) (markers : List String) (content : String) :
    readModels file markers content = finish file markers (stateAfter file markers content) := rfl

section Reading

variable (file : Path) (markers : List String)

theorem openBody_read (line : Nat) (text : List Char) (s : State) :
    (openBody file line text s).read = s.read := by
  unfold openBody
  split <;> rfl

theorem headerLine_read (start : Nat) (text : HeaderText) (line : List Char) (s : State) :
    (headerLine file start text line s).read = s.read := by
  unfold headerLine
  dsimp only
  split
  · exact openBody_read ..
  · rfl

theorem outsideLine_read (carry : Carry) (n : Nat) (line : List Char) (s : State) :
    (outsideLine file carry n line s).read = s.read := by
  unfold outsideLine
  split
  · rfl
  · exact headerLine_read ..

theorem bodyLine_read (b : Body) (n : Nat) (line : List Char) (s : State) :
    (bodyLine file markers b n line s).read = s.read := by
  unfold bodyLine
  dsimp only
  split
  · rfl
  split
  · rfl
  split
  · rw [outsideLine_read, Body.read_close]
  · rfl

theorem step_read (s : State) (line : List Char) : (step file markers s line).read = s.read + 1 := by
  unfold step
  dsimp only
  split
  · exact outsideLine_read ..
  · exact headerLine_read ..
  · exact bodyLine_read ..

theorem foldl_step_read (ls : List (List Char)) (s : State) :
    (ls.foldl (step file markers) s).read = s.read + ls.length := by
  induction ls generalizing s with
  | nil => rfl
  | cons line ls ih =>
    rw [List.foldl_cons, ih, step_read, List.length_cons]
    omega

variable {file markers}

theorem settled_phase {s : State} (h : s.phase.isClosed) :
    (s.settled file markers).phase = .outside {} := by
  unfold State.settled
  cases hp : s.phase with
  | outside carry =>
    obtain rfl : carry = {} := Carry.eq_of_isOpen (by simpa [hp, Phase.isClosed] using h)
    exact hp
  | inHeader start text => simp [hp, Phase.isClosed] at h
  | inBody b => rfl

/-- **The end of a file**, read alone and after other lines. -/
theorem State.Follows.finish {base s t : State} (h : State.Follows base s t) :
    (∀ f, (finish file markers s).1 = .error f → ∃ k, f = .unterminatedClass file k ∧
      (finish file markers t).1 = .error (.unterminatedClass file (base.read + k))) ∧
    ∀ m, (finish file markers s).1 = .ok m →
      (finish file markers t).1 = .ok (base.found.followedBy base.read m) ∧
      redefinitions (finish file markers t).2 = redefinitions base.events +
        redefinitions (finish file markers s).2 + (base.found.names ∩ m.names).card := by
  have hph := h.phase
  unfold Source.finish
  cases hp : s.phase with rw [hp] at hph
  | outside carry =>
    rw [hph]
    refine ⟨fun f hf => (nomatch hf), fun m hm => ?_⟩
    obtain rfl : s.found = m := by simpa using hm
    exact ⟨congrArg _ h.found, h.warned⟩
  | inHeader start text =>
    rw [hph]
    refine ⟨fun f hf => ?_, fun m hm => (nomatch hm)⟩
    obtain rfl : .unterminatedClass file start = f := by simpa using hf
    exact ⟨start, rfl, rfl⟩
  | inBody b =>
    rw [hph]
    have hc := @State.Follows.close file markers _ _ _ h b
    refine ⟨fun f hf => (nomatch hf), fun m hm => ?_⟩
    obtain rfl : (b.close file markers s).found = m := by simpa using hm
    exact ⟨congrArg _ hc.found, hc.warned⟩

/-- **Two texts in a row.** The first ends its last line and leaves no header, string or bracket
open, and the second starts at the margin. Then the whole can be read if the second can, a fault of
the second moves down by the lines of the first, the models of the first are dropped where the
second has one of their name, and every such name costs one more warning. -/
theorem readModels_append (file : Path) (markers : List String) {a b : String} {m : Models}
    (hend : EndsLine a.toList) (hread : (readModels file markers a).1 = .ok m)
    (hclosed : (stateAfter file markers a).phase.isClosed = true)
    (hmargin : StartsAtMargin (lines b.toList)) :
    ((∃ m', (readModels file markers (a ++ b)).1 = .ok m') ↔
      ∃ m', (readModels file markers b).1 = .ok m') ∧
    (∀ f, (readModels file markers b).1 = .error f → ∃ k, f = .unterminatedClass file k ∧
      (readModels file markers (a ++ b)).1 =
        .error (.unterminatedClass file ((lines a.toList).length + k))) ∧
    ∀ m', (readModels file markers b).1 = .ok m' →
      (readModels file markers (a ++ b)).1 = .ok
        { models := m.models.filter (fun x => x.name ∉ m'.names) ++
            m'.models.map (Model.below (lines a.toList).length)
          skipped := m.skipped + m'.skipped } ∧
      redefinitions (readModels file markers (a ++ b)).2 =
        redefinitions (readModels file markers a).2 + redefinitions (readModels file markers b).2 +
          (m.names ∩ m'.names).card := by
  have hlines : lines (a ++ b).toList = lines a.toList ++ lines b.toList := by
    rw [String.toList_append, lines_append hend]
  let base := (stateAfter file markers a).settled file markers
  have hphase : base.phase = .outside {} := settled_phase hclosed
  have hbase : base.read = (lines a.toList).length := by
    rw [read_settled, stateAfter, foldl_step_read, Nat.zero_add]
  have hab : readModels file markers (a ++ b) =
      finish file markers ((lines b.toList).foldl (step file markers) base) := by
    rw [finish_foldl_settled file markers hclosed hmargin, stateAfter, ← List.foldl_append, ← hlines]
    rfl
  have ha : readModels file markers a = (.ok base.found, base.events) := by
    rw [readModels_eq, ← finish_settled, finish, hphase]
  obtain rfl : base.found = m := by simpa [ha] using hread
  have hfollows := @State.Follows.foldl file markers _ _ _ (State.Follows.refl hphase) (lines b.toList)
  obtain ⟨herr, hok⟩ := @State.Follows.finish file markers _ _ _ hfollows
  rw [← hab, hbase] at herr hok
  refine ⟨⟨fun ⟨m', h'⟩ => ?_, fun ⟨m', h'⟩ => ⟨_, (hok m' h').1⟩⟩, herr, fun m' h' => ?_⟩
  · cases hb : (readModels file markers b).1 with
    | ok m'' => exact ⟨m'', rfl⟩
    | error f =>
      obtain ⟨k, _, hk⟩ := herr f hb
      rw [hk] at h'
      exact nomatch h'
  · rw [ha]
    exact hok m' h'

end Reading

/-- A model declared again in the second text. -/
theorem readModels_append_redeclared :
    (readModels ⟨["m.py"]⟩ ["Model"]
        ("class A(Model):\n x = F()\n" ++ "# next\nclass A(Model): y = G()\n")).1 =
      .ok ⟨[⟨"A", [⟨"y", "G", true, 4⟩], ⟨["m.py"]⟩, 4⟩], 0⟩ ∧
    redefinitions (readModels ⟨["m.py"]⟩ ["Model"]
        ("class A(Model):\n x = F()\n" ++ "# next\nclass A(Model): y = G()\n")).2 = 1 := by
  have hread : (readModels ⟨["m.py"]⟩ ["Model"] "class A(Model):\n x = F()\n").1 =
      .ok ⟨[⟨"A", [⟨"x", "F", true, 2⟩], ⟨["m.py"]⟩, 1⟩], 0⟩ := by decide +kernel
  have hread' : (readModels ⟨["m.py"]⟩ ["Model"] "# next\nclass A(Model): y = G()\n").1 =
      .ok ⟨[⟨"A", [⟨"y", "G", true, 2⟩], ⟨["m.py"]⟩, 2⟩], 0⟩ := by decide +kernel
  have hmargin : StartsAtMargin (lines "# next\nclass A(Model): y = G()\n".toList) := by
    intro line hl c hc
    have h : (lines "# next\nclass A(Model): y = G()\n".toList).find? (fun line => !isIdle line) =
        some "class A(Model): y = G()".toList := by decide +kernel
    have hfirst : "class A(Model): y = G()".toList.head? = some 'c' := by decide +kernel
    obtain rfl : "class A(Model): y = G()".toList = line := Option.some.inj (h.symm.trans hl)
    obtain rfl : 'c' = c := Option.some.inj (hfirst.symm.trans hc)
    decide
  obtain ⟨hm, hw⟩ := (readModels_append ⟨["m.py"]⟩ ["Model"] (Or.inr (by decide)) hread
    (by decide +kernel) hmargin).2.2 _ hread'
  refine ⟨hm.trans (by decide +kernel), hw.trans ?_⟩
  decide +kernel

end ModelTypings.Source
