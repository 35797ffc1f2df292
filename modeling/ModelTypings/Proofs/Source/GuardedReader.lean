import ModelTypings.Proofs.Source.ByteHeader
import ModelTypings.Source.Models

/-!
# Reading a file with guarded places and counters

The reader of a file with the guarded parts. It gives nothing once a text is cut at a place that is
none, a counter leaves 32 bits, or a model is looked up where there is none. Lines of a file are
shorter than the file, and no counter is ever larger than the text read so far.

* `step?`, `readModels?`: the reader with its guards;
* `Phase.Within`: no counter and no text that is kept is larger than a size;
* **`step?_eq`**: one more line raises the size by no more than its own;
* **`readModels?_eq`**: a file that is not too large is read without a guard that fails.
-/

namespace ModelTypings.Source

open Text Log Files
open String (utf8Len)

/-! ## The guarded reader -/

/-- The width of the indentation of a line: its size less the size of its statement. -/
def indentation? (line : List Char) : Option Nat :=
  if utf8Len (trimStart line) ≤ utf8Len line then some (utf8Len line - utf8Len (trimStart line))
  else none

/-- The model of a name, looked up by its place in the list. -/
def Models.named? (m : Models) (name : String) : Option (Option Model) :=
  match m.models.findIdx? fun old => old.name == name with
  | some place => m.models[place]?.map some
  | none => some none

/-- The class of a body is complete. -/
def Body.close? (b : Body) (file : Path) (markers : List String) (s : State) : Option State :=
  match b.header with
  | none => some s
  | some h =>
    if h.isModel markers then do
      let old ← s.found.named? h.name
      let warning :=
        match old with
        | some old => [Event.redefined file b.line h.name old.line]
        | none => []
      some { s with
        found := s.found.add ⟨h.name, b.fields, file, b.line⟩ b.skipped
        events := s.events ++ warning }
    else some { s with events := s.events ++ [.notModel file b.line h.name h.bases] }

/-- The header of a class is complete. -/
def openBody? (file : Path) (line : Nat) (text : List Char) (s : State) : Option State := do
  match ← ClassHeader.read? text with
  | none =>
    some { s with
      phase := .inBody { header := none, line }
      events := s.events ++ [.malformedHeader file line (String.ofList text)] }
  | some h =>
    let (fields, events) := fieldsOf line (← statements? h.inlineBody)
    let carry ← Carry.feed? {} h.inlineBody
    some { s with
      phase := .inBody { header := some h, line, fields, carry, skipped := events.length }
      events := s.events ++ events }

/-- A line of a header that starts on line `start`. -/
def headerLine? (file : Path) (start : Nat) (text : HeaderText) (line : List Char) (s : State) :
    Option State := do
  let text ← text.add? line
  if text.isComplete then openBody? file start text.text s
  else some { s with phase := .inHeader start text }

/-- A line outside classes, number `n` of the file. -/
def outsideLine? (file : Path) (carry : Carry) (n : Nat) (line : List Char) (s : State) :
    Option State :=
  if carry.isOpen || !isClassStart line then do
    let carry ← carry.feed? line
    some { s with phase := .outside carry }
  else headerLine? file n {} line s

/-- A line of a body, number `n` of the file. -/
def bodyLine? (file : Path) (markers : List String) (b : Body) (n : Nat) (line : List Char)
    (s : State) : Option State :=
  if b.carry.isOpen then do
    let carry ← b.carry.feed? line
    some { s with phase := .inBody { b with carry } }
  else
    let statement := trimStart line
    if statement.isEmpty || statement.head? == some '#' then some s
    else do
      let width ← indentation? line
      if width = 0 then outsideLine? file {} n line (← b.close? file markers s)
      else
        let here ← if b.indent.all (· == width) then statements? statement else some []
        let (fields, events) := fieldsOf n here
        let carry ← b.carry.feed? statement
        some { s with
          phase := .inBody {
            b with
            carry
            indent := some (b.indent.getD width)
            fields := b.fields ++ fields
            skipped := b.skipped + events.length }
          events := s.events ++ events }

/-- The account after one more line. -/
def step? (file : Path) (markers : List String) (s : State) (line : List Char) : Option State :=
  let n := s.read + 1
  let s := { s with read := n }
  match s.phase with
  | .outside carry => outsideLine? file carry n line s
  | .inHeader start text => headerLine? file start text line s
  | .inBody b => bodyLine? file markers b n line s

/-- The models at the end of the file, and the events. -/
def finish? (file : Path) (markers : List String) (s : State) :
    Option (Except SourceFault Models × List Event) :=
  match s.phase with
  | .outside _ => some (.ok s.found, s.events)
  | .inHeader start _ => some (.error (.unterminatedClass file start), s.events)
  | .inBody b => (b.close? file markers s).map fun s => (.ok s.found, s.events)

/-- The models of a file whose bases include one of the markers, with the events of reading it. -/
def readModels? (file : Path) (markers : List String) (content : String) :
    Option (Except SourceFault Models × List Event) := do
  finish? file markers (← (lines content.toList).foldlM (step? file markers) {})

/-! ## Sizes -/

theorem indentation_eq (line : List Char) :
    indentation line = utf8Len (line.takeWhile isBlank) := by
  rw [indentation]
  induction line.takeWhile isBlank with
  | nil => rfl
  | cons c s ih => rw [List.foldr_cons, ih, String.utf8Len_cons, Nat.add_comm]

theorem indentation?_eq (line : List Char) : indentation? line = some (indentation line) := by
  have happ : line.takeWhile isBlank ++ trimStart line = line := List.takeWhile_append_dropWhile
  have hlen := congrArg utf8Len happ
  rw [String.utf8Len_append] at hlen
  rw [indentation?, if_pos (by omega), indentation_eq]
  exact congrArg some (by omega)

theorem Models.named?_eq (m : Models) (name : String) :
    m.named? name = some (m.models.find? fun old => old.name == name) := by
  rw [Models.named?]
  induction m.models with
  | nil => rfl
  | cons old models ih =>
    rw [List.findIdx?_cons, List.find?_cons]
    cases old.name == name with
    | true => rfl
    | false =>
      rw [if_neg Bool.false_ne_true, ← ih]
      cases models.findIdx? fun old => old.name == name <;> rfl

theorem length_le_utf8Len (s : List Char) : s.length ≤ utf8Len s := by
  induction s with
  | nil => exact Nat.le_refl 0
  | cons c s ih => exact Nat.add_le_add ih (Char.utf8Size_pos c)

theorem utf8Len_trimStart_le (s : List Char) : utf8Len (trimStart s) ≤ utf8Len s :=
  String.utf8Len_le_of_suffix (List.dropWhile_suffix isBlank)

theorem utf8Len_trim_le (s : List Char) : utf8Len (trim s) ≤ utf8Len s := by
  obtain ⟨w, hw, -⟩ := exists_trimEnd (trimStart s)
  have hend : utf8Len (trim s) ≤ utf8Len (trimStart s) := String.utf8Len_le_of_prefix ⟨w, hw.symm⟩
  exact hend.trans (utf8Len_trimStart_le s)

theorem utf8Len_inlineBody_le {text : List Char} {h : ClassHeader}
    (ht : ClassHeader.ofText? text = some h) : utf8Len h.inlineBody ≤ utf8Len text := by
  obtain ⟨before, inline, rfl, hinline, -⟩ := exists_colon ht
  rw [hinline]
  exact (utf8Len_trim_le inline).trans
    (String.utf8Len_le_of_suffix ((List.suffix_cons ':' inline).trans (List.suffix_append _ _)))

/-- The size of lines with their ends. -/
def linesLen : List (List Char) → Nat
  | [] => 0
  | line :: ls => utf8Len line + 1 + linesLen ls

/-- **The lines of a text** with their ends take no more than the text and one more byte. -/
theorem linesLen_lines_le (s : List Char) : linesLen (lines s) ≤ utf8Len s + 1 := by
  fun_induction lines s with
  | case1 => exact Nat.zero_le _
  | case2 cs ih =>
    have hsize : utf8Len ('\n' :: cs) = utf8Len cs + 1 := rfl
    rw [linesLen, hsize, String.utf8Len_nil]
    omega
  | case3 cs ih =>
    have hsize : utf8Len ('\r' :: '\n' :: cs) = utf8Len cs + 1 + 1 := rfl
    rw [linesLen, hsize, String.utf8Len_nil]
    omega
  | case4 c cs =>
    rw [linesLen, linesLen, String.utf8Len_cons, String.utf8Len_nil, String.utf8Len_cons]
    omega
  | case5 c cs _ _ l ls hlines ih =>
    rw [hlines, linesLen] at ih
    rw [linesLen, String.utf8Len_cons, String.utf8Len_cons]
    omega

/-! ## What one line leaves open -/

theorem natAbs_scan_le (m : Mode) (d : Int) (s : List Char) :
    (scan m d s).2.natAbs ≤ d.natAbs + s.length := by
  fun_induction scan m d s with
  | case14 d c cs _ _ ih =>
    have hsmall := natAbs_nesting_le c
    rw [List.length_cons]
    omega
  | _ =>
    simp only [List.length_cons] at *
    omega

theorem isQuote_of_scan {m : Mode} (hm : ∀ q, m = .long q → isQuote q) (d : Int) (s : List Char) :
    ∀ q, (scan m d s).1 = .long q → isQuote q := by
  fun_induction scan m d s with
  | case1 _ _ _ _ _ _ _ ih | case7 _ _ _ _ _ ih | case12 _ _ _ _ _ _ _ _ ih | case14 _ _ _ _ _ ih =>
    exact ih fun _ e => nomatch e
  | case2 _ _ _ _ _ _ _ ih | case6 _ _ _ _ ih | case8 _ _ _ _ _ _ _ ih => exact ih hm
  | case3 => exact hm
  | case4 | case5 | case9 | case10 | case13 => exact fun _ e => nomatch e
  | case11 d c _ hq a b more _ ih =>
    refine ih fun q e => ?_
    obtain rfl := Mode.long.inj e
    exact hq

/-! ## How much is kept -/

/-- No more brackets are open than a size, and an open string was opened by a quote. -/
structure Carry.Within (n : Nat) (c : Carry) : Prop where
  brackets : c.brackets ≤ n
  string : ∀ q ∈ c.string, isQuote q

/-- A header and its depth are no larger than a size with the last line end. -/
structure HeaderText.Within (n : Nat) (h : HeaderText) : Prop where
  depth : h.depth.natAbs ≤ n
  text : utf8Len h.text ≤ n - 1

/-- No counter and no text that is kept is larger than a size. -/
def Phase.Within (n : Nat) : Phase → Prop
  | .outside carry => carry.Within n
  | .inHeader _ text => text.Within n
  | .inBody body => body.carry.Within n

section Within

variable {n : Nat} {line : List Char}

theorem Carry.within_empty (n : Nat) : Carry.Within n {} := ⟨Nat.zero_le n, fun _ h => nomatch h⟩

theorem HeaderText.within_empty (n : Nat) : HeaderText.Within n {} :=
  ⟨Nat.zero_le n, Nat.zero_le _⟩

theorem Carry.Within.mono {c : Carry} (h : c.Within n) {m : Nat} (hm : n ≤ m) : c.Within m :=
  ⟨h.brackets.trans hm, h.string⟩

/-- **One more line** leaves no more brackets open than before and in the line. -/
theorem Carry.Within.feed {c : Carry} (h : c.Within n) (line : List Char) :
    (c.feed line).Within (n + utf8Len line) := by
  have hmode : ∀ q, Mode.ofString c.string = .long q → isQuote q := by
    intro q hq
    refine h.string q ?_
    cases hstring : c.string with
    | none => exact nomatch hstring ▸ hq
    | some p =>
      rw [hstring] at hq
      exact congrArg some (Mode.long.inj hq)
  have hcount := natAbs_scan_le (.ofString c.string) c.brackets line
  have hquote := isQuote_of_scan hmode c.brackets line
  have hsize := length_le_utf8Len line
  have hbrackets := h.brackets
  rw [Carry.feed_eq]
  cases hscan : scan (.ofString c.string) c.brackets line with
  | mk mode d =>
    rw [hscan] at hcount hquote
    have hopen : d.toNat ≤ n + utf8Len line := by
      dsimp only at hcount
      omega
    cases mode with
    | long q => exact ⟨hopen, fun p e => Option.some.inj e ▸ hquote q rfl⟩
    | code | short => exact ⟨hopen, fun _ e => nomatch e⟩

/-- **One more line of a header** is no longer than itself and its end. -/
theorem HeaderText.Within.add {h : HeaderText} (hh : h.Within n) (line : List Char) :
    (h.add line).Within (n + (utf8Len line + 1)) := by
  have hcode := utf8Len_withoutComment_le line
  have hdepth : (h.add line).depth.natAbs ≤ h.depth.natAbs + utf8Len (withoutComment line) :=
    natAbs_headerDepth_le _ _
  have htrim := utf8Len_trim_le (withoutComment line)
  have holdDepth := hh.depth
  have holdText := hh.text
  refine ⟨by omega, ?_⟩
  have htext : (h.add line).text =
      (if h.text.isEmpty then [] else h.text ++ [' ']) ++ trim (withoutComment line) := rfl
  rw [htext, String.utf8Len_append]
  split
  · rw [String.utf8Len_nil]
    omega
  · next hne =>
    have hblank : utf8Len (h.text ++ [' ']) = utf8Len h.text + 1 := String.utf8Len_append _ _
    have hpos : utf8Len h.text ≠ 0 := by simpa using hne
    omega

end Within

/-! ## One more line -/

section Step

variable {file : Path} {markers : List String} {n : Nat} {line : List Char} {s : State}

theorem Body.close?_eq (b : Body) (file : Path) (markers : List String) (s : State) :
    b.close? file markers s = some (b.close file markers s) := by
  rw [Body.close?, Body.close]
  cases b.header with
  | none => rfl
  | some h =>
    dsimp only
    split
    · rw [Models.named?_eq]
      rfl
    · rfl

theorem openBody?_eq (start : Nat) {text : List Char} (hn : utf8Len text ≤ n)
    (h : utf8Len text < 2147483648) :
    openBody? file start text s = some (openBody file start text s) ∧
      (openBody file start text s).phase.Within n := by
  rw [openBody?, openBody, ClassHeader.read?_eq h]
  cases hread : ClassHeader.ofText? text with
  | none => exact ⟨rfl, Carry.within_empty _⟩
  | some header =>
    have hsize := utf8Len_inlineBody_le hread
    have hstatements : statements? header.inlineBody = some (statements header.inlineBody) :=
      statements?_eq (by omega)
    have hfeed : Carry.feed? {} header.inlineBody = some (Carry.feed {} header.inlineBody) :=
      Carry.feed?_eq (fun _ h => nomatch h) (by rw [Nat.zero_add]; omega)
    refine ⟨?_, ((Carry.within_empty 0).feed header.inlineBody).mono (by omega)⟩
    simp only [Option.bind_eq_bind, Option.bind_some, hstatements, hfeed]

theorem headerLine?_eq (start : Nat) {text : HeaderText} (ht : text.Within n)
    (h : n + utf8Len line < 2147483648) :
    headerLine? file start text line s = some (headerLine file start text line s) ∧
      (headerLine file start text line s).phase.Within (n + (utf8Len line + 1)) := by
  have hold := ht.depth
  have hadd := ht.add line
  have hsize := hadd.text
  rw [headerLine?, headerLine, HeaderText.add?_eq (by omega), Option.bind_eq_bind, Option.bind_some]
  split
  · exact openBody?_eq start (by omega) (by omega)
  · exact ⟨rfl, hadd⟩

theorem outsideLine?_eq {carry : Carry} (hc : carry.Within n) (number : Nat)
    (h : n + utf8Len line < 2147483648) :
    outsideLine? file carry number line s = some (outsideLine file carry number line s) ∧
      (outsideLine file carry number line s).phase.Within (n + (utf8Len line + 1)) := by
  rw [outsideLine?, outsideLine]
  split
  · have hold := hc.brackets
    rw [Carry.feed?_eq hc.string (by omega)]
    exact ⟨rfl, (hc.feed line).mono (by omega)⟩
  · exact headerLine?_eq number (HeaderText.within_empty n) h

theorem bodyLine?_eq {b : Body} (hb : b.carry.Within n) (number : Nat)
    (h : n + utf8Len line < 2147483648) (hs : s.phase = .inBody b) :
    bodyLine? file markers b number line s = some (bodyLine file markers b number line s) ∧
      (bodyLine file markers b number line s).phase.Within (n + (utf8Len line + 1)) := by
  have hold := hb.brackets
  rw [bodyLine?, bodyLine]
  split
  · rw [Carry.feed?_eq hb.string (by omega)]
    exact ⟨rfl, (hb.feed line).mono (by omega)⟩
  dsimp only
  split
  · refine ⟨rfl, ?_⟩
    rw [hs]
    exact hb.mono (Nat.le_add_right _ _)
  rw [indentation?_eq, Option.bind_eq_bind, Option.bind_some]
  split
  · rw [Body.close?_eq]
    exact outsideLine?_eq (Carry.within_empty n) number h
  · have hsize := utf8Len_trimStart_le line
    have hfeed : b.carry.feed? (trimStart line) = some (b.carry.feed (trimStart line)) :=
      Carry.feed?_eq hb.string (by omega)
    refine ⟨?_, (hb.feed (trimStart line)).mono (by omega)⟩
    split
    · have hstatements : statements? (trimStart line) = some (statements (trimStart line)) :=
        statements?_eq (by omega)
      simp only [hstatements, hfeed, Option.bind_eq_bind, Option.bind_some]
    · simp only [hfeed, Option.bind_eq_bind, Option.bind_some, fieldsOf]

/-- **One more line** is read without a guard that fails, and what is kept grows by no more than it. -/
theorem step?_eq (hs : s.phase.Within n) (h : n + utf8Len line < 2147483648) :
    step? file markers s line = some (step file markers s line) ∧
      (step file markers s line).phase.Within (n + (utf8Len line + 1)) := by
  rw [step?, step]
  cases hphase : s.phase with
  | outside carry => 
    rw [hphase] at hs
    exact outsideLine?_eq hs _ h
  | inHeader start text =>
    rw [hphase] at hs
    exact headerLine?_eq start hs h
  | inBody b =>
    rw [hphase] at hs
    exact bodyLine?_eq hs _ h rfl

/-- **The lines of a file**, one after the other. -/
theorem foldlM_step?_eq (ls : List (List Char)) (hs : s.phase.Within n)
    (h : n + linesLen ls ≤ 2147483648) :
    ls.foldlM (step? file markers) s = some (ls.foldl (step file markers) s) := by
  induction ls generalizing s n with
  | nil => rfl
  | cons line ls ih =>
    rw [linesLen] at h
    obtain ⟨hstep, hwithin⟩ := @step?_eq file markers n line s hs (by omega)
    rw [List.foldlM_cons, hstep, List.foldl_cons]
    exact ih hwithin (by omega)

theorem finish?_eq : finish? file markers s = some (finish file markers s) := by
  rw [finish?, finish]
  cases s.phase with
  | outside | inHeader => rfl
  | inBody b => exact congrArg (Option.map _) (Body.close?_eq b file markers s)

end Step

/-- **Reading a file fails no guard**, whatever it says: every text is cut between two characters, in
order, and every counter fits into 32 bits. -/
theorem readModels?_eq (file : Path) (markers : List String) {content : String}
    (h : content.utf8ByteSize < 2 ^ 31) :
    readModels? file markers content = some (readModels file markers content) := by
  have hlines := linesLen_lines_le content.toList
  rw [String.utf8Len_toList] at hlines
  have hfold : (lines content.toList).foldlM (step? file markers) {} =
      some ((lines content.toList).foldl (step file markers) {}) :=
    foldlM_step?_eq _ (n := 0) (Carry.within_empty 0) (by omega)
  rw [readModels?, hfold]
  exact finish?_eq

/-- A backslash before a character of two bytes, and one at the end of a line. -/
theorem readModels?_backslashes :
    let content := "class A(Model):\n  x = F(\"\\é\"); y = G()\n  z = H(\"\\\n"
    content.utf8ByteSize < 2 ^ 31 ∧
      (readModels ⟨["m.py"]⟩ ["Model"] content).1 = .ok ⟨[⟨"A", [⟨"x", "F", true, 2⟩,
        ⟨"y", "G", true, 2⟩, ⟨"z", "H", true, 3⟩], ⟨["m.py"]⟩, 1⟩], 0⟩ ∧
      readModels? ⟨["m.py"]⟩ ["Model"] content = some (readModels ⟨["m.py"]⟩ ["Model"] content) := by
  intro content
  have hsize : content.utf8ByteSize < 2 ^ 31 := by decide +kernel
  exact ⟨hsize, by decide +kernel, readModels?_eq ⟨["m.py"]⟩ ["Model"] hsize⟩

end ModelTypings.Source
