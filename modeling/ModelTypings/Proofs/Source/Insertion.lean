import ModelTypings.Proofs.Source.Lexical
import ModelTypings.Proofs.Source.Relabelling

/-!
# Lines that are passed over

Blank lines and comments between statements, and deeper lines in the body of a class, move what
stands below them and change nothing else.

* `isNested`: lines that go on deeper than a body, with the strings and brackets they open closed;
* `after_idle`, `after_nested`: the reader stands below such lines where it stood above them;
* **`readModels_insert`**: a text with such lines inserted.
-/

namespace ModelTypings.Source

open Text Log Files

/-- Every line is blank, a comment, deeper than `indent`, or inside a string or bracket that a line
above it leaves open, and none is open at the end. -/
def isNested (indent : Nat) : Carry → List (List Char) → Bool
  | carry, [] => !carry.isOpen
  | carry, line :: block =>
    (carry.isOpen || isIdle line || decide (indent < indentation line)) &&
      isNested indent (carry.feed line) block

/-- The indentation of the body that is read, once a statement line has fixed it. -/
def Phase.indent? : Phase → Option Nat
  | inBody b => b.indent
  | _ => none

/-! ## The reader on such lines -/

theorem next_of_isIdle {p : Phase} (hp : p.isClosed = true) {line : List Char}
    (hl : isIdle line = true) (n : Nat) : p.next n line = p ∧ p.ended line = [] := by
  cases p with
  | outside carry =>
    obtain rfl : carry = {} := Carry.eq_of_isOpen (by simpa [Phase.isClosed] using hp)
    refine ⟨?_, rfl⟩
    have hc : isClassStart line = false := isClassStart_of_isIdle hl
    simp [Phase.next, Carry.next, hc, feed_of_isIdle hl]
  | inHeader start text => simp [Phase.isClosed] at hp
  | inBody b =>
    have hb : b.carry.isOpen = false := by simpa [Phase.isClosed] using hp
    have hends : b.endsAbove line = false := by simp [Body.endsAbove, hl]
    have hnext : b.next n line = b := by simp [Body.next, hb, hl]
    rw [Phase.next_inBody, Phase.ended_inBody, hends, hnext]
    exact ⟨rfl, rfl⟩

/-- **Below blank lines and comments** the reader stands where it stood above them. -/
theorem after_idle {p : Phase} (hp : p.isClosed = true) (n : Nat) : ∀ {block : List (List Char)},
    (∀ line ∈ block, isIdle line = true) → p.after n block = p ∧ p.completed n block = []
  | [], _ => ⟨rfl, rfl⟩
  | line :: block, h => by
    obtain ⟨hnext, hended⟩ := next_of_isIdle hp (h line List.mem_cons_self) (n + 1)
    rw [Phase.after, Phase.completed, hnext, hended]
    exact after_idle hp (n + 1) fun l hl => h l (List.mem_cons_of_mem _ hl)

theorem next_of_deeper {b : Body} {indent : Nat} (hb : b.indent = some indent) {line : List Char}
    (hl : (b.carry.isOpen || isIdle line || decide (indent < indentation line)) = true) (n : Nat) :
    b.next n line = { b with carry := b.carry.feed line } ∧ b.endsAbove line = false := by
  by_cases ho : b.carry.isOpen = true
  · exact ⟨by simp [Body.next, ho], by simp [Body.endsAbove, ho]⟩
  have hclosed : b.carry.isOpen = false := by simpa using ho
  by_cases hi : isIdle line = true
  · have hcarry := Carry.eq_of_isOpen hclosed
    refine ⟨?_, by simp [Body.endsAbove, hi]⟩
    rw [hcarry, feed_of_isIdle hi, ← hcarry]
    simp [Body.next, ho, hi]
  · have hdeep : indent < indentation line := by simpa [ho, hi] using hl
    have hstatement : b.statementLine n line = ([], []) := by
      have hne : (indent == indentation line) = false := by simpa using hdeep.ne
      simp [Body.statementLine, hb, hne]
    have hmargin : indentation line ≠ 0 := Nat.ne_zero_of_lt hdeep
    refine ⟨?_, by simp [Body.endsAbove, hmargin]⟩
    rw [Body.next, if_neg ho, if_neg hi, hstatement, feed_trimStart hclosed, List.append_nil, hb]
    rfl

/-- **Below nested lines** the reader stands in the body where it stood above them, with nothing left
open. -/
theorem after_nested {indent : Nat} (n : Nat) : ∀ {block : List (List Char)} {b : Body},
    b.indent = some indent → isNested indent b.carry block = true →
    (Phase.inBody b).after n block = .inBody { b with carry := {} } ∧
      (Phase.inBody b).completed n block = []
  | [], b, _, h => by
    have hcarry : b.carry = {} := Carry.eq_of_isOpen (by simpa [isNested] using h)
    refine ⟨?_, rfl⟩
    rw [← hcarry]
    rfl
  | line :: block, b, hb, h => by
    rw [isNested, Bool.and_eq_true] at h
    obtain ⟨hnext, hends⟩ := next_of_deeper hb h.1 (n + 1)
    rw [Phase.after, Phase.completed, Phase.next_inBody, Phase.ended_inBody, hends, hnext]
    exact after_nested (n + 1) (b := { b with carry := b.carry.feed line }) hb h.2

theorem after_closed_nested {p : Phase} (hp : p.isClosed = true) {indent : Nat}
    (hi : p.indent? = some indent) {block : List (List Char)} (h : isNested indent {} block = true)
    (n : Nat) : p.after n block = p ∧ p.completed n block = [] := by
  cases p with
  | outside carry => exact nomatch hi
  | inHeader start text => exact nomatch hi
  | inBody b =>
    have hcarry : b.carry = {} := Carry.eq_of_isOpen (by simpa [Phase.isClosed] using hp)
    obtain ⟨hafter, hcompleted⟩ := after_nested n hi (hcarry.symm ▸ h)
    rw [← hcarry] at hafter
    exact ⟨hafter, hcompleted⟩

/-! ## The text -/

/-- **Lines that are passed over.** Blank lines and comments below lines that leave no header, string
or bracket open, or nested lines below a statement of a class body, move what stands below them and
change nothing else. -/
theorem readModels_insert (file : Path) (markers : List String) {content content' : String}
    {pre block post : List (List Char)} (hlines : lines content.toList = pre ++ post)
    (hlines' : lines content'.toList = pre ++ block ++ post)
    (hclosed : (pre.foldl (step file markers) {}).phase.isClosed = true)
    (hblock : (∀ line ∈ block, isIdle line = true) ∨
      ∃ indent, (pre.foldl (step file markers) {}).phase.indent? = some indent ∧
        isNested indent {} block = true) :
    (∀ m, (readModels file markers content).1 = .ok m →
      (readModels file markers content').1 = .ok (m.relabel (lineBelow pre.length block.length))) ∧
    ∀ e, (readModels file markers content).1 = .error e →
      ∃ line, e = .unterminatedClass file line ∧ (readModels file markers content').1 =
        .error (.unterminatedClass file (lineBelow pre.length block.length line)) := by
  rw [foldl_step_phase] at hclosed hblock
  set p := (Phase.outside {}).after 0 pre with hp
  -- the block leaves the reader where it was
  obtain ⟨hafter, hcompleted⟩ :
      p.after pre.length block = p ∧ p.completed pre.length block = [] := by
    rcases hblock with hidle | ⟨indent, hindent, hnested⟩
    · exact after_idle hclosed _ hidle
    · exact after_closed_nested hclosed hindent hnested _
  exact readModels_shift file markers [] block hlines (by rw [hlines', List.append_assoc]) hp.symm
    (by rw [List.length_nil, Nat.zero_add]) hafter.symm hcompleted.symm

/-- A method between two fields, with a docstring and a call that reach the margin. -/
theorem readModels_insert_method :
    (readModels ⟨["m.py"]⟩ ["Model"] ("class A(Model):\n x = F()\n  def f(self):\n" ++
        "   \"\"\"A\nclass B(Model):\n\"\"\"\n   y = F(\n1)\n z = G()\n")).1 =
      .ok (Models.relabel (lineBelow 2 6)
        ⟨[⟨"A", [⟨"x", "F", true, 2⟩, ⟨"z", "G", true, 3⟩], ⟨["m.py"]⟩, 1⟩], 0⟩) := by
  have hlines : lines "class A(Model):\n x = F()\n z = G()\n".toList =
      ["class A(Model):".toList, " x = F()".toList] ++ [" z = G()".toList] := by decide +kernel
  have hlines' : lines ("class A(Model):\n x = F()\n  def f(self):\n" ++
        "   \"\"\"A\nclass B(Model):\n\"\"\"\n   y = F(\n1)\n z = G()\n").toList =
      ["class A(Model):".toList, " x = F()".toList] ++
        ["  def f(self):".toList, "   \"\"\"A".toList, "class B(Model):".toList, "\"\"\"".toList,
          "   y = F(".toList, "1)".toList] ++ [" z = G()".toList] := by decide +kernel
  exact (readModels_insert ⟨["m.py"]⟩ ["Model"] hlines hlines' (by decide +kernel)
    (.inr ⟨1, by decide +kernel, by decide +kernel⟩)).1 _ (by decide +kernel)

end ModelTypings.Source
