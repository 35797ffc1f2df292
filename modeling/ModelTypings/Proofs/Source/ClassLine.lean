import ModelTypings.Proofs.Source.Classes
import ModelTypings.Proofs.Source.Header
import ModelTypings.Proofs.Source.Lexical

/-!
# Headers on one line

A class header on one line, `class Name(bases):`, and what may follow its colon.

* `Nested`: text with properly nested brackets;
* `classLine`, `IsHeader`, `declared?`: the header and the class that it declares;
* `IsHeader.ofText?_classLine`, `IsHeader.add_classLine`: the header before what follows its colon;
* `IsHeader.next_classLine`, `IsHeader.ofHeader_classLine`: the body that the line opens.
-/

namespace ModelTypings.Source

open Text

/-! ## The header -/

/-- Every bracket is closed by its partner, inside the one that it stands in. -/
inductive Nested : List Char → Prop
  | nil : Nested []
  | plain {c : Char} {cs : List Char} (hc : nesting c = 0) (h : Nested cs) : Nested (c :: cs)
  | brackets {b c : Char} {u v : List Char} (hbc : closing? b = some c) (hu : Nested u)
      (hv : Nested v) : Nested (b :: (u ++ c :: v))

/-- The characters that a class name does not go over. -/
def headerMarks : List Char := ['\n', '#', ':', '(', ')', '[', ']']

/-- A class header on one line. -/
def classLine (name bases : List Char) : List Char :=
  classWord ++ ' ' :: (name ++ '(' :: (bases ++ [')', ':']))

theorem headerNesting_of_plain {c : Char} (h : nesting c = 0) : headerNesting c = 0 := by
  unfold headerNesting
  split
  · next hc => rcases hc with rfl | rfl <;> exact absurd h (by decide)
  split
  · next hc => rcases hc with rfl | rfl <;> exact absurd h (by decide)
  · rfl

theorem closing?_eq_some {b c : Char} (h : closing? b = some c) :
    (b = '(' ∧ c = ')') ∨ (b = '[' ∧ c = ']') ∨ (b = '\x7b' ∧ c = '\x7d') := by
  unfold closing? at h
  split at h
  · exact .inl ⟨rfl, (Option.some.inj h).symm⟩
  · exact .inr (.inl ⟨rfl, (Option.some.inj h).symm⟩)
  · exact .inr (.inr ⟨rfl, (Option.some.inj h).symm⟩)
  · exact nomatch h

theorem Nested.headerDepth_eq {s : List Char} (h : Nested s) (d : Int) : headerDepth d s = d := by
  induction h generalizing d with
  | nil => rfl
  | plain hc _ ih => rw [headerDepth_cons, headerNesting_of_plain hc, Int.add_zero, ih]
  | @brackets b c u v hbc _ _ ihu ihv =>
    have hpair : headerNesting b + headerNesting c = 0 := by
      rcases closing?_eq_some hbc with ⟨rfl, rfl⟩ | ⟨rfl, rfl⟩ | ⟨rfl, rfl⟩ <;> decide
    rw [headerDepth_cons, headerDepth_append, ihu, headerDepth_cons, ihv, Int.add_assoc, hpair,
      Int.add_zero]

theorem cutAtClosing_cons {n : Nat} {c : Char} (h : ¬ (c = ')' ∧ n = 0)) (cs : List Char) :
    cutAtClosing n (c :: cs) =
      (cutAtClosing (if c = '(' then n + 1 else if c = ')' then n - 1 else n) cs).map
        fun p => (c :: p.1, p.2) := by
  rw [cutAtClosing, if_neg h]

theorem nested_of_plain {s : List Char} (h : (s.all fun c => nesting c = 0) = true) :
    Nested s := by
  induction s with
  | nil => exact .nil
  | cons c cs ih =>
    rw [List.all_cons, Bool.and_eq_true, decide_eq_true_iff] at h
    exact .plain h.1 (ih h.2)

/-- The bracket that closes an open one does not stand inside nested text. -/
theorem Nested.cutAtClosing_append {s : List Char} (h : Nested s) (n : Nat) (rest : List Char) :
    cutAtClosing n (s ++ rest) = (cutAtClosing n rest).map fun p => (s ++ p.1, p.2) := by
  induction h generalizing n rest with
  | nil => simp
  | @plain c cs hc _ ih =>
    have hopening : c ≠ '(' := by rintro rfl; exact absurd hc (by decide)
    have hclosing : c ≠ ')' := by rintro rfl; exact absurd hc (by decide)
    rw [List.cons_append, cutAtClosing_cons fun h => hclosing h.1, if_neg hopening,
      if_neg hclosing, ih, Option.map_map]
    rfl
  | @brackets b c u v hbc _ _ ihu ihv =>
    have happend : b :: (u ++ c :: v) ++ rest = b :: (u ++ (c :: (v ++ rest))) := by simp
    rw [happend]
    rcases closing?_eq_some hbc with ⟨rfl, rfl⟩ | ⟨rfl, rfl⟩ | ⟨rfl, rfl⟩
    · rw [cutAtClosing_cons (by simp), ihu, cutAtClosing_cons (by simp)]
      simp [ihv, Function.comp_def]
    · rw [cutAtClosing_cons (by simp), ihu, cutAtClosing_cons (by simp)]
      simp [ihv, Function.comp_def]
    · rw [cutAtClosing_cons (by simp), ihu, cutAtClosing_cons (by simp)]
      simp [ihv, Function.comp_def]

/-- A header of a class on one line: its name goes over no mark of a header, the brackets in its list
of bases are properly nested. -/
structure IsHeader (name bases : List Char) : Prop where
  name : ∀ c ∈ name, c ∉ headerMarks
  nested : Nested bases
  line : '\n' ∉ bases
  comment : '#' ∉ bases

/-- The class that a header on one line declares, if its name is one and nothing else. -/
def declared? (name bases : List Char) : Option ClassHeader :=
  (takeName (trimStart name)).bind fun p =>
    if trimStart p.2 = [] then
      some ⟨String.ofList p.1, (splitArguments 0 bases).filterMap baseOfArgument, []⟩
    else none

namespace IsHeader

variable {name bases : List Char} (h : IsHeader name bases)
include h

/-- **Behind the name of a class** stand its bases and the colon, or nothing can be read. -/
theorem arguments_classLine {rest : List Char} (hrest : ∀ c ∈ rest, c ∈ name) (tail : List Char)
    (header : List Char → List Char → ClassHeader) :
    ((argumentsOf (trimStart (rest ++ '(' :: (bases ++ ')' :: ':' :: tail)))).bind fun p =>
      match trimStart p.2 with
      | ':' :: inline => some (header p.1 inline)
      | _ => none) = if trimStart rest = [] then some (header bases tail) else none := by
  rw [trimStart_append_cons (by decide)]
  cases hr : trimStart rest with
  | nil =>
    have hclosing : cutAtClosing 0 (')' :: ':' :: tail) = some ([], ':' :: tail) := by
      rw [cutAtClosing, if_pos ⟨rfl, rfl⟩]
    have hcolon : trimStart (':' :: tail) = ':' :: tail := List.dropWhile_cons_of_neg (by decide)
    rw [List.nil_append, argumentsOf, h.nested.cutAtClosing_append, hclosing, Option.map_some,
      List.append_nil, Option.bind_some, hcolon, if_pos rfl]
    rfl
  | cons c cs =>
    have hmarks : c ∉ headerMarks := by
      have hmem : c ∈ trimStart rest := hr ▸ List.mem_cons_self
      exact h.name c (hrest c ((List.dropWhile_suffix isBlank).subset hmem))
    have hopening : c ≠ '(' := by
      rintro rfl
      exact hmarks (by decide)
    have hcolon : c ≠ ':' := by
      rintro rfl
      exact hmarks (by decide)
    have hblank : ¬ isBlank c = true := by
      have hnot := List.head?_dropWhile_not isBlank rest
      rw [show rest.dropWhile isBlank = c :: cs from hr] at hnot
      simpa using hnot
    have hstart : ∀ ds, trimStart (c :: ds) = c :: ds := fun ds => List.dropWhile_cons_of_neg hblank
    rw [List.cons_append, argumentsOf, Option.bind_some, hstart, if_neg (List.cons_ne_nil _ _)]
    · split
      · next heq => exact absurd (List.cons.inj heq).1 hcolon
      · rfl
    · exact fun _ e => absurd (List.cons.inj e).1 hopening

/-- **The header before what follows its colon.** -/
theorem ofText?_classLine (tail : List Char) :
    ClassHeader.ofText? (classLine name bases ++ tail) =
      (declared? name bases).map fun x => { x with inlineBody := trim tail } := by
  have hline : classLine name bases ++ tail =
      classWord ++ ' ' :: (name ++ '(' :: (bases ++ ')' :: ':' :: tail)) := by
    simp [classLine]
  have hstart : trimStart (' ' :: (name ++ '(' :: (bases ++ ')' :: ':' :: tail))) =
      trimStart name ++ '(' :: (bases ++ ')' :: ':' :: tail) := by
    rw [← trimStart_append_cons (by decide)]
    exact List.dropWhile_cons_of_pos (by decide)
  have hblank : (some ' ').any isBlank = true := by decide
  rw [hline, ClassHeader.ofText?, afterClass_append]
  simp only [Option.bind_eq_bind, Option.bind_some, List.head?_cons, hblank, if_true, hstart]
  rw [declared?]
  by_cases hname : trimStart name = []
  · have hnone : takeName ('(' :: (bases ++ ')' :: ':' :: tail)) = none := by
      rw [takeName, if_neg (by decide +kernel)]
    rw [hname, List.nil_append, hnone]
    rfl
  · rw [takeName_append hname fun c hc => by
      obtain rfl := Option.some.inj hc
      decide +kernel]
    cases ht : takeName (trimStart name) with
    | none => rfl
    | some p =>
      have hrest : ∀ c ∈ p.2, c ∈ name := fun c hc =>
        (List.dropWhile_suffix isBlank).subset (rest_of_takeName ht c hc)
      have hread := h.arguments_classLine hrest tail fun arguments inline =>
        ⟨String.ofList p.1, (splitArguments 0 arguments).filterMap baseOfArgument, trim inline⟩
      refine hread.trans ?_
      rw [Option.bind_some]
      split <;> rfl

theorem headerDepth_classLine (d : Int) : headerDepth d (classLine name bases) = d := by
  have hname : ∀ d, headerDepth d name = d := headerDepth_of_forall fun c hc => by
    have hmarks := h.name c hc
    simp only [headerMarks, List.mem_cons, List.not_mem_nil, or_false, not_or] at hmarks
    simp [headerNesting, hmarks]
  have hword : headerDepth d classWord = d := by simp [headerDepth, classWord, headerNesting]
  rw [classLine, headerDepth_append, hword, headerDepth_cons, headerDepth_append, hname,
    headerDepth_cons, headerDepth_append, h.nested.headerDepth_eq]
  show d + 0 + 1 + -1 + 0 = d
  omega

theorem not_mem_classLine : '\n' ∉ classLine name bases := by
  have hname : '\n' ∉ name := fun hmem => h.name _ hmem (by decide)
  simp [classLine, classWord, hname, h.line]

/-- **The header line**, with what follows the colon up to its comment. -/
theorem add_classLine (tail : List Char) : HeaderText.add {} (classLine name bases ++ tail) =
    ⟨classLine name bases ++ trimEnd (withoutComment tail), headerDepth 0 (withoutComment tail)⟩ := by
  have hname : '#' ∉ name := fun hmem => h.name _ hmem (by decide)
  have hline : '#' ∉ classLine name bases := by
    simp [classLine, classWord, hname, h.comment]
  have hcomment : ∀ c ∈ classLine name bases, (c != '#') = true :=
    fun c hc => bne_iff_ne.mpr (ne_of_mem_of_not_mem hc hline)
  have hcode : (classLine name bases ++ tail).takeWhile (· != '#') =
      classLine name bases ++ withoutComment tail := List.takeWhile_append_of_pos hcomment
  have htrim : trim (classLine name bases ++ withoutComment tail) =
      classLine name bases ++ trimEnd (withoutComment tail) := by
    have hcolon : ∀ t, classLine name bases ++ t =
        classWord ++ (' ' :: (name ++ '(' :: (bases ++ [')'])) ++ ':' :: t) := by
      simp [classLine]
    rw [hcolon, trim_classWord_append, trimEnd_append_cons (by decide), ← hcolon]
  have hdepth : headerDepth 0 (classLine name bases ++ withoutComment tail) =
      headerDepth 0 (withoutComment tail) := by
    rw [headerDepth_append, h.headerDepth_classLine]
  rw [HeaderText.add, hcode, htrim]
  exact congrArg (HeaderText.mk _) hdepth

theorem next_classLine (n : Nat) {tail : List Char}
    (hdepth : headerDepth 0 (withoutComment tail) ≤ 0) :
    Carry.next {} n (classLine name bases ++ tail) =
      .inBody (.ofHeader n (classLine name bases ++ trimEnd (withoutComment tail))) := by
  have hstart : isClassStart (classLine name bases ++ tail) = true :=
    isClassStart_iff.mpr ⟨' ', _, List.append_assoc .., by decide⟩
  have hopen : ¬ (({} : Carry).isOpen || !isClassStart (classLine name bases ++ tail)) = true := by
    simp [hstart, Carry.isOpen]
  rw [Carry.next, if_neg hopen, HeaderText.next, h.add_classLine, HeaderText.isComplete,
    if_pos (by simpa using hdepth)]

theorem ofHeader_classLine (n : Nat) (tail : List Char) :
    Body.ofHeader n (classLine name bases ++ tail) =
      match declared? name bases with
      | none => { header := none, line := n }
      | some x =>
        { header := some { x with inlineBody := trim tail }, line := n
          carry := Carry.feed {} (trim tail)
          fields := (fieldsOf n (statements (trim tail))).1
          skipped := (fieldsOf n (statements (trim tail))).2.length } := by
  rw [Body.ofHeader, h.ofText?_classLine]
  cases declared? name bases <;> rfl

theorem ofHeader_classLine_nil (n : Nat) : Body.ofHeader n (classLine name bases) =
    { header := declared? name bases, line := n } := by
  have hinline : ∀ x, declared? name bases = some x → x.inlineBody = [] := by
    intro x hx
    obtain ⟨p, -, hp⟩ := Option.bind_eq_some_iff.mp hx
    split at hp
    · exact Option.some.inj hp ▸ rfl
    · exact nomatch hp
  have htail := ofHeader_classLine h n []
  rw [List.append_nil] at htail
  rw [htail]
  cases hx : declared? name bases with
  | none => rfl
  | some x =>
    have hheader : { x with inlineBody := trim [] } = x := by
      rw [show trim [] = x.inlineBody from (hinline x hx).symm]
    simp only [hheader]
    rfl

end IsHeader

end ModelTypings.Source
