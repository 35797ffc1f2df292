import ModelTypings.Proofs.Text.Name
import ModelTypings.Source.ClassHeader

/-!
# The name in a class header

A header is joined from its lines, but the name of the class stands on the first one.

* `className?`: the name of the class that a line opens;
* `HeaderText.StartsWith`: the header begins with a line;
* **`className?_of_startsWith`**: the class that a header declares is named on its first line;
* `headerDepth`: the brackets that a text of a header leaves open;
* `HeaderText.startsWith_add`, `HeaderText.StartsWith.add`: joining lines keeps the first one.
-/

namespace ModelTypings.Source

open Text

/-- The name of the class that a line opens. -/
def className? (line : List Char) : Option String :=
  (afterClass line).bind fun cs => (takeName (trimStart cs)).map fun p => String.ofList p.1

/-- The line without its comment. -/
def withoutComment (line : List Char) : List Char := line.takeWhile (· != '#')

/-- The word that opens a class. -/
def classWord : List Char := ['c', 'l', 'a', 's', 's']

theorem afterClass_append (cs : List Char) : afterClass (classWord ++ cs) = some cs := rfl

theorem isClassStart_iff {line : List Char} :
    isClassStart line = true ↔ ∃ c cs, line = classWord ++ c :: cs ∧ isBlank c = true := by
  constructor
  · intro h
    unfold isClassStart afterClass at h
    split at h
    · next heq =>
      split at heq
      · cases heq
        exact ⟨_, _, rfl, h⟩
      · exact nomatch heq
    · exact nomatch h
  · rintro ⟨c, cs, rfl, hc⟩
    exact hc

theorem name_of_ofText? {text : List Char} {h : ClassHeader} (ht : ClassHeader.ofText? text = some h) :
    ∃ after name rest, afterClass text = some after ∧ after.head?.any isBlank = true ∧
      takeName (trimStart after) = some (name, rest) ∧ h.name = String.ofList name := by
  unfold ClassHeader.ofText? at ht
  simp only [Option.bind_eq_bind, Option.bind_eq_some_iff] at ht
  obtain ⟨after, hafter, ht⟩ := ht
  by_cases hblank : after.head?.any isBlank = true
  · rw [if_pos hblank] at ht
    simp only [Option.bind_some, Option.bind_eq_some_iff] at ht
    obtain ⟨⟨name, rest⟩, hname, ⟨arguments, tail⟩, _, htail⟩ := ht
    refine ⟨after, name, rest, hafter, hblank, hname, ?_⟩
    split at htail
    · cases htail
      rfl
    · exact nomatch htail
  · rw [if_neg hblank] at ht
    exact nomatch ht

/-! ## The first line -/

theorem trim_classWord_append (u : List Char) : trim (classWord ++ u) = classWord ++ trimEnd u := by
  have hstart : trimStart (classWord ++ u) = classWord ++ u := trimStart_append (by decide) u
  rw [trim, hstart]
  by_cases hu : trimEnd u = []
  · rw [trimEnd_append_of_nil hu, hu]
    decide
  · exact trimEnd_append hu classWord

theorem headerNesting_of_isBlank {c : Char} (hc : isBlank c = true) : headerNesting c = 0 := by
  unfold headerNesting
  split
  · next h => rcases h with rfl | rfl <;> exact absurd hc (by decide)
  split
  · next h => rcases h with rfl | rfl <;> exact absurd hc (by decide)
  · rfl

/-- The header begins with a line, less its comment, and goes on only if that has a bracket. -/
def HeaderText.StartsWith (h : HeaderText) (line : List Char) : Prop :=
  ∃ tail, h.text = trim (withoutComment line) ++ tail ∧
    (tail = [] ∨ tail.head? = some ' ' ∧ ∃ c ∈ withoutComment line, headerNesting c ≠ 0)

/-- **The class that a header declares is named on its first line.** -/
theorem className?_of_startsWith {line : List Char} (hline : isClassStart line = true)
    {text : HeaderText} (htext : text.StartsWith line) {h : ClassHeader}
    (hread : ClassHeader.ofText? text.text = some h) : className? line = some h.name := by
  obtain ⟨c, cs, rfl, hc⟩ := isClassStart_iff.mp hline
  obtain ⟨tail, hs, htail⟩ := htext
  let u := withoutComment (c :: cs)
  have hu : withoutComment (classWord ++ c :: cs) = classWord ++ u := rfl
  rw [hu, trim_classWord_append, List.append_assoc] at hs
  obtain ⟨after, name, rest, hafter, hblank, hname, hh⟩ := name_of_ofText? hread
  rw [hs, afterClass_append] at hafter
  obtain rfl := Option.some.inj hafter
  -- the line names something, or nothing could be read
  have he : trimEnd u ≠ [] := by
    intro he
    rcases htail with rfl | ⟨_, b, hb, hnest⟩
    · rw [he] at hblank
      exact nomatch hblank
    · rw [hu] at hb
      rcases List.mem_append.mp hb with hb | hb
      · have hnone : ∀ b ∈ classWord, headerNesting b = 0 := by
          simp [classWord, headerNesting]
        exact hnest (hnone b hb)
      · exact hnest (headerNesting_of_isBlank (trimEnd_eq_nil_iff.mp he b hb))
  have hstart := trimStart_trimEnd_ne_nil he
  have htailword : ∀ d ∈ tail.head?, isWord d = false := by
    rcases htail with rfl | ⟨htail, _⟩
    · exact fun d hd => nomatch hd
    · intro d hd
      rw [htail] at hd
      obtain rfl := Option.some.inj hd
      exact isWord_of_isBlank (by decide)
  rw [trimStart_append hstart, takeName_append hstart htailword] at hname
  obtain ⟨⟨name', rest'⟩, hname', hpair⟩ := Option.map_eq_some_iff.mp hname
  obtain ⟨rfl, _⟩ := Prod.mk.inj hpair
  -- the line itself goes on after the name with blanks or its comment
  obtain ⟨w, hw, hwblank⟩ := exists_trimEnd u
  have hcs : c :: cs = trimEnd u ++ (w ++ (c :: cs).dropWhile (· != '#')) := by
    rw [← List.append_assoc, ← hw]
    exact (List.takeWhile_append_dropWhile).symm
  have hword : ∀ d ∈ (w ++ (c :: cs).dropWhile (· != '#')).head?, isWord d = false := by
    intro d hd
    cases w with
    | nil =>
      have hnot := List.head?_dropWhile_not (fun c => c != '#') (c :: cs)
      rw [List.nil_append] at hd
      rw [hd] at hnot
      obtain rfl : d = '#' := by simpa using hnot
      decide +kernel
    | cons b w =>
      obtain rfl : b = d := Option.some.inj hd
      exact isWord_of_isBlank (hwblank b List.mem_cons_self)
  rw [className?, afterClass_append, Option.bind_some, hcs, trimStart_append hstart,
    takeName_append hstart hword, hname', hh]
  rfl

/-! ## Depth -/

/-- The depth at the end of a text of a header. -/
def headerDepth (d : Int) (s : List Char) : Int := s.foldl (fun d c => d + headerNesting c) d

theorem headerDepth_append (d : Int) (s t : List Char) :
    headerDepth d (s ++ t) = headerDepth (headerDepth d s) t := List.foldl_append

theorem headerDepth_cons (d : Int) (c : Char) (s : List Char) :
    headerDepth d (c :: s) = headerDepth (d + headerNesting c) s := rfl

theorem headerDepth_of_forall {s : List Char} (h : ∀ c ∈ s, headerNesting c = 0) (d : Int) :
    headerDepth d s = d := by
  induction s with
  | nil => rfl
  | cons c cs ih =>
    obtain ⟨hc, hcs⟩ := List.forall_mem_cons.mp h
    rw [headerDepth_cons, hc, Int.add_zero, ih hcs]

/-! ## Joining lines -/

theorem exists_headerNesting {h : HeaderText} (hh : h.isComplete = true) {line : List Char}
    (hl : (h.add line).isComplete = false) : ∃ c ∈ withoutComment line, headerNesting c ≠ 0 := by
  by_contra hnone
  have hd : (h.add line).depth = h.depth :=
    headerDepth_of_forall (fun c hc => by_contra fun hne => hnone ⟨c, hc, hne⟩) h.depth
  rw [HeaderText.isComplete, hd] at hl
  rw [HeaderText.isComplete, hl] at hh
  exact Bool.noConfusion hh

theorem HeaderText.startsWith_add (line : List Char) : (HeaderText.add {} line).StartsWith line :=
  ⟨[], (List.append_nil _).symm, Or.inl rfl⟩

theorem HeaderText.StartsWith.add {h : HeaderText} {first : List Char} (hs : h.StartsWith first)
    (hfirst : isClassStart first = true) (hopen : ∃ c ∈ withoutComment first, headerNesting c ≠ 0)
    (line : List Char) : (h.add line).StartsWith first := by
  obtain ⟨c, cs, hcs, -⟩ := isClassStart_iff.mp hfirst
  obtain ⟨tail, ht, htail⟩ := hs
  have htrim : trim (withoutComment first) = classWord ++ trimEnd (withoutComment (c :: cs)) := by
    rw [hcs]
    exact trim_classWord_append _
  have hne : h.text.isEmpty = false := by
    rw [ht, htrim]
    rfl
  refine ⟨tail ++ ' ' :: trim (withoutComment line), ?_, Or.inr ⟨?_, hopen⟩⟩
  · have hadd : (h.add line).text = h.text ++ [' '] ++ trim (withoutComment line) := by
      rw [HeaderText.add, hne]
      rfl
    rw [hadd, ht, List.append_assoc, List.append_assoc]
    rfl
  · rcases htail with rfl | ⟨hhead, _⟩
    · rfl
    · rw [List.head?_append, hhead]
      rfl

end ModelTypings.Source
