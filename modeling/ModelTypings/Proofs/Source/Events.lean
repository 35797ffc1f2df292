import ModelTypings.Proofs.Source.Field

/-!
# What reading a file reports

Reading a file reports its headers, classes and statements, and nothing about other files or about
what is written.

* `isOfReading`: the events that reading may report;
* `State.OnlyReads`, `State.OnlyReads.step`: an account with such events alone, from line to line;
* **`isOfReading_of_mem_readModels`**: the events of reading a file.
-/

namespace ModelTypings.Source

open Text Log Files

/-- The event is about a header, a class or a statement of a source file. -/
def isOfReading : Event → Bool
  | .malformedHeader .. | .notModel .. | .redefined .. | .notField .. => true
  | _ => false

theorem isOfReading_fieldsOf (n : Nat) (ss : List (List Char)) :
    ∀ e ∈ (fieldsOf n ss).2, isOfReading e = true := by
  intro e he
  rw [fieldsOf_eq] at he
  obtain ⟨s, -, rfl⟩ := List.mem_map.mp he
  rfl

/-- Nothing but the lines of the file has been reported. -/
def State.OnlyReads (s : State) : Prop := ∀ e ∈ s.events, isOfReading e = true

namespace State.OnlyReads

variable {s : State}

theorem append (h : s.OnlyReads) {es : List Event} (hes : ∀ e ∈ es, isOfReading e = true) :
    ∀ e ∈ s.events ++ es, isOfReading e = true := List.forall_mem_append.mpr ⟨h, hes⟩

theorem close (h : s.OnlyReads) (file : Path) (markers : List String) (b : Body) :
    (b.close file markers s).OnlyReads := by
  unfold Body.close
  split
  · exact h
  split
  · refine h.append fun e he => ?_
    split at he
    · exact List.mem_singleton.mp he ▸ rfl
    · exact nomatch he
  · exact h.append (List.forall_mem_singleton.mpr rfl)

theorem headerLine (h : s.OnlyReads) (file : Path) (start : Nat) (text : HeaderText)
    (line : List Char) : (headerLine file start text line s).OnlyReads := by
  unfold Source.headerLine
  dsimp only
  split
  · unfold openBody
    split
    · exact h.append (List.forall_mem_singleton.mpr rfl)
    · exact h.append (isOfReading_fieldsOf _ _)
  · exact h

theorem outsideLine (h : s.OnlyReads) (file : Path) (carry : Carry) (n : Nat)
    (line : List Char) : (outsideLine file carry n line s).OnlyReads := by
  unfold Source.outsideLine
  split
  · exact h
  · exact h.headerLine file n {} line

theorem bodyLine (h : s.OnlyReads) (file : Path) (markers : List String) (b : Body) (n : Nat)
    (line : List Char) : (bodyLine file markers b n line s).OnlyReads := by
  unfold Source.bodyLine
  split
  · exact h
  dsimp only
  split
  · exact h
  split
  · exact (h.close file markers b).outsideLine file {} n line
  · refine h.append ?_
    split
    · exact isOfReading_fieldsOf _ _
    · exact fun e he => nomatch he

/-- **One more line** adds events about itself only. -/
theorem step (h : s.OnlyReads) (file : Path) (markers : List String) (line : List Char) :
    (step file markers s line).OnlyReads := by
  unfold Source.step
  dsimp only
  have hread : ({ s with read := s.read + 1 } : State).OnlyReads := h
  split
  · exact hread.outsideLine file _ _ line
  · exact hread.headerLine file _ _ line
  · exact hread.bodyLine file markers _ _ line

theorem foldl (h : s.OnlyReads) (file : Path) (markers : List String) (ls : List (List Char)) :
    (ls.foldl (Source.step file markers) s).OnlyReads := by
  induction ls generalizing s with
  | nil => exact h
  | cons line ls ih => exact ih (h.step file markers line)

end State.OnlyReads

/-- **The events of reading a file** are about its headers, classes and statements. -/
theorem isOfReading_of_mem_readModels (file : Path) (markers : List String) (content : String) :
    ∀ e ∈ (readModels file markers content).2, isOfReading e = true := by
  have hstart : ({} : State).OnlyReads := fun e he => nomatch he
  have h := hstart.foldl file markers (lines content.toList)
  unfold readModels finish
  split
  · exact h
  · exact h
  · exact h.close file markers _

end ModelTypings.Source
