import Mathlib.Data.List.Dedup
import ModelTypings.Proofs.Source.Concatenation

/-!
# The classes of a file

Where the reader stands and which classes it completes depends on the lines alone. The markers only
select the models among the classes.

* `Phase.next`, `Phase.after`, `Phase.classes`: the phases of a run and the classes it visits;
* `Body.model?`, `Models.keep`: the model that a class is, added to those before it;
* **`readModels_eq_select`**: a file is read by finding its classes and selecting its models;
* `models_select`, `mem_models_select`: of the models of one name the last is kept.
-/

namespace ModelTypings.Source

open Text Log Files

/-! ## From line to line -/

/-- The body that a complete header opens. -/
def Body.ofHeader (line : Nat) (text : List Char) : Body :=
  match ClassHeader.ofText? text with
  | none => { header := none, line }
  | some h =>
    { header := some h, line
      carry := Carry.feed {} h.inlineBody
      fields := (fieldsOf line (statements h.inlineBody)).1
      skipped := (fieldsOf line (statements h.inlineBody)).2.length }

/-- One more line of a header. -/
def HeaderText.next (h : HeaderText) (start : Nat) (line : List Char) : Phase :=
  if (h.add line).isComplete then .inBody (Body.ofHeader start (h.add line).text)
  else .inHeader start (h.add line)

/-- A line outside classes, number `n` of the file. -/
def Carry.next (c : Carry) (n : Nat) (line : List Char) : Phase :=
  if c.isOpen || !isClassStart line then .outside (c.feed line) else HeaderText.next {} n line

/-- The line is a statement at the margin, so that the body ends above it. -/
def Body.endsAbove (b : Body) (line : List Char) : Bool :=
  !b.carry.isOpen && !isIdle line && indentation line == 0

/-- The fields and events of a statement line, if it stands at the indentation of the body. -/
def Body.statementLine (b : Body) (n : Nat) (line : List Char) : List Field × List Event :=
  if b.indent.all (· == indentation line) then fieldsOf n (statements (trimStart line)) else ([], [])

/-- One more line of a body, number `n` of the file. -/
def Body.next (b : Body) (n : Nat) (line : List Char) : Body :=
  if b.carry.isOpen then { b with carry := b.carry.feed line }
  else if isIdle line then b
  else
    { b with
      carry := b.carry.feed (trimStart line)
      indent := some (b.indent.getD (indentation line))
      fields := b.fields ++ (b.statementLine n line).1
      skipped := b.skipped + (b.statementLine n line).2.length }

namespace Phase

/-- The phase below one more line, number `n` of the file. -/
def next (n : Nat) (line : List Char) : Phase → Phase
  | outside carry => carry.next n line
  | inHeader start text => text.next start line
  | inBody b => if b.endsAbove line then Carry.next {} n line else inBody (b.next n line)

/-- The class that ends above a line. -/
def ended (line : List Char) : Phase → List Body
  | inBody b => if b.endsAbove line then [b] else []
  | _ => []

/-- The phase below some lines that stand below line `n`. -/
def after (p : Phase) (n : Nat) : List (List Char) → Phase
  | [] => p
  | line :: ls => (p.next (n + 1) line).after (n + 1) ls

/-- The classes that are complete at the end of lines below line `n`, in the order of the file. -/
def classes (p : Phase) (n : Nat) : List (List Char) → List Body
  | [] =>
    match p with
    | inBody b => [b]
    | _ => []
  | line :: ls => p.ended line ++ (p.next (n + 1) line).classes (n + 1) ls

/-- The classes that end within some lines below line `n`. -/
def completed (p : Phase) (n : Nat) : List (List Char) → List Body
  | [] => []
  | line :: ls => p.ended line ++ (p.next (n + 1) line).completed (n + 1) ls

theorem next_inBody (n : Nat) (line : List Char) (b : Body) : (inBody b).next n line =
    if b.endsAbove line then Carry.next {} n line else inBody (b.next n line) := rfl

theorem ended_inBody (line : List Char) (b : Body) :
    (inBody b).ended line = if b.endsAbove line then [b] else [] := rfl

theorem after_append (ls ks : List (List Char)) (p : Phase) (n : Nat) :
    p.after n (ls ++ ks) = (p.after n ls).after (n + ls.length) ks := by
  induction ls generalizing p n with
  | nil => rfl
  | cons line ls ih =>
    rw [List.cons_append, after, ih, List.length_cons, Nat.add_right_comm, Nat.add_assoc]
    rfl

theorem classes_append (ls ks : List (List Char)) (p : Phase) (n : Nat) :
    p.classes n (ls ++ ks) = p.completed n ls ++ (p.after n ls).classes (n + ls.length) ks := by
  induction ls generalizing p n with
  | nil => rfl
  | cons line ls ih =>
    rw [List.cons_append, classes, ih, completed, after, List.length_cons, List.append_assoc,
      Nat.add_right_comm, Nat.add_assoc]

end Phase

/-- The classes of a file, with those that are no models and those whose header cannot be read. -/
def classesOf (content : String) : List Body :=
  (Phase.outside {}).classes 0 (lines content.toList)

/-! ## Selecting the models -/

/-- The model that a class is by the markers. -/
def Body.model? (file : Path) (markers : List String) (b : Body) : Option Model :=
  match b.header with
  | some h => if h.isModel markers then some ⟨h.name, b.fields, file, b.line⟩ else none
  | none => none

/-- A class added to the models above it, if it is one. -/
def Models.keep (file : Path) (markers : List String) (m : Models) (b : Body) : Models :=
  match b.model? file markers with
  | some model => m.add model b.skipped
  | none => m

/-- The models among classes. -/
def Models.select (file : Path) (markers : List String) (bs : List Body) : Models :=
  bs.foldl (Models.keep file markers) {}

/-! ## The reader -/

section Reader

variable (file : Path) (markers : List String)

theorem close_eq_keep (b : Body) (s : State) :
    (b.close file markers s).phase = s.phase ∧
      (b.close file markers s).found = s.found.keep file markers b := by
  unfold Body.close Models.keep Body.model?
  cases b.header with
  | none => exact ⟨rfl, rfl⟩
  | some h =>
    dsimp only
    split
    · exact ⟨rfl, rfl⟩
    · exact ⟨rfl, rfl⟩

theorem openBody_eq_ofHeader (line : Nat) (text : List Char) (s : State) :
    (openBody file line text s).phase = .inBody (.ofHeader line text) ∧
      (openBody file line text s).found = s.found := by
  unfold openBody Body.ofHeader
  cases ClassHeader.ofText? text with
  | none => exact ⟨rfl, rfl⟩
  | some h => exact ⟨rfl, rfl⟩

theorem headerLine_eq_next (start : Nat) (text : HeaderText) (line : List Char) (s : State) :
    (headerLine file start text line s).phase = text.next start line ∧
      (headerLine file start text line s).found = s.found := by
  unfold headerLine HeaderText.next
  dsimp only
  split
  · exact openBody_eq_ofHeader ..
  · exact ⟨rfl, rfl⟩

theorem outsideLine_eq_next (carry : Carry) (n : Nat) (line : List Char) (s : State) :
    (outsideLine file carry n line s).phase = carry.next n line ∧
      (outsideLine file carry n line s).found = s.found := by
  unfold outsideLine Carry.next
  split
  · exact ⟨rfl, rfl⟩
  · exact headerLine_eq_next ..

theorem bodyLine_eq_next (b : Body) (n : Nat) (line : List Char) (s : State)
    (hs : s.phase = .inBody b) :
    (bodyLine file markers b n line s).phase = (Phase.inBody b).next n line ∧
      (bodyLine file markers b n line s).found =
        ((Phase.inBody b).ended line).foldl (Models.keep file markers) s.found := by
  have hline : bodyLine file markers b n line s =
      if b.carry.isOpen then { s with phase := .inBody { b with carry := b.carry.feed line } }
      else if isIdle line then s
      else if indentation line = 0 then outsideLine file {} n line (b.close file markers s)
      else
        { s with
          phase := .inBody {
            b with
            carry := b.carry.feed (trimStart line)
            indent := some (b.indent.getD (indentation line))
            fields := b.fields ++ (b.statementLine n line).1
            skipped := b.skipped + (b.statementLine n line).2.length }
          events := s.events ++ (b.statementLine n line).2 } := rfl
  rw [hline, Phase.next_inBody, Phase.ended_inBody, Body.next]
  by_cases ho : b.carry.isOpen
  · simp [Body.endsAbove, ho]
  by_cases hi : isIdle line
  · simp [Body.endsAbove, ho, hi, hs]
  by_cases h0 : indentation line = 0
  · have he : b.endsAbove line = true := by simp [Body.endsAbove, ho, hi, h0]
    obtain ⟨hp, hf⟩ := outsideLine_eq_next file {} n line (b.close file markers s)
    rw [if_neg ho, if_neg hi, if_pos h0, if_pos he, if_pos he, hp, hf,
      (close_eq_keep file markers b s).2]
    exact ⟨rfl, rfl⟩
  · simp [Body.endsAbove, ho, hi, h0]

/-- **One more line** moves the phase on and adds the class that ends above it. -/
theorem step_eq_next (s : State) (line : List Char) :
    (step file markers s line).phase = s.phase.next (s.read + 1) line ∧
      (step file markers s line).found =
        (s.phase.ended line).foldl (Models.keep file markers) s.found := by
  unfold step
  dsimp only
  cases hp : s.phase with
  | outside carry => exact outsideLine_eq_next ..
  | inHeader start text => exact headerLine_eq_next ..
  | inBody b => exact bodyLine_eq_next file markers b (s.read + 1) line _ rfl

theorem foldl_step_phase (ls : List (List Char)) (s : State) :
    (ls.foldl (step file markers) s).phase = s.phase.after s.read ls := by
  induction ls generalizing s with
  | nil => rfl
  | cons line ls ih =>
    rw [List.foldl_cons, ih, step_read, (step_eq_next file markers s line).1]
    rfl

/-- What is found at the end of a file. -/
theorem finish_foldl_step (ls : List (List Char)) (s : State) :
    (finish file markers (ls.foldl (step file markers) s)).1 =
      match s.phase.after s.read ls with
      | .inHeader start _ => .error (.unterminatedClass file start)
      | _ => .ok ((s.phase.classes s.read ls).foldl (Models.keep file markers) s.found) := by
  induction ls generalizing s with
  | nil =>
    rw [List.foldl_nil, finish]
    cases s.phase with
    | outside carry => rfl
    | inHeader start text => rfl
    | inBody b => exact congrArg Except.ok (close_eq_keep file markers b s).2
  | cons line ls ih =>
    obtain ⟨hp, hf⟩ := step_eq_next file markers s line
    rw [List.foldl_cons, ih, step_read, hp, hf, Phase.after, Phase.classes, List.foldl_append]

/-- **A file is read by finding its classes and selecting its models.** The only fault is a header
left open. -/
theorem readModels_eq_select (content : String) :
    (readModels file markers content).1 =
      match (Phase.outside {}).after 0 (lines content.toList) with
      | .inHeader start _ => .error (.unterminatedClass file start)
      | _ => .ok (.select file markers (classesOf content)) :=
  finish_foldl_step file markers (lines content.toList) {}

variable {file markers} in
theorem eq_select_of_readModels {content : String} {m : Models}
    (h : (readModels file markers content).1 = .ok m) :
    m = .select file markers (classesOf content) := by
  rw [readModels_eq_select] at h
  split at h
  · exact nomatch h
  · exact (Except.ok.inj h).symm

end Reader

/-! ## The models selected -/

section Selection

variable (file : Path) (markers : List String)

/-- The models have different names. -/
abbrev Differs (x y : Model) : Prop := x.name ≠ y.name

theorem forall_pwFilter_differs (m : Model) (ms : List Model) :
    (∀ y ∈ ms.pwFilter Differs, Differs m y) ↔ ∀ y ∈ ms, Differs m y :=
  List.forall_mem_pwFilter
    (fun hxz => or_iff_not_imp_left.mpr fun hxy hyz => hxz ((not_not.mp hxy).trans hyz)) m ms

theorem pwFilter_differs_of_forall {m : Model} {ms : List Model} (h : ∀ y ∈ ms, Differs m y) :
    (m :: ms).pwFilter Differs = m :: ms.pwFilter Differs :=
  List.pwFilter_cons_of_pos ((forall_pwFilter_differs m ms).mpr h)

theorem pwFilter_differs_of_not {m : Model} {ms : List Model} (h : ¬ ∀ y ∈ ms, Differs m y) :
    (m :: ms).pwFilter Differs = ms.pwFilter Differs :=
  List.pwFilter_cons_of_neg fun hall => h ((forall_pwFilter_differs m ms).mp hall)

theorem pwFilter_concat (ms : List Model) (x : Model) :
    (ms ++ [x]).pwFilter Differs =
      (ms.pwFilter Differs).filter (fun old => old.name != x.name) ++ [x] := by
  induction ms with
  | nil => rfl
  | cons m ms ih =>
    rw [List.cons_append]
    by_cases hx : m.name = x.name
    · have hnot : ¬ ∀ y ∈ ms ++ [x], Differs m y := fun h => h x (by simp) hx
      rw [pwFilter_differs_of_not hnot, ih]
      by_cases hall : ∀ y ∈ ms, Differs m y
      · rw [pwFilter_differs_of_forall hall, List.filter_cons_of_neg (by simp [hx])]
      · rw [pwFilter_differs_of_not hall]
    · by_cases hall : ∀ y ∈ ms, Differs m y
      · have hall' : ∀ y ∈ ms ++ [x], Differs m y := by
          simpa only [List.forall_mem_append, List.forall_mem_singleton] using ⟨hall, hx⟩
        rw [pwFilter_differs_of_forall hall', pwFilter_differs_of_forall hall, ih,
          List.filter_cons_of_pos (by simp [hx]), List.cons_append]
      · have hnot : ¬ ∀ y ∈ ms ++ [x], Differs m y :=
          fun h => hall fun y hy => h y (List.mem_append_left _ hy)
        rw [pwFilter_differs_of_not hnot, pwFilter_differs_of_not hall, ih]

theorem mem_pwFilter_differs {x : Model} {ms : List Model} :
    x ∈ ms.pwFilter Differs ↔ ∃ above below, ms = above ++ x :: below ∧ ∀ y ∈ below, Differs x y := by
  induction ms with
  | nil => simp
  | cons m ms ih =>
    by_cases hall : ∀ y ∈ ms, Differs m y
    · rw [pwFilter_differs_of_forall hall, List.mem_cons, ih]
      constructor
      · rintro (rfl | ⟨above, below, rfl, h⟩)
        · exact ⟨[], ms, rfl, hall⟩
        · exact ⟨m :: above, below, rfl, h⟩
      · rintro ⟨above, below, e, h⟩
        rcases List.cons_eq_append_iff.mp e with ⟨rfl, e⟩ | ⟨above, rfl, hms⟩
        · exact Or.inl (List.cons.inj e).1.symm
        · exact Or.inr ⟨above, below, hms, h⟩
    · rw [pwFilter_differs_of_not hall, ih]
      constructor
      · rintro ⟨above, below, rfl, h⟩
        exact ⟨m :: above, below, rfl, h⟩
      · rintro ⟨above, below, e, h⟩
        rcases List.cons_eq_append_iff.mp e with ⟨rfl, e⟩ | ⟨above, rfl, hms⟩
        · obtain ⟨rfl, rfl⟩ := List.cons.inj e
          exact absurd h hall
        · exact ⟨above, below, hms, h⟩

theorem select_concat (bs : List Body) (b : Body) :
    Models.select file markers (bs ++ [b]) = (Models.select file markers bs).keep file markers b :=
  List.foldl_concat ..

/-- **Of the models of one name the last is kept.** -/
theorem models_select (bs : List Body) :
    (Models.select file markers bs).models =
      (bs.filterMap (Body.model? file markers)).pwFilter Differs := by
  induction bs using List.reverseRecOn with
  | nil => rfl
  | append_singleton bs b ih =>
    rw [select_concat, List.filterMap_append, Models.keep]
    cases hb : b.model? file markers with
    | none => rw [List.filterMap_cons_none hb, List.filterMap_nil, List.append_nil, ih]
    | some x =>
      rw [List.filterMap_cons_some hb, List.filterMap_nil, pwFilter_concat, ← ih]
      rfl

/-- **A model is the last class of its name** that is one. -/
theorem mem_models_select {bs : List Body} {x : Model} :
    x ∈ (Models.select file markers bs).models ↔ ∃ above b below, bs = above ++ b :: below ∧
      b.model? file markers = some x ∧
        ∀ c ∈ below, ∀ y, c.model? file markers = some y → y.name ≠ x.name := by
  rw [models_select, mem_pwFilter_differs]
  constructor
  · rintro ⟨above, below, hbs, hlast⟩
    obtain ⟨bs₁, bs₂, rfl, -, h₂⟩ := List.filterMap_eq_append_iff.mp hbs
    obtain ⟨cs₁, b, cs₂, rfl, -, hb, rfl⟩ := List.filterMap_eq_cons_iff.mp h₂
    refine ⟨bs₁ ++ cs₁, b, cs₂, (List.append_assoc ..).symm, hb, fun c hc y hy => ?_⟩
    exact (hlast y (List.mem_filterMap.mpr ⟨c, hc, hy⟩)).symm
  · rintro ⟨above, b, below, rfl, hb, hlast⟩
    refine ⟨above.filterMap (Body.model? file markers), below.filterMap (Body.model? file markers),
      ?_, fun y hy => ?_⟩
    · rw [List.filterMap_append, List.filterMap_cons_some hb]
    · obtain ⟨c, hc, hy⟩ := List.mem_filterMap.mp hy
      exact (hlast c hc y hy).symm

end Selection

end ModelTypings.Source
