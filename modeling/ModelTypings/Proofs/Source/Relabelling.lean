import ModelTypings.Proofs.Source.Order

/-!
# Lines numbered otherwise

What is read from lines depends on their numbers only in that it names them.

* `Phase.relabel`, `Body.relabel`, `Models.relabel`: every line number replaced by another one;
* `Phase.next_relabel`, `classes_relabel`: a run on lines numbered otherwise;
* `select_relabel`: the models selected from classes numbered otherwise;
* `readModels_relabel`: two texts whose classes differ in line numbers only;
* `readModels_replace`: two texts that differ in some of their lines;
* `readModels_of_closed`, `readModels_below`: lines below others that leave nothing open;
* `lineBelow`, **`readModels_shift`**: lines that only move what stands below them.
-/

namespace ModelTypings.Source

open Text Log Files

/-- The class with all line numbers replaced. -/
def Body.relabel (f : Nat → Nat) (b : Body) : Body :=
  { b with line := f b.line, fields := b.fields.map (Field.relabel f) }

/-- What is under way with all line numbers replaced. -/
def Phase.relabel (f : Nat → Nat) : Phase → Phase
  | outside carry => outside carry
  | inHeader start text => inHeader (f start) text
  | inBody b => inBody (b.relabel f)

/-- The model with all line numbers replaced. -/
def Model.relabel (f : Nat → Nat) (m : Model) : Model :=
  { m with line := f m.line, fields := m.fields.map (Field.relabel f) }

/-- The models with all line numbers replaced. -/
def Models.relabel (f : Nat → Nat) (m : Models) : Models :=
  { m with models := m.models.map (Model.relabel f) }

/-! ## Numbers that agree -/

section Agree

variable {f g : Nat → Nat}

theorem Body.relabel_congr {n : Nat} (hfg : ∀ line ≤ n, f line = g line) {b : Body}
    (h : b.IsOrdered n) : b.relabel f = b.relabel g := by
  have hfields : b.fields.map (Field.relabel f) = b.fields.map (Field.relabel g) :=
    List.map_congr_left fun x hx => by
      rw [Field.relabel, Field.relabel, hfg _ (h.fields x hx).2.1]
  rw [Body.relabel, Body.relabel, hfg _ h.line_le, hfields]

/-- What is under way is numbered alike by functions that agree on the lines read so far. -/
theorem Phase.relabel_congr {n : Nat} (hfg : ∀ line ≤ n, f line = g line) {p : Phase}
    (h : p.IsOrdered n) : p.relabel f = p.relabel g := by
  cases p with
  | outside carry => rfl
  | inHeader start text => exact congrArg (inHeader · text) (hfg start h)
  | inBody b => exact congrArg inBody (Body.relabel_congr hfg h)

theorem Models.relabel_id (m : Models) : m.relabel id = m := by
  have hmodel : Model.relabel id = id := funext fun x => by
    have hfields : Field.relabel id = id := rfl
    rw [Model.relabel, hfields, List.map_id]
    rfl
  rw [Models.relabel, hmodel, List.map_id]

end Agree

/-! ## From line to line -/

section Next

variable (f : Nat → Nat)

theorem Body.ofHeader_relabel (line : Nat) (text : List Char) :
    (Body.ofHeader line text).relabel f = Body.ofHeader (f line) text := by
  unfold Body.ofHeader
  cases ClassHeader.ofText? text with
  | none => rfl
  | some h =>
    obtain ⟨hfields, hevents⟩ := fieldsOf_relabel f line (statements h.inlineBody)
    dsimp only
    rw [hfields, hevents]
    rfl

theorem HeaderText.next_relabel (h : HeaderText) (start : Nat) (line : List Char) :
    (h.next start line).relabel f = h.next (f start) line := by
  unfold HeaderText.next
  split
  · exact congrArg Phase.inBody (Body.ofHeader_relabel ..)
  · rfl

theorem Carry.next_relabel (c : Carry) (n : Nat) (line : List Char) :
    (c.next n line).relabel f = c.next (f n) line := by
  unfold Carry.next
  split
  · rfl
  · exact HeaderText.next_relabel ..

theorem Body.statementLine_relabel (b : Body) (n : Nat) (line : List Char) :
    ((b.relabel f).statementLine (f n) line).1 =
        (b.statementLine n line).1.map (Field.relabel f) ∧
      ((b.relabel f).statementLine (f n) line).2.length = (b.statementLine n line).2.length := by
  have hindent : (b.relabel f).indent = b.indent := rfl
  unfold Body.statementLine
  rw [hindent]
  split
  · exact fieldsOf_relabel ..
  · exact ⟨rfl, rfl⟩

theorem Body.next_relabel (b : Body) (n : Nat) (line : List Char) :
    (b.next n line).relabel f = (b.relabel f).next (f n) line := by
  obtain ⟨hfields, hevents⟩ := b.statementLine_relabel f n line
  have hcarry : (b.relabel f).carry = b.carry := rfl
  unfold Body.next
  rw [hcarry, hfields, hevents]
  split
  · rfl
  split
  · rfl
  · simp only [Body.relabel, List.map_append]

namespace Phase

/-- **One more line**, numbered otherwise. -/
theorem next_relabel (p : Phase) (n : Nat) (line : List Char) :
    (p.next n line).relabel f = (p.relabel f).next (f n) line := by
  cases p with
  | outside carry => exact carry.next_relabel f n line
  | inHeader start text => exact text.next_relabel f start line
  | inBody b =>
    have hends : (b.relabel f).endsAbove line = b.endsAbove line := rfl
    have hrelabel : (inBody b).relabel f = inBody (b.relabel f) := rfl
    rw [hrelabel, next_inBody, next_inBody, hends]
    split
    · exact Carry.next_relabel ..
    · exact congrArg inBody (b.next_relabel f n line)

theorem ended_relabel (p : Phase) (line : List Char) :
    (p.ended line).map (Body.relabel f) = (p.relabel f).ended line := by
  cases p with
  | outside carry => rfl
  | inHeader start text => rfl
  | inBody b =>
    have hends : (b.relabel f).endsAbove line = b.endsAbove line := rfl
    have hrelabel : (inBody b).relabel f = inBody (b.relabel f) := rfl
    rw [hrelabel, ended_inBody, ended_inBody, hends]
    split <;> rfl

theorem classes_nil_relabel (p : Phase) (m n : Nat) :
    (p.classes m []).map (Body.relabel f) = (p.relabel f).classes n [] := by
  cases p <;> rfl

end Phase

end Next

/-- **A run on lines numbered otherwise.** Two phases that differ in line numbers only stay so below
lines whose numbers differ in the same way. -/
theorem classes_relabel {f g : Nat → Nat} (ls : List (List Char)) {p q : Phase} {m n : Nat}
    (hpq : p.relabel f = q.relabel g) (hlines : ∀ i, f (m + i + 1) = g (n + i + 1)) :
    (p.classes m ls).map (Body.relabel f) = (q.classes n ls).map (Body.relabel g) ∧
      (p.after m ls).relabel f = (q.after n ls).relabel g := by
  induction ls generalizing p q m n with
  | nil =>
    refine ⟨?_, hpq⟩
    rw [Phase.classes_nil_relabel f p m n, Phase.classes_nil_relabel g q n n, hpq]
  | cons line ls ih =>
    have hnext : (p.next (m + 1) line).relabel f = (q.next (n + 1) line).relabel g := by
      rw [Phase.next_relabel, Phase.next_relabel, hpq]
      exact congrArg (Phase.next · line _) (hlines 0)
    obtain ⟨hclasses, hafter⟩ := ih (m := m + 1) (n := n + 1) hnext fun i => by
      rw [Nat.add_right_comm m 1 i, Nat.add_right_comm n 1 i]
      exact hlines (i + 1)
    refine ⟨?_, hafter⟩
    rw [Phase.classes, Phase.classes, List.map_append, List.map_append, Phase.ended_relabel,
      Phase.ended_relabel, hpq, hclasses]

/-! ## The models -/

section Selected

variable (file : Path) (markers : List String) (f : Nat → Nat)

theorem model?_relabel (b : Body) :
    (b.relabel f).model? file markers = (b.model? file markers).map (Model.relabel f) := by
  have hheader : (b.relabel f).header = b.header := rfl
  unfold Body.model?
  rw [hheader]
  split
  · split <;> rfl
  · rfl

theorem add_relabel (m : Models) (x : Model) (k : Nat) :
    (m.relabel f).add (x.relabel f) k = (m.add x k).relabel f := by
  simp only [Models.add, Models.relabel, Models.mk.injEq, and_true, List.map_append, List.map_cons,
    List.map_nil]
  rw [List.filter_map]
  rfl

theorem keep_relabel (m : Models) (b : Body) :
    (m.relabel f).keep file markers (b.relabel f) = (m.keep file markers b).relabel f := by
  unfold Models.keep
  rw [model?_relabel]
  cases b.model? file markers with
  | none => rfl
  | some x => exact add_relabel f m x b.skipped

theorem foldl_keep_relabel (bs : List Body) (m : Models) :
    (bs.foldl (Models.keep file markers) m).relabel f =
      (bs.map (Body.relabel f)).foldl (Models.keep file markers) (m.relabel f) := by
  induction bs generalizing m with
  | nil => rfl
  | cons b bs ih => rw [List.foldl_cons, ih, List.map_cons, List.foldl_cons, keep_relabel]

theorem select_relabel (bs : List Body) :
    Models.select file markers (bs.map (Body.relabel f)) =
      (Models.select file markers bs).relabel f :=
  (foldl_keep_relabel file markers f bs {}).symm

end Selected

/-- **Two texts whose classes differ in line numbers only** have the same models up to line numbers,
and a header left open in both or in none. -/
theorem readModels_relabel (file : Path) (markers : List String) {f g : Nat → Nat} {a b : String}
    (hclasses : (classesOf a).map (Body.relabel f) = (classesOf b).map (Body.relabel g))
    (hafter : ((Phase.outside {}).after 0 (lines a.toList)).relabel f =
      ((Phase.outside {}).after 0 (lines b.toList)).relabel g) :
    (∀ m, (readModels file markers a).1 = .ok m →
      ∃ m', (readModels file markers b).1 = .ok m' ∧ m.relabel f = m'.relabel g) ∧
    ∀ e, (readModels file markers a).1 = .error e →
      ∃ k k', e = .unterminatedClass file k ∧
        (readModels file markers b).1 = .error (.unterminatedClass file k') ∧ f k = g k' := by
  have hselect : (Models.select file markers (classesOf a)).relabel f =
      (Models.select file markers (classesOf b)).relabel g := by
    rw [← select_relabel, ← select_relabel, hclasses]
  rw [readModels_eq_select, readModels_eq_select]
  generalize (Phase.outside {}).after 0 (lines a.toList) = p at hafter ⊢
  generalize (Phase.outside {}).after 0 (lines b.toList) = q at hafter ⊢
  -- the fault depends on the kind of the phase, which no line number changes
  cases p <;> cases q <;> simp_all [Phase.relabel]

/-- **Two texts that differ in some of their lines** have the same models up to line numbers if the
reader goes the same way through these lines. -/
theorem readModels_replace (file : Path) (markers : List String) {f g : Nat → Nat} {a b : String}
    {pre post : List (List Char)} (mid mid' : List (List Char)) {p : Phase}
    (ha : lines a.toList = pre ++ (mid ++ post)) (hb : lines b.toList = pre ++ (mid' ++ post))
    (hp : (Phase.outside {}).after 0 pre = p)
    (hpre : ∀ line ≤ pre.length, f line = g line)
    (hphase : (p.after pre.length mid).relabel f = (p.after pre.length mid').relabel g)
    (hcompleted : (p.completed pre.length mid).map (Body.relabel f) =
      (p.completed pre.length mid').map (Body.relabel g))
    (hpost : ∀ i, f (pre.length + mid.length + i + 1) = g (pre.length + mid'.length + i + 1)) :
    (∀ m, (readModels file markers a).1 = .ok m →
      ∃ m', (readModels file markers b).1 = .ok m' ∧ m.relabel f = m'.relabel g) ∧
    ∀ e, (readModels file markers a).1 = .error e →
      ∃ k k', e = .unterminatedClass file k ∧
        (readModels file markers b).1 = .error (.unterminatedClass file k') ∧ f k = g k' := by
  obtain ⟨hclasses, hafter⟩ := classes_relabel post hphase hpost
  -- the classes above end on lines with the same numbers
  have habove : ((Phase.outside {}).completed 0 pre).map (Body.relabel f) =
      ((Phase.outside {}).completed 0 pre).map (Body.relabel g) :=
    List.map_congr_left fun c hc => by
      have hordered := completed_isOrdered pre (p := .outside {}) (n := 0) trivial c hc
      rw [Nat.zero_add] at hordered
      exact Body.relabel_congr hpre hordered
  apply readModels_relabel
  · simp only [classesOf, ha, hb, Phase.classes_append, hp, Nat.zero_add, List.map_append, habove,
      hcompleted, hclasses]
  · simp only [ha, hb, Phase.after_append, hp, Nat.zero_add, hafter]

/-! ## Lines below -/

/-- **A file read on below its first lines**, if they leave nothing open and the lines below start at
the margin. -/
theorem readModels_of_closed (file : Path) (markers : List String) {content : String}
    {above below : List (List Char)} (hlines : lines content.toList = above ++ below)
    (hclosed : ((Phase.outside {}).after 0 above).isClosed = true) (hbelow : StartsAtMargin below) :
    (readModels file markers content).1 =
      match (Phase.outside {}).after above.length below with
      | .inHeader start _ => .error (.unterminatedClass file start)
      | _ => .ok (((Phase.outside {}).classes above.length below).foldl (Models.keep file markers)
          (.select file markers ((Phase.outside {}).classes 0 above))) := by
  let s := above.foldl (step file markers) {}
  have hphase : s.phase = (Phase.outside {}).after 0 above := foldl_step_phase file markers above {}
  have hs : s.phase.isClosed = true := by rw [hphase, hclosed]
  have hread : s.read = above.length :=
    (foldl_step_read file markers above {}).trans (Nat.zero_add _)
  have hsettled : (s.settled file markers).phase = .outside {} := settled_phase hs
  have hfound : (s.settled file markers).found =
      .select file markers ((Phase.outside {}).classes 0 above) := by
    have hfinish : (finish file markers s).1 = .ok (s.settled file markers).found := by
      rw [← finish_settled, finish, hsettled]
    have hclasses := (finish_foldl_step file markers above {}).symm.trans hfinish
    cases hp : (Phase.outside {}).after 0 above with
    | inHeader start text =>
      rw [hp] at hclosed
      exact Bool.noConfusion hclosed
    | outside carry | inBody b =>
      have hafter : ({} : State).phase.after ({} : State).read above = _ := hp
      rw [hafter] at hclasses
      exact (Except.ok.inj hclasses).symm
  have hall : readModels file markers content =
      finish file markers (below.foldl (step file markers) (s.settled file markers)) := by
    rw [finish_foldl_settled file markers hs hbelow, ← List.foldl_append, ← hlines]
    rfl
  have hfinish := finish_foldl_step file markers below (s.settled file markers)
  rw [hsettled, read_settled, hread, hfound] at hfinish
  exact (congrArg Prod.fst hall).trans hfinish

/-- **Two texts with the same lines below**, if their first lines leave nothing open and say the same
but for the numbers of lines. -/
theorem readModels_below (file : Path) (markers : List String) {f g : Nat → Nat} {a b : String}
    {above above' below : List (List Char)} (ha : lines a.toList = above ++ below)
    (hb : lines b.toList = above' ++ below)
    (hclosed : ((Phase.outside {}).after 0 above).isClosed = true)
    (hclosed' : ((Phase.outside {}).after 0 above').isClosed = true) (hbelow : StartsAtMargin below)
    (hselect : (Models.select file markers ((Phase.outside {}).classes 0 above)).relabel f =
      (Models.select file markers ((Phase.outside {}).classes 0 above')).relabel g)
    (hlines : ∀ i, f (above.length + i + 1) = g (above'.length + i + 1)) :
    (∀ m, (readModels file markers a).1 = .ok m →
      ∃ m', (readModels file markers b).1 = .ok m' ∧ m.relabel f = m'.relabel g) ∧
    ∀ e, (readModels file markers a).1 = .error e →
      ∃ e', (readModels file markers b).1 = .error e' := by
  have hstart : (Phase.outside {}).relabel f = (Phase.outside {}).relabel g := rfl
  obtain ⟨hclasses, hphase⟩ := classes_relabel below hstart hlines
  have hmodels : (((Phase.outside {}).classes above.length below).foldl (Models.keep file markers)
      (.select file markers ((Phase.outside {}).classes 0 above))).relabel f =
        (((Phase.outside {}).classes above'.length below).foldl (Models.keep file markers)
          (.select file markers ((Phase.outside {}).classes 0 above'))).relabel g := by
    rw [foldl_keep_relabel, foldl_keep_relabel, hclasses, hselect]
  rw [readModels_of_closed file markers ha hclosed hbelow,
    readModels_of_closed file markers hb hclosed' hbelow]
  generalize (Phase.outside {}).after above.length below = p at hphase ⊢
  generalize (Phase.outside {}).after above'.length below = q at hphase ⊢
  -- the fault depends on the kind of the phase, which no line number changes
  cases p <;> cases q <;> simp_all [Phase.relabel]

/-! ## Lines that move -/

/-- The number of a line after `k` lines have been inserted below line `n`. -/
def lineBelow (n k line : Nat) : Nat := if line ≤ n then line else line + k

theorem lineBelow_of_le {n k line : Nat} (h : line ≤ n) : lineBelow n k line = line := if_pos h

theorem lineBelow_add (n k i : Nat) : lineBelow n k (n + i + 1) = n + k + i + 1 := by
  rw [lineBelow, if_neg (by omega)]
  omega

/-- **Two texts that differ in some lines**, the second with `k` lines more, have the same models but
for the lines below if the reader comes to stand below these lines alike. -/
theorem readModels_shift (file : Path) (markers : List String) {content content' : String}
    {pre post : List (List Char)} (mid mid' : List (List Char)) {p : Phase} {k : Nat}
    (hlines : lines content.toList = pre ++ (mid ++ post))
    (hlines' : lines content'.toList = pre ++ (mid' ++ post))
    (hp : (Phase.outside {}).after 0 pre = p) (hlength : mid'.length = mid.length + k)
    (hafter : p.after pre.length mid = p.after pre.length mid')
    (hcompleted : p.completed pre.length mid = p.completed pre.length mid') :
    (∀ m, (readModels file markers content).1 = .ok m →
      (readModels file markers content').1 =
        .ok (m.relabel (lineBelow (pre.length + mid.length) k))) ∧
    ∀ e, (readModels file markers content).1 = .error e →
      ∃ line, e = .unterminatedClass file line ∧ (readModels file markers content').1 =
        .error (.unterminatedClass file (lineBelow (pre.length + mid.length) k line)) := by
  have hstay : ∀ line ≤ pre.length + mid.length,
      lineBelow (pre.length + mid.length) k line = id line := fun _ => lineBelow_of_le
  have hordered : p.IsOrdered pre.length := hp ▸ Phase.after_isOrdered pre
  have hphase : (p.after pre.length mid).relabel (lineBelow (pre.length + mid.length) k) =
      (p.after pre.length mid').relabel id := by
    rw [← hafter]
    exact Phase.relabel_congr hstay (hordered.after mid)
  have hclasses : (p.completed pre.length mid).map
      (Body.relabel (lineBelow (pre.length + mid.length) k)) =
        (p.completed pre.length mid').map (Body.relabel id) := by
    rw [← hcompleted]
    exact List.map_congr_left fun b hb =>
      Body.relabel_congr hstay (completed_isOrdered mid hordered b hb)
  obtain ⟨hok, herror⟩ := readModels_replace file markers mid mid' hlines hlines' hp
    (fun line h => hstay line (h.trans (Nat.le_add_right ..))) hphase hclasses fun i => by
      rw [lineBelow_add, hlength, Nat.add_assoc pre.length]
      rfl
  refine ⟨fun m hm => ?_, fun e he => ?_⟩
  · obtain ⟨m', hm', e⟩ := hok m hm
    rw [hm', e, Models.relabel_id]
  · obtain ⟨line, line', rfl, hline, e⟩ := herror e he
    exact ⟨line, rfl, by rw [hline, e]; rfl⟩

end ModelTypings.Source
