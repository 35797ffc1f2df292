import Mathlib.Data.List.Forall2
import ModelTypings.Proofs.Source.Relabelling
import ModelTypings.Proofs.Source.Suite

/-!
# Classes that say the same

Two classes say the same if their headers name the same class and bases and their fields have the
same names and types. The numbers of lines and of statements that are no fields play no part, nor do
blanks behind the colon of a header that goes on.

* `Models.signatures`: the names of the models, each with the names and types of its fields;
* `Body.Alike`, `Phase.Alike`: classes that say the same, and readers that stand alike;
* `Phase.Alike.next`, `Phase.Alike.classes`: one more line, and a run;
* `signatures_select`: the models among classes that say the same;
* **`readModels_alike`**: two texts that differ in lines through which the reader goes alike.
-/

namespace ModelTypings.Source

open Text Files

/-! ## Signatures -/

/-- The name and the type of a field. -/
def Field.signature (f : Field) : String × String := (f.name, f.fieldType)

/-- The names of the models, each with the names and types of its fields. -/
def Models.signatures (m : Models) : List (String × List (String × String)) :=
  m.models.map fun x => (x.name, x.fields.map Field.signature)

theorem signatures_relabel (f : Nat → Nat) (m : Models) :
    (m.relabel f).signatures = m.signatures := by
  have hfields : ∀ x : Model, (x.relabel f).fields.map Field.signature =
      x.fields.map Field.signature := fun x => by
    rw [Model.relabel, List.map_map]
    rfl
  rw [Models.signatures, Models.relabel, List.map_map]
  exact List.map_congr_left fun x _ => congrArg (x.name, ·) (hfields x)

theorem signatures_fieldsOf (m n : Nat) (ss : List (List Char)) :
    (fieldsOf m ss).1.map Field.signature = (fieldsOf n ss).1.map Field.signature := by
  rw [(fieldsOf_relabel (fun _ => m) n ss).1, List.map_map]
  rfl

/-! ## From line to line -/

/-- Two classes that say the same so far and go on from the same place. -/
structure Body.Alike (b c : Body) : Prop where
  name : b.header.map ClassHeader.name = c.header.map ClassHeader.name
  bases : b.header.map ClassHeader.bases = c.header.map ClassHeader.bases
  carry : b.carry = c.carry
  indent : b.indent = c.indent
  fields : b.fields.map Field.signature = c.fields.map Field.signature

/-- Two readers stand alike. -/
inductive Phase.Alike : Phase → Phase → Prop
  | outside (carry : Carry) : Alike (outside carry) (outside carry)
  | inHeader (m n : Nat) {h k : HeaderText} (htext : SameHeader h.text k.text)
      (hdepth : h.depth = k.depth) : Alike (inHeader m h) (inHeader n k)
  | inBody {b c : Body} (h : b.Alike c) : Alike (inBody b) (inBody c)

theorem Body.Alike.refl (b : Body) : b.Alike b := ⟨rfl, rfl, rfl, rfl, rfl⟩

theorem ofHeader_alike (m n : Nat) {s t : List Char} (h : SameHeader s t) :
    (Body.ofHeader m s).Alike (Body.ofHeader n t) := by
  unfold Body.ofHeader
  rcases h.ofText? with hst | ⟨x, y, hs, ht, hxy⟩
  · rw [hst]
    cases ClassHeader.ofText? t with
    | none => exact ⟨rfl, rfl, rfl, rfl, rfl⟩
    | some x => exact ⟨rfl, rfl, rfl, rfl, signatures_fieldsOf m n _⟩
  · rw [hs, ht]
    refine ⟨congrArg some hxy.name, congrArg some hxy.bases, hxy.carry, rfl, ?_⟩
    dsimp only
    rw [hxy.fields m]
    exact signatures_fieldsOf m n _

theorem HeaderText.add_same {h k : HeaderText} (htext : SameHeader h.text k.text)
    (hdepth : h.depth = k.depth) (line : List Char) :
    SameHeader (h.add line).text (k.add line).text ∧ (h.add line).depth = (k.add line).depth := by
  refine ⟨?_, by rw [HeaderText.add, HeaderText.add, hdepth]⟩
  rw [HeaderText.add, HeaderText.add, htext.isEmpty_eq]
  dsimp only
  split
  · exact .refl _
  · simpa only [List.append_assoc, List.singleton_append] using htext.append _

theorem HeaderText.alike_of_same {h k : HeaderText} (htext : SameHeader h.text k.text)
    (hdepth : h.depth = k.depth) (m n : Nat) :
    (if h.isComplete then Phase.inBody (.ofHeader m h.text) else .inHeader m h).Alike
      (if k.isComplete then .inBody (.ofHeader n k.text) else .inHeader n k) := by
  rw [HeaderText.isComplete, HeaderText.isComplete, hdepth]
  split
  · exact .inBody (ofHeader_alike m n htext)
  · exact .inHeader m n htext hdepth

theorem HeaderText.next_alike {h k : HeaderText} (htext : SameHeader h.text k.text)
    (hdepth : h.depth = k.depth) (m n : Nat) (line : List Char) :
    (h.next m line).Alike (k.next n line) := by
  obtain ⟨htext, hdepth⟩ := HeaderText.add_same htext hdepth line
  exact HeaderText.alike_of_same htext hdepth m n

theorem Carry.next_alike (c : Carry) (m n : Nat) (line : List Char) :
    (c.next m line).Alike (c.next n line) := by
  unfold Carry.next
  split
  · exact .outside _
  · exact HeaderText.next_alike (.refl _) rfl m n line

theorem Body.Alike.next {b c : Body} (h : b.Alike c) (m n : Nat) (line : List Char) :
    (b.next m line).Alike (c.next n line) := by
  have hfields : (b.statementLine m line).1.map Field.signature =
      (c.statementLine n line).1.map Field.signature := by
    unfold Body.statementLine
    rw [h.indent]
    split
    · exact signatures_fieldsOf ..
    · rfl
  unfold Body.next
  rw [h.carry, h.indent]
  split
  · exact ⟨h.name, h.bases, rfl, rfl, h.fields⟩
  split
  · exact h
  · exact ⟨h.name, h.bases, rfl, rfl, by rw [List.map_append, List.map_append, h.fields, hfields]⟩

namespace Phase.Alike

variable {p q : Phase}

theorem ended (h : p.Alike q) (line : List Char) :
    List.Forall₂ Body.Alike (p.ended line) (q.ended line) := by
  cases h with
  | outside | inHeader => exact .nil
  | @inBody b c h =>
    have hends : b.endsAbove line = c.endsAbove line := by rw [Body.endsAbove, Body.endsAbove, h.carry]
    rw [Phase.ended_inBody, Phase.ended_inBody, hends]
    split
    · exact .cons h .nil
    · exact .nil

/-- **One more line** leaves two readers alike. -/
theorem next (h : p.Alike q) (m n : Nat) (line : List Char) :
    (p.next m line).Alike (q.next n line) := by
  cases h with
  | outside carry => exact carry.next_alike m n line
  | inHeader i j htext hdepth => exact HeaderText.next_alike htext hdepth i j line
  | @inBody b c h =>
    have hends : b.endsAbove line = c.endsAbove line := by rw [Body.endsAbove, Body.endsAbove, h.carry]
    rw [Phase.next_inBody, Phase.next_inBody, hends]
    split
    · exact Carry.next_alike ..
    · exact .inBody (h.next m n line)

/-- **A run** of two readers that stand alike visits classes that say the same. -/
theorem classes (ls : List (List Char)) (h : p.Alike q) (m n : Nat) :
    List.Forall₂ Body.Alike (p.classes m ls) (q.classes n ls) ∧
      (p.after m ls).Alike (q.after n ls) := by
  induction ls generalizing p q m n with
  | nil =>
    refine ⟨?_, h⟩
    cases h with
    | outside | inHeader => exact .nil
    | inBody h => exact .cons h .nil
  | cons line ls ih =>
    obtain ⟨hclasses, hafter⟩ := ih (h.next (m + 1) (n + 1) line) (m + 1) (n + 1)
    exact ⟨List.rel_append (h.ended line) hclasses, hafter⟩

end Phase.Alike

/-! ## The models -/

section Selected

variable (file : Path) (markers : List String)

theorem signatures_add (m : Models) (x : Model) (k : Nat) : (m.add x k).signatures =
    m.signatures.filter (fun s => s.1 != x.name) ++ [(x.name, x.fields.map Field.signature)] := by
  rw [Models.signatures, Models.add, List.map_append, Models.signatures, List.filter_map]
  rfl

theorem signatures_keep {m m' : Models} (hm : m.signatures = m'.signatures) {b c : Body}
    (h : b.Alike c) :
    (m.keep file markers b).signatures = (m'.keep file markers c).signatures := by
  have hname := h.name
  have hbases := h.bases
  unfold Models.keep Body.model?
  cases hb : b.header with
  | none =>
    rw [hb] at hname
    rw [Option.map_eq_none_iff.mp hname.symm]
    exact hm
  | some x =>
    rw [hb] at hname hbases
    obtain ⟨y, hc, hxy⟩ := Option.map_eq_some_iff.mp hname.symm
    rw [hc] at hbases ⊢
    have hmodel : x.isModel markers = y.isModel markers :=
      congrArg (·.any (isModelBase markers)) (Option.some.inj hbases)
    dsimp only
    rw [hmodel]
    split
    · next hx =>
      split at hx
      · cases hx
        rw [if_pos ‹_›, signatures_add, signatures_add, hm]
        dsimp only
        rw [hxy, h.fields]
      · exact nomatch hx
    · next hx =>
      split at hx
      · exact nomatch hx
      · rw [if_neg ‹_›]
        exact hm

/-- **The models among classes that say the same** have the same signatures. -/
theorem signatures_select {bs cs : List Body} (h : List.Forall₂ Body.Alike bs cs) :
    (Models.select file markers bs).signatures = (Models.select file markers cs).signatures := by
  have hfold : ∀ {m m' : Models}, m.signatures = m'.signatures →
      (bs.foldl (Models.keep file markers) m).signatures =
        (cs.foldl (Models.keep file markers) m').signatures := by
    induction h with
    | nil => exact id
    | cons hbc _ ih => exact fun hm => ih (signatures_keep file markers hm hbc)
  exact hfold rfl

/-- **Two texts that differ in some of their lines** have models with the same signatures if the
reader goes alike through these lines. -/
theorem readModels_alike {a b : String} {pre post : List (List Char)} (mid mid' : List (List Char))
    {p : Phase} (ha : lines a.toList = pre ++ (mid ++ post))
    (hb : lines b.toList = pre ++ (mid' ++ post)) (hp : (Phase.outside {}).after 0 pre = p)
    (hphase : (p.after pre.length mid).Alike (p.after pre.length mid'))
    (hcompleted : List.Forall₂ Body.Alike (p.completed pre.length mid) (p.completed pre.length mid'))
    {m : Models} (hm : (readModels file markers a).1 = .ok m) :
    ∃ m', (readModels file markers b).1 = .ok m' ∧ m'.signatures = m.signatures := by
  obtain ⟨hclasses, hafter⟩ :=
    hphase.classes post (pre.length + mid.length) (pre.length + mid'.length)
  have hselect : (Models.select file markers (classesOf b)).signatures =
      (Models.select file markers (classesOf a)).signatures := by
    refine (signatures_select file markers ?_).symm
    simp only [classesOf, ha, hb, Phase.classes_append, hp, Nat.zero_add]
    exact List.rel_append (List.forall₂_same.mpr fun b _ => .refl b)
      (List.rel_append hcompleted hclasses)
  have hphases : ((Phase.outside {}).after 0 (lines a.toList)).Alike
      ((Phase.outside {}).after 0 (lines b.toList)) := by
    simpa only [ha, hb, Phase.after_append, hp, Nat.zero_add] using hafter
  rw [readModels_eq_select] at hm
  rw [readModels_eq_select]
  generalize (Phase.outside {}).after 0 (lines a.toList) = q at hphases hm
  generalize (Phase.outside {}).after 0 (lines b.toList) = r at hphases ⊢
  cases hphases with
  | inHeader => cases hm
  | outside | inBody =>
    obtain rfl := Except.ok.inj hm
    exact ⟨_, rfl, hselect⟩

end Selected

end ModelTypings.Source
