import ModelTypings.Proofs.Source.Classes
import ModelTypings.Proofs.Source.Header

/-!
# The order of what is read

Classes are found from the top of the file to its end. Where a class or a field is said to stand, it
does.

* `Body.IsOrdered`, `Phase.IsOrdered`: the lines of a class lie in order among those read so far;
* `classes_isOrdered`: the classes of a run follow one another, each with its fields;
* `Phase.classes_induct`: what one more line keeps holds of the classes of a run;
* `Body.IsNamed`, `Phase.IsNamed`, `classes_isNamed`: the line of a class opens it, by its name;
* **`readModels_inOrder`**: the models of a file are distinct and in order, each the last class of
  its name.
-/

namespace ModelTypings.Source

open Text Files

/-! ## The lines of fields -/

theorem line_of_ofStatement? {s : List Char} {line : Nat} {f : Field}
    (h : Field.ofStatement? s line = some f) : f.line = line ∧ f.optional = true := by
  unfold Field.ofStatement? at h
  split at h
  · exact nomatch h
  split at h
  · obtain ⟨c, _, rfl⟩ := Option.map_eq_some_iff.mp h
    exact ⟨rfl, rfl⟩
  · exact nomatch h

theorem line_of_mem_fieldsOf {line : Nat} {f : Field} {ss : List (List Char)}
    (h : f ∈ (fieldsOf line ss).1) : f.line = line ∧ f.optional = true := by
  rw [fieldsOf_eq] at h
  obtain ⟨s, -, hs⟩ := List.mem_filterMap.mp h
  exact line_of_ofStatement? hs

theorem pairwise_fieldsOf (line : Nat) (ss : List (List Char)) :
    (fieldsOf line ss).1.Pairwise (·.line ≤ ·.line) :=
  List.pairwise_of_forall_mem_list fun _ hf _ hg =>
    ((line_of_mem_fieldsOf hf).1.trans (line_of_mem_fieldsOf hg).1.symm).le

/-! ## Classes in order -/

/-- The class and its fields stand on lines up to `n`, the fields in order and not above the class. -/
structure Body.IsOrdered (n : Nat) (b : Body) : Prop where
  line_le : b.line ≤ n
  sorted : b.fields.Pairwise (·.line ≤ ·.line)
  fields : ∀ f ∈ b.fields, b.line ≤ f.line ∧ f.line ≤ n ∧ f.optional = true

/-- A class ends above another. -/
def Body.Above (b c : Body) : Prop := b.line < c.line ∧ ∀ f ∈ b.fields, f.line < c.line

namespace Phase

/-- What is under way stands in order on the first `n` lines. -/
def IsOrdered (n : Nat) : Phase → Prop
  | outside _ => True
  | inHeader start _ => start ≤ n
  | inBody b => b.IsOrdered n

/-- No class that is still to be completed below line `n` starts above this line. -/
def start (n : Nat) : Phase → Nat
  | outside _ => n + 1
  | inHeader start _ => start
  | inBody b => b.line

end Phase

theorem Body.IsOrdered.mono {n k : Nat} {b : Body} (h : b.IsOrdered n) (hk : n ≤ k) :
    b.IsOrdered k where
  line_le := h.line_le.trans hk
  sorted := h.sorted
  fields f hf := by
    obtain ⟨h1, h2, h3⟩ := h.fields f hf
    exact ⟨h1, h2.trans hk, h3⟩

theorem Body.line_ofHeader (line : Nat) (text : List Char) : (Body.ofHeader line text).line = line := by
  unfold Body.ofHeader
  split <;> rfl

theorem Body.isOrdered_ofHeader {line n : Nat} (h : line ≤ n) (text : List Char) :
    (Body.ofHeader line text).IsOrdered n := by
  unfold Body.ofHeader
  split
  · exact ⟨h, .nil, fun f hf => nomatch hf⟩
  · refine ⟨h, pairwise_fieldsOf .., fun f hf => ?_⟩
    obtain ⟨hline, hopt⟩ := line_of_mem_fieldsOf hf
    exact ⟨hline.ge, hline.le.trans h, hopt⟩

theorem HeaderText.next_isOrdered (h : HeaderText) {start n : Nat} (hn : start ≤ n)
    (line : List Char) :
    (h.next start line).IsOrdered n ∧ start ≤ (h.next start line).start n := by
  unfold HeaderText.next
  split
  · exact ⟨Body.isOrdered_ofHeader hn _, (Body.line_ofHeader ..).ge⟩
  · exact ⟨hn, le_rfl⟩

theorem Carry.next_isOrdered (c : Carry) (n : Nat) (line : List Char) :
    (c.next n line).IsOrdered n ∧ n ≤ (c.next n line).start n := by
  unfold Carry.next
  split
  · exact ⟨trivial, Nat.le_succ n⟩
  · exact HeaderText.next_isOrdered _ le_rfl line

theorem Body.line_next (b : Body) (n : Nat) (line : List Char) : (b.next n line).line = b.line := by
  unfold Body.next
  split
  · rfl
  split <;> rfl

theorem Body.line_of_mem_statementLine {b : Body} {n : Nat} {line : List Char} {f : Field}
    (hf : f ∈ (b.statementLine n line).1) : f.line = n ∧ f.optional = true := by
  unfold Body.statementLine at hf
  split at hf
  · exact line_of_mem_fieldsOf hf
  · exact nomatch hf

theorem Body.IsOrdered.next {b : Body} {n : Nat} (h : b.IsOrdered n) (line : List Char) :
    (b.next (n + 1) line).IsOrdered (n + 1) := by
  have hmono := h.mono (Nat.le_succ n)
  unfold Body.next
  split
  · exact ⟨hmono.line_le, hmono.sorted, hmono.fields⟩
  split
  · exact hmono
  refine ⟨hmono.line_le, ?_, fun f hf => ?_⟩
  · refine List.pairwise_append.mpr ⟨h.sorted, ?_, fun f hf g hg => ?_⟩
    · unfold Body.statementLine
      split
      · exact pairwise_fieldsOf ..
      · exact .nil
    · rw [(Body.line_of_mem_statementLine hg).1]
      exact (h.fields f hf).2.1.trans (Nat.le_succ n)
  · rcases List.mem_append.mp hf with hf | hf
    · exact hmono.fields f hf
    · obtain ⟨hline, hopt⟩ := Body.line_of_mem_statementLine hf
      exact ⟨hmono.line_le.trans hline.ge, hline.le, hopt⟩

namespace Phase

/-- **One more line** keeps what is under way in order. -/
theorem IsOrdered.next {p : Phase} {n : Nat} (h : p.IsOrdered n) (line : List Char) :
    (p.next (n + 1) line).IsOrdered (n + 1) ∧ p.start n ≤ (p.next (n + 1) line).start (n + 1) := by
  cases p with
  | outside carry => exact carry.next_isOrdered (n + 1) line
  | inHeader start text => exact text.next_isOrdered (Nat.le_succ_of_le h) line
  | inBody b =>
    rw [next_inBody]
    split
    · obtain ⟨hord, hstart⟩ := Carry.next_isOrdered {} (n + 1) line
      exact ⟨hord, (Nat.le_succ_of_le h.line_le).trans hstart⟩
    · exact ⟨Body.IsOrdered.next h line, (Body.line_next b (n + 1) line).ge⟩

theorem eq_of_mem_ended {p : Phase} {line : List Char} {b : Body} (hb : b ∈ p.ended line) :
    p = inBody b ∧ ∀ n, p.next n line = Carry.next {} n line := by
  cases p with
  | outside carry => exact nomatch hb
  | inHeader start text => exact nomatch hb
  | inBody c =>
    rw [ended_inBody] at hb
    split at hb
    · next he =>
      obtain rfl := List.mem_singleton.mp hb
      exact ⟨rfl, fun n => by rw [next_inBody, if_pos he]⟩
    · exact nomatch hb

theorem pairwise_ended (p : Phase) (line : List Char) : (p.ended line).Pairwise Body.Above := by
  cases p with
  | outside carry => exact .nil
  | inHeader start text => exact .nil
  | inBody b =>
    rw [ended_inBody]
    split
    · exact List.pairwise_singleton ..
    · exact .nil

theorem IsOrdered.after {p : Phase} {n : Nat} (h : p.IsOrdered n) (ls : List (List Char)) :
    (p.after n ls).IsOrdered (n + ls.length) := by
  induction ls generalizing p n with
  | nil => exact h
  | cons line ls ih =>
    rw [List.length_cons, ← Nat.add_assoc, Nat.add_right_comm]
    exact ih (h.next line).1

theorem after_isOrdered (ls : List (List Char)) : ((outside {}).after 0 ls).IsOrdered ls.length := by
  have h := IsOrdered.after (p := outside {}) (n := 0) trivial ls
  rwa [Nat.zero_add] at h

end Phase

/-- **The classes of a run are in order**, and none starts above what is under way. -/
theorem classes_isOrdered (ls : List (List Char)) {p : Phase} {n : Nat} (h : p.IsOrdered n) :
    (∀ b ∈ p.classes n ls, p.start n ≤ b.line ∧ b.IsOrdered (n + ls.length)) ∧
      (p.classes n ls).Pairwise Body.Above := by
  induction ls generalizing p n with
  | nil =>
    cases p with
    | outside carry => exact ⟨fun b hb => (nomatch hb), .nil⟩
    | inHeader start text => exact ⟨fun b hb => (nomatch hb), .nil⟩
    | inBody c =>
      refine ⟨fun b hb => ?_, List.pairwise_singleton ..⟩
      obtain rfl := List.mem_singleton.mp hb
      exact ⟨le_rfl, h⟩
  | cons line ls ih =>
    obtain ⟨hnext, hstart⟩ := h.next line
    obtain ⟨hmem, hpair⟩ := ih hnext
    have hlen : n + (line :: ls).length = n + 1 + ls.length := by
      rw [List.length_cons]
      omega
    rw [Phase.classes, hlen]
    refine ⟨fun b hb => ?_, List.pairwise_append.mpr ⟨p.pairwise_ended line, hpair, ?_⟩⟩
    · rcases List.mem_append.mp hb with hb | hb
      · obtain ⟨rfl, _⟩ := Phase.eq_of_mem_ended hb
        exact ⟨le_rfl, Body.IsOrdered.mono h (by omega)⟩
      · exact ⟨hstart.trans (hmem b hb).1, (hmem b hb).2⟩
    · -- what starts below a line that ends a class starts below all of that class
      intro b hb c hc
      obtain ⟨rfl, hcarry⟩ := Phase.eq_of_mem_ended hb
      have hc' : n + 1 ≤ c.line := by
        have := (Carry.next_isOrdered {} (n + 1) line).2
        rw [← hcarry] at this
        exact this.trans (hmem c hc).1
      exact ⟨(Nat.lt_succ_of_le (Body.IsOrdered.line_le h)).trans_le hc', fun f hf =>
        (Nat.lt_succ_of_le (Body.IsOrdered.fields h f hf).2.1).trans_le hc'⟩

theorem completed_isOrdered (ls : List (List Char)) {p : Phase} {n : Nat} (h : p.IsOrdered n) :
    ∀ b ∈ p.completed n ls, b.IsOrdered (n + ls.length) := by
  intro b hb
  have hclasses := p.classes_append ls [] n
  rw [List.append_nil] at hclasses
  exact ((classes_isOrdered ls h).1 b (hclasses ▸ List.mem_append_left _ hb)).2

/-! ## Where a class stands -/

/-- A line of the file, counted from one. -/
def LineAt (ls : List (List Char)) (n : Nat) (line : List Char) : Prop :=
  0 < n ∧ ls[n - 1]? = some line

theorem lineAt_of_getElem? {ls : List (List Char)} {n : Nat} {line : List Char}
    (hline : ls[n]? = some line) : LineAt ls (n + 1) line :=
  ⟨Nat.succ_pos n, hline⟩

/-- What one more line keeps holds of the classes of a run. -/
theorem Phase.classes_induct {ls : List (List Char)} {I : Nat → Phase → Prop}
    (hnext : ∀ {n : Nat} {p : Phase} {line : List Char}, I n p → ls[n]? = some line →
      I (n + 1) (p.next (n + 1) line))
    {rest : List (List Char)} {p : Phase} {n : Nat} (h : I n p) (hrest : ls.drop n = rest) :
    ∀ b ∈ p.classes n rest, ∃ k, I k (.inBody b) := by
  induction rest generalizing p n with
  | nil =>
    intro b hb
    cases p with
    | outside carry => exact nomatch hb
    | inHeader start text => exact nomatch hb
    | inBody c =>
      obtain rfl := List.mem_singleton.mp hb
      exact ⟨n, h⟩
  | cons line rest ih =>
    intro b hb
    have hline : ls[n]? = some line := by
      rw [← List.head?_drop, hrest]
      rfl
    have hdrop : ls.drop (n + 1) = rest := by
      rw [← List.tail_drop, hrest]
      rfl
    rcases List.mem_append.mp hb with hb | hb
    · obtain ⟨rfl, _⟩ := Phase.eq_of_mem_ended hb
      exact ⟨n, h⟩
    · exact ih (hnext h hline) hdrop b hb

/-- The line of the class opens it, by its name if the header can be read. -/
def Body.IsNamed (ls : List (List Char)) (b : Body) : Prop :=
  ∃ line, LineAt ls b.line line ∧ isClassStart line = true ∧
    ∀ h, b.header = some h → className? line = some h.name

/-- What is under way begins on a line that opens a class. -/
def Phase.IsNamed (ls : List (List Char)) : Phase → Prop
  | outside _ => True
  | inHeader start text =>
    ∃ line, LineAt ls start line ∧ isClassStart line = true ∧ text.StartsWith line ∧
      ∃ c ∈ withoutComment line, headerNesting c ≠ 0
  | inBody b => b.IsNamed ls

section Named

variable {ls : List (List Char)}

theorem Body.header_ofHeader (line : Nat) (text : List Char) :
    (Body.ofHeader line text).header = ClassHeader.ofText? text := by
  unfold Body.ofHeader
  split
  · next h => exact h.symm
  · next h => exact h.symm

theorem Body.header_next (b : Body) (n : Nat) (line : List Char) :
    (b.next n line).header = b.header := by
  unfold Body.next
  split
  · rfl
  split <;> rfl

theorem HeaderText.next_isNamed {h : HeaderText} {start : Nat} {first line : List Char}
    (hfirst : LineAt ls start first) (hclass : isClassStart first = true)
    (hs : (h.add line).StartsWith first)
    (hopen : (h.add line).isComplete = false → ∃ c ∈ withoutComment first, headerNesting c ≠ 0) :
    (h.next start line).IsNamed ls := by
  unfold HeaderText.next
  split
  · refine ⟨first, (Body.line_ofHeader ..).symm ▸ hfirst, hclass, fun header hh => ?_⟩
    rw [Body.header_ofHeader] at hh
    exact className?_of_startsWith hclass hs hh
  · next hc => exact ⟨first, hfirst, hclass, hs, hopen (by simpa using hc)⟩

theorem Carry.next_isNamed (c : Carry) {n : Nat} {line : List Char} (hline : LineAt ls n line) :
    (c.next n line).IsNamed ls := by
  unfold Carry.next
  split
  · trivial
  · next hc =>
    have hclass : isClassStart line = true := by
      simp only [Bool.or_eq_true, Bool.not_eq_true', not_or, Bool.not_eq_false] at hc
      exact hc.2
    exact HeaderText.next_isNamed hline hclass (HeaderText.startsWith_add line)
      (exists_headerNesting rfl)

theorem Body.IsNamed.next {b : Body} (h : b.IsNamed ls) (n : Nat) (line : List Char) :
    (b.next n line).IsNamed ls := by
  unfold Body.IsNamed
  rw [Body.line_next, Body.header_next]
  exact h

theorem Phase.IsNamed.next {p : Phase} (h : p.IsNamed ls) {n : Nat} {line : List Char}
    (hline : LineAt ls n line) : (p.next n line).IsNamed ls := by
  cases p with
  | outside carry => exact carry.next_isNamed hline
  | inHeader start text =>
    obtain ⟨first, hfirst, hclass, hs, hopen⟩ := h
    exact HeaderText.next_isNamed hfirst hclass (hs.add hclass hopen line) fun _ => hopen
  | inBody b =>
    rw [next_inBody]
    split
    · exact Carry.next_isNamed {} hline
    · exact Body.IsNamed.next h n line

/-- **The line of a class opens it, by its name.** -/
theorem classes_isNamed {rest : List (List Char)} {p : Phase} {n : Nat} (h : p.IsNamed ls)
    (hrest : ls.drop n = rest) : ∀ b ∈ p.classes n rest, b.IsNamed ls := by
  intro b hb
  have hnext : ∀ {n : Nat} {p : Phase} {line : List Char}, p.IsNamed ls → ls[n]? = some line →
      (p.next (n + 1) line).IsNamed ls := fun h hline => h.next (lineAt_of_getElem? hline)
  obtain ⟨-, hnamed⟩ := Phase.classes_induct (I := fun _ p => p.IsNamed ls) hnext h hrest b hb
  exact hnamed

end Named

/-! ## The models of a file -/

theorem classesOf_isOrdered (content : String) :
    (∀ b ∈ classesOf content, b.IsOrdered (lines content.toList).length) ∧
      (classesOf content).Pairwise Body.Above := by
  have hstart : (Phase.outside {}).IsOrdered 0 := trivial
  obtain ⟨hordered, habove⟩ := classes_isOrdered (lines content.toList) hstart
  rw [Nat.zero_add] at hordered
  exact ⟨fun b hb => (hordered b hb).2, habove⟩

theorem classesOf_isNamed (content : String) :
    ∀ b ∈ classesOf content, b.IsNamed (lines content.toList) := by
  have hstart : (Phase.outside {}).IsNamed (lines content.toList) := trivial
  exact classes_isNamed hstart rfl

/-- The models stand in the order of their classes, each the last class of its name. -/
structure Models.InOrder (file : Path) (markers : List String) (content : String) (m : Models) :
    Prop where
  /-- No two models have one name. -/
  nodup : (m.models.map Model.name).Nodup
  /-- A model, with all its fields, stands above the next one. -/
  above : m.models.Pairwise fun x y => x.line < y.line ∧ ∀ f ∈ x.fields, f.line < y.line
  /-- The line of a model opens a class of its name. -/
  opens : ∀ x ∈ m.models, ∃ line, LineAt (lines content.toList) x.line line ∧
    isClassStart line = true ∧ className? line = some x.name
  /-- The models are the classes below which no other model class has their name. -/
  last : ∀ x, x ∈ m.models ↔ ∃ above b below, classesOf content = above ++ b :: below ∧
    b.model? file markers = some x ∧
      ∀ c ∈ below, ∀ y, c.model? file markers = some y → y.name ≠ x.name
  /-- Fields stand in order from the line of their model on, and all are optional. -/
  fields : ∀ x ∈ m.models, x.fields.Pairwise (·.line ≤ ·.line) ∧
    ∀ f ∈ x.fields, x.line ≤ f.line ∧ f.line ≤ (lines content.toList).length ∧ f.optional = true

theorem model?_eq_some {file : Path} {markers : List String} {b : Body} {x : Model}
    (h : b.model? file markers = some x) :
    x.line = b.line ∧ x.fields = b.fields ∧ ∃ header, b.header = some header ∧ header.name = x.name ∧
      header.isModel markers = true := by
  unfold Body.model? at h
  split at h
  · next header hh =>
    split at h
    · next hm =>
      obtain rfl := Option.some.inj h
      exact ⟨rfl, rfl, header, hh, rfl, hm⟩
    · exact nomatch h
  · exact nomatch h

/-- **The models of a file are distinct and in order**, each the last class of its name. -/
theorem readModels_inOrder (file : Path) (markers : List String) {content : String} {m : Models}
    (h : (readModels file markers content).1 = .ok m) : m.InOrder file markers content := by
  obtain rfl := eq_select_of_readModels h
  obtain ⟨hordered, habove⟩ := classesOf_isOrdered content
  have hclass : ∀ x ∈ (Models.select file markers (classesOf content)).models,
      ∃ b ∈ classesOf content, b.model? file markers = some x := by
    intro x hx
    obtain ⟨above, b, below, hbs, hb, -⟩ := (mem_models_select file markers).mp hx
    exact ⟨b, hbs ▸ List.mem_append_right _ List.mem_cons_self, hb⟩
  refine ⟨?_, ?_, fun x hx => ?_, fun x => mem_models_select file markers, fun x hx => ?_⟩
  · rw [models_select]
    exact List.pairwise_map.mpr (List.pairwise_pwFilter _)
  · rw [models_select]
    refine (List.Pairwise.filterMap _ (fun b c hbc x hx y hy => ?_) habove).sublist
      (List.pwFilter_sublist _)
    obtain ⟨hxl, hxf, -⟩ := model?_eq_some hx
    rw [(model?_eq_some hy).1, hxl, hxf]
    exact hbc
  · obtain ⟨b, hb, hbx⟩ := hclass x hx
    obtain ⟨hline, -, header, hh, hname, -⟩ := model?_eq_some hbx
    obtain ⟨line, hat, hclass, hheader⟩ := classesOf_isNamed content b hb
    exact ⟨line, hline ▸ hat, hclass, hname ▸ hheader header hh⟩
  · obtain ⟨b, hb, hbx⟩ := hclass x hx
    obtain ⟨hline, hfields, -⟩ := model?_eq_some hbx
    rw [hline, hfields]
    exact ⟨(hordered b hb).sorted, (hordered b hb).fields⟩

/-- A class declared twice, between them one with a body on its header line. -/
theorem readModels_inOrder_redeclared :
    (readModels ⟨["m.py"]⟩ ["Model"]
        "class A(Model):\n x = F()\nclass B(Model): y = G()\n\nclass A(\n Model):\n z = H()\n").1 =
      .ok ⟨[⟨"B", [⟨"y", "G", true, 3⟩], ⟨["m.py"]⟩, 3⟩, ⟨"A", [⟨"z", "H", true, 7⟩], ⟨["m.py"]⟩, 5⟩],
        0⟩ ∧
    Models.InOrder ⟨["m.py"]⟩ ["Model"]
      "class A(Model):\n x = F()\nclass B(Model): y = G()\n\nclass A(\n Model):\n z = H()\n"
      ⟨[⟨"B", [⟨"y", "G", true, 3⟩], ⟨["m.py"]⟩, 3⟩, ⟨"A", [⟨"z", "H", true, 7⟩], ⟨["m.py"]⟩, 5⟩], 0⟩ := by
  have hread : (readModels ⟨["m.py"]⟩ ["Model"]
      "class A(Model):\n x = F()\nclass B(Model): y = G()\n\nclass A(\n Model):\n z = H()\n").1 =
      .ok ⟨[⟨"B", [⟨"y", "G", true, 3⟩], ⟨["m.py"]⟩, 3⟩, ⟨"A", [⟨"z", "H", true, 7⟩], ⟨["m.py"]⟩, 5⟩],
        0⟩ := by decide +kernel
  exact ⟨hread, readModels_inOrder ⟨["m.py"]⟩ ["Model"] hread⟩

end ModelTypings.Source
