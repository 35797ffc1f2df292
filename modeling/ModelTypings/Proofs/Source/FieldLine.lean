import ModelTypings.Proofs.Source.FieldGrammar
import ModelTypings.Proofs.Source.Order
import ModelTypings.Proofs.Source.Suite

/-!
# Where a field is declared

The line of a field holds the beginning of its statement: the name, blanks and the equals sign. The
one exception is a statement behind the colon of a header that goes over several lines: it counts as
one of the first line, wherever it stands.

* `DeclaresAt`, `Declares`: a name, blanks and an equals sign in a text;
* `IsCutFrom`, `pieces_isCutFrom`: the pieces of a line stand in it, each at its start or behind a
  semicolon;
* `declares_of_mem_fieldsOf`, `declares_of_mem_ofHeader`: what the statements of a text declare, it
  declares;
* `Field.StandsIn`, `Phase.IsDeclared`: a field is declared on its line or below the first line of
  the header;
* `Field.IsRead`, `isRead_of_readModels`: every field of a file is what a statement declares;
* **`readModels_fieldLines`**: every field of a file is declared where it is said to stand;
* **`not_readModels_fieldLines`**: a field on the last line of a header counts as one of the first.
-/

namespace ModelTypings.Source

open Text Files

/-! ## Declarations in a text -/

/-- Behind `before` the text goes on with the name, the blanks and an equals sign. -/
def DeclaresAt (before : List Char) (blanks : Blanks) (text : List Char) (name : String) : Prop :=
  ∃ after, text = before ++ (name.toList ++ (blanks.text ++ '=' :: after))

/-- The text does not end inside a word. -/
def EndsOutsideWord (before : List Char) : Prop := ∀ c ∈ before.getLast?, isWord c = false

/-- A declaration of the name stands in the text. -/
def Declares (text : List Char) (name : String) : Prop :=
  ∃ before blanks, DeclaresAt before blanks text name ∧ EndsOutsideWord before

theorem endsOutsideWord_append {a b : List Char} (ha : EndsOutsideWord a) (hb : EndsOutsideWord b) :
    EndsOutsideWord (a ++ b) := by
  intro c hc
  rw [List.getLast?_append, Option.mem_def, Option.or_eq_some_iff] at hc
  rcases hc with hc | ⟨-, hc⟩
  · exact hb c hc
  · exact ha c hc

theorem endsOutsideWord_sign (before : List Char) {c : Char} (h : isSign c = true) :
    EndsOutsideWord (before ++ [c]) := by
  intro d hd
  rw [List.getLast?_concat] at hd
  obtain rfl := Option.some.inj hd
  exact isWord_of_isSign h

theorem Blanks.endsOutsideWord (w : Blanks) : EndsOutsideWord w.text := fun c hc =>
  isWord_of_isBlank (w.valid c (List.mem_of_getLast? hc))

theorem Declares.within {text : List Char} {name : String} (h : Declares text name)
    {above : List Char} (ha : EndsOutsideWord above) (below : List Char) :
    Declares (above ++ (text ++ below)) name := by
  obtain ⟨before, blanks, ⟨after, rfl⟩, hb⟩ := h
  exact ⟨above ++ before, blanks, ⟨after ++ below, by simp⟩, endsOutsideWord_append ha hb⟩

theorem Declares.of_trim {text : List Char} {name : String} (h : Declares (trim text) name) :
    Declares text name := by
  obtain ⟨v, w, hs⟩ := exists_trim text
  rw [hs]
  exact h.within (Blanks.endsOutsideWord v) w.text

theorem declares_of_ofStatement? {s : List Char} {line : Nat} {f : Field}
    (h : Field.ofStatement? s line = some f) : Declares s f.name := by
  obtain ⟨d, rfl, rfl⟩ := exists_declaration h
  refine ⟨[], d.beforeSign, ⟨d.afterSign.text ++ d.call.text, ?_⟩, fun c hc => nomatch hc⟩
  rw [Declaration.field, String.toList_ofList]
  rfl

/-! ## The statements of a text -/

/-- The first piece stands at the start of the text, every other one behind a semicolon. -/
def IsCutFrom (text : List Char) (ps : List (List Char)) : Prop :=
  (∀ p ∈ ps.head?, p <+: text) ∧ ∀ p ∈ ps.tail, ∃ before, before ++ ';' :: p <+: text

theorem isCutFrom_single (text : List Char) : IsCutFrom text [[]] :=
  ⟨fun p hp => by
    obtain rfl := Option.some.inj hp
    exact List.nil_prefix, fun p hp => nomatch hp⟩

theorem IsCutFrom.consFirst {text : List Char} {ps : List (List Char)} (h : IsCutFrom text ps)
    (c : Char) : IsCutFrom (c :: text) (consFirst c ps) := by
  obtain ⟨hfirst, hmore⟩ := h
  cases ps with
  | nil =>
    refine ⟨fun p hp => ?_, fun p hp => nomatch hp⟩
    obtain rfl := Option.some.inj hp
    exact List.cons_prefix_cons.mpr ⟨rfl, List.nil_prefix⟩
  | cons q ps =>
    refine ⟨fun p hp => ?_, fun p hp => ?_⟩
    · obtain rfl := Option.some.inj hp
      exact List.cons_prefix_cons.mpr ⟨rfl, hfirst q rfl⟩
    · obtain ⟨before, hb⟩ := hmore p hp
      exact ⟨c :: before, List.cons_prefix_cons.mpr ⟨rfl, hb⟩⟩

theorem IsCutFrom.cut {text : List Char} {ps : List (List Char)} (h : IsCutFrom text ps) :
    IsCutFrom (';' :: text) ([] :: ps) := by
  refine ⟨fun p hp => ?_, fun p hp => ?_⟩
  · obtain rfl := Option.some.inj hp
    exact List.nil_prefix
  · cases ps with
    | nil => exact nomatch hp
    | cons q ps =>
      rcases List.mem_cons.mp hp with rfl | hp
      · exact ⟨[], List.cons_prefix_cons.mpr ⟨rfl, h.1 p rfl⟩⟩
      · obtain ⟨before, hb⟩ := h.2 p hp
        exact ⟨';' :: before, List.cons_prefix_cons.mpr ⟨rfl, hb⟩⟩

/-- **The pieces of a text stand in it.** -/
theorem pieces_isCutFrom (d : Int) (q : Option Char) (text : List Char) :
    IsCutFrom text (pieces d q text) := by
  fun_induction pieces d q text with
  | case1 => exact isCutFrom_single _
  | case2 => exact (isCutFrom_single []).consFirst '\\'
  | case3 d q e cs ih => exact (ih.consFirst e).consFirst '\\'
  | case4 d q c cs _ _ ih => exact ih.consFirst c
  | case5 => exact isCutFrom_single _
  | case6 d c cs _ _ ih => exact ih.consFirst c
  | case7 d c cs _ _ hcut ih =>
    rw [hcut.1]
    exact ih.cut
  | case8 d c cs _ _ _ ih => exact ih.consFirst c

theorem exists_of_mem_pieces {text p : List Char} (hp : p ∈ pieces 0 none text) :
    ∃ above below, text = above ++ (p ++ below) ∧ EndsOutsideWord above := by
  obtain ⟨hfirst, hmore⟩ := pieces_isCutFrom 0 none text
  obtain ⟨q, ps, hps⟩ := List.exists_cons_of_ne_nil (pieces_ne_nil 0 none text)
  rw [hps] at hp hfirst hmore
  rcases List.mem_cons.mp hp with rfl | hp
  · obtain ⟨below, hb⟩ := hfirst p rfl
    exact ⟨[], below, hb.symm, fun c hc => nomatch hc⟩
  · obtain ⟨before, below, hb⟩ := hmore p hp
    exact ⟨before ++ [';'], below, by rw [← hb]; simp, endsOutsideWord_sign before (by decide)⟩

/-- **What the statements of a text declare, it declares.** -/
theorem declares_of_mem_fieldsOf {line : Nat} {f : Field} {text : List Char}
    (h : f ∈ (fieldsOf line (statements text)).1) : Declares text f.name := by
  rw [fieldsOf_eq] at h
  obtain ⟨s, hs, hf⟩ := List.mem_filterMap.mp h
  obtain ⟨p, hp, rfl⟩ := List.mem_map.mp (List.mem_filter.mp hs).1
  obtain ⟨above, below, rfl, ha⟩ := exists_of_mem_pieces hp
  exact (declares_of_ofStatement? hf).of_trim.within ha below

/-! ## The statements of a header -/

/-- The fields of a header are those of its line, and declared in its text. -/
theorem declares_of_mem_ofHeader {line : Nat} {text : List Char} {f : Field}
    (h : f ∈ (Body.ofHeader line text).fields) : f.line = line ∧ Declares text f.name := by
  unfold Body.ofHeader at h
  split at h
  · exact nomatch h
  next header hread =>
  refine ⟨(line_of_mem_fieldsOf h).1, ?_⟩
  obtain ⟨before, inline, rfl, hinline, -⟩ := exists_colon hread
  have hdeclares := declares_of_mem_fieldsOf h
  rw [hinline] at hdeclares
  have hcolon : isSign ':' = true := by decide
  have hwithin := hdeclares.of_trim.within (endsOutsideWord_sign before hcolon) []
  rwa [List.append_nil, List.append_assoc] at hwithin

/-! ## Where a field stands -/

/-- The header that starts on a line goes on below it, and the equals sign of a declaration behind
its colon stands there. -/
def DeclaredBelow (ls : List (List Char)) (start : Nat) (name : String) : Prop :=
  ∃ line text next before blanks, LineAt ls start line ∧
    collectHeader ls (start - 1) = some (text, next) ∧ start < next ∧
      DeclaresAt before blanks text name ∧ EndsOutsideWord before ∧
        (trim (withoutComment line)).length ≤ (before ++ (name.toList ++ blanks.text)).length

/-- The field of a class is declared on its line, or below the first line of the class header. -/
def Field.StandsIn (ls : List (List Char)) (start : Nat) (f : Field) : Prop :=
  (∃ line, LineAt ls f.line line ∧ Declares line f.name) ∨
    f.line = start ∧ DeclaredBelow ls start f.name

/-- The fields of what is under way below line `n` are declared where they are said to be. A header
under way is the one that is collected from its line on. -/
def Phase.IsDeclared (ls : List (List Char)) (n : Nat) : Phase → Prop
  | outside _ => True
  | inHeader start text => start ≤ n ∧ text.collect n (ls.drop n) = collectHeader ls (start - 1)
  | inBody b => ∀ f ∈ b.fields, f.StandsIn ls b.line

theorem Declares.of_withoutComment {line : List Char} {name : String}
    (h : Declares (trim (withoutComment line)) name) : Declares line name := by
  obtain ⟨before, blanks, ⟨after, hline⟩, hb⟩ := h.of_trim
  refine ⟨before, blanks, ⟨after ++ line.dropWhile (· != '#'), ?_⟩, hb⟩
  calc line = withoutComment line ++ line.dropWhile (· != '#') :=
        List.takeWhile_append_dropWhile.symm
    _ = before ++ (name.toList ++ (blanks.text ++ '=' :: (after ++ line.dropWhile (· != '#')))) := by
      rw [hline]
      simp only [List.append_assoc, List.cons_append]

/-- A declaration in a text stands at its start, or its equals sign does not. -/
theorem Declares.cases_append {first more : List Char} {name : String}
    (h : Declares (first ++ more) name) : Declares first name ∨ ∃ before blanks,
      DeclaresAt before blanks (first ++ more) name ∧ EndsOutsideWord before ∧
        first.length ≤ (before ++ (name.toList ++ blanks.text)).length := by
  obtain ⟨before, blanks, ⟨after, heq⟩, hb⟩ := h
  by_cases hlength : first.length ≤ (before ++ (name.toList ++ blanks.text)).length
  · exact Or.inr ⟨before, blanks, ⟨after, heq⟩, hb, hlength⟩
  · left
    have hassoc : first ++ more = (before ++ (name.toList ++ blanks.text)) ++ '=' :: after := by
      rw [heq]
      simp
    rcases List.append_eq_append_iff.mp hassoc with ⟨w, hw, -⟩ | ⟨w, hw, hsign⟩
    · rw [hw, List.length_append] at hlength
      omega
    · cases w with
      | nil =>
        rw [hw, List.append_nil] at hlength
        omega
      | cons c w =>
        obtain rfl := (List.cons.inj hsign).1
        exact ⟨before, blanks, ⟨w, by rw [hw]; simp⟩, hb⟩

section Steps

variable {ls : List (List Char)} {n : Nat} {line : List Char}

theorem drop_of_getElem? (hline : ls[n]? = some line) : ls.drop n = line :: ls.drop (n + 1) := by
  obtain ⟨hn, rfl⟩ := List.getElem?_eq_some_iff.mp hline
  exact List.drop_eq_getElem_cons hn

theorem Carry.next_isDeclared (c : Carry) (hline : ls[n]? = some line) :
    (c.next (n + 1) line).IsDeclared ls (n + 1) := by
  unfold Carry.next
  split
  · trivial
  unfold HeaderText.next
  split
  · intro f hf
    obtain ⟨hnumber, hdeclares⟩ := declares_of_mem_ofHeader hf
    exact Or.inl ⟨line, hnumber ▸ lineAt_of_getElem? hline, hdeclares.of_withoutComment⟩
  · next hopen =>
    refine ⟨le_rfl, ?_⟩
    rw [collectHeader, Nat.add_sub_cancel, drop_of_getElem? hline, HeaderText.collect, if_neg hopen]

theorem HeaderText.next_isDeclared {h : HeaderText} {start : Nat}
    (hcollect : start ≤ n ∧ h.collect n (ls.drop n) = collectHeader ls (start - 1))
    (hnamed : (Phase.inHeader start h).IsNamed ls) (hline : ls[n]? = some line) :
    (h.next start line).IsDeclared ls (n + 1) := by
  obtain ⟨hstart, hcollect⟩ := hcollect
  obtain ⟨first, hfirst, hclass, hs, hbracket⟩ := hnamed
  rw [drop_of_getElem? hline, HeaderText.collect] at hcollect
  unfold HeaderText.next
  split
  · next hcomplete =>
    rw [if_pos hcomplete] at hcollect
    intro f hf
    obtain ⟨hnumber, hdeclares⟩ := declares_of_mem_ofHeader hf
    obtain ⟨tail, htail, -⟩ := hs.add hclass hbracket line
    rw [htail] at hdeclares
    rw [Field.StandsIn, Body.line_ofHeader, hnumber]
    rcases hdeclares.cases_append with hdeclares | ⟨before, blanks, hbelow⟩
    · exact Or.inl ⟨first, hfirst, hdeclares.of_withoutComment⟩
    · rw [← htail] at hbelow
      exact Or.inr ⟨rfl, first, _, n + 1, before, blanks, hfirst, hcollect.symm, by omega, hbelow⟩
  · next hopen =>
    rw [if_neg hopen] at hcollect
    exact ⟨Nat.le_succ_of_le hstart, hcollect⟩

theorem Body.next_isDeclared {b : Body} (h : ∀ f ∈ b.fields, f.StandsIn ls b.line)
    (hline : ls[n]? = some line) :
    ∀ f ∈ (b.next (n + 1) line).fields, f.StandsIn ls (b.next (n + 1) line).line := by
  rw [Body.line_next]
  unfold Body.next
  split
  · exact h
  split
  · exact h
  refine List.forall_mem_append.mpr ⟨h, fun f hf => ?_⟩
  have hnumber := (Body.line_of_mem_statementLine hf).1
  unfold Body.statementLine at hf
  split at hf
  · have hwithin := (declares_of_mem_fieldsOf hf).within (Blanks.endsOutsideWord (blanksOf line)) []
    rw [List.append_nil, blanksOf_append_trimStart] at hwithin
    exact Or.inl ⟨line, hnumber ▸ lineAt_of_getElem? hline, hwithin⟩
  · exact nomatch hf

/-- **One more line** keeps the fields where they are declared. -/
theorem Phase.IsDeclared.next {p : Phase} (h : p.IsDeclared ls n) (hnamed : p.IsNamed ls)
    (hline : ls[n]? = some line) : (p.next (n + 1) line).IsDeclared ls (n + 1) := by
  cases p with
  | outside carry => exact carry.next_isDeclared hline
  | inHeader start text => exact HeaderText.next_isDeclared h hnamed hline
  | inBody b =>
    rw [next_inBody]
    split
    · exact Carry.next_isDeclared {} hline
    · exact Body.next_isDeclared h hline

end Steps

/-! ## The statements of fields -/

/-- The field is what a statement declares on its line. -/
def Field.IsRead (f : Field) : Prop := ∃ s, Field.ofStatement? s f.line = some f

theorem Field.IsRead.isIdentifier {f : Field} (h : f.IsRead) :
    isIdentifier f.name.toList = true ∧ isIdentifier f.fieldType.toList = true := by
  obtain ⟨s, hs⟩ := h
  exact isIdentifier_of_ofStatement? hs

theorem isRead_of_mem_fieldsOf {line : Nat} {f : Field} {ss : List (List Char)}
    (h : f ∈ (fieldsOf line ss).1) : f.IsRead := by
  have hline := (line_of_mem_fieldsOf h).1
  rw [fieldsOf_eq] at h
  obtain ⟨s, -, hs⟩ := List.mem_filterMap.mp h
  exact ⟨s, hline ▸ hs⟩

/-- The fields of what is under way are read off statements. -/
def Phase.IsRead : Phase → Prop
  | inBody b => ∀ f ∈ b.fields, f.IsRead
  | _ => True

theorem HeaderText.next_isRead (h : HeaderText) (start : Nat) (line : List Char) :
    (h.next start line).IsRead := by
  unfold HeaderText.next
  split
  · intro f hf
    unfold Body.ofHeader at hf
    split at hf
    · exact nomatch hf
    · exact isRead_of_mem_fieldsOf hf
  · trivial

theorem Carry.next_isRead (c : Carry) (n : Nat) (line : List Char) : (c.next n line).IsRead := by
  unfold Carry.next
  split
  · trivial
  · exact HeaderText.next_isRead {} n line

theorem Body.next_isRead {b : Body} (h : ∀ f ∈ b.fields, f.IsRead) (n : Nat) (line : List Char) :
    ∀ f ∈ (b.next n line).fields, f.IsRead := by
  unfold Body.next
  split
  · exact h
  split
  · exact h
  refine List.forall_mem_append.mpr ⟨h, fun f hf => ?_⟩
  unfold Body.statementLine at hf
  split at hf
  · exact isRead_of_mem_fieldsOf hf
  · exact nomatch hf

theorem Phase.IsRead.next {p : Phase} (h : p.IsRead) (n : Nat) (line : List Char) :
    (p.next n line).IsRead := by
  cases p with
  | outside carry => exact carry.next_isRead n line
  | inHeader start text => exact text.next_isRead start line
  | inBody b =>
    rw [next_inBody]
    split
    · exact Carry.next_isRead {} n line
    · exact Body.next_isRead h n line

/-! ## The fields of a file -/

section Fields

variable {file : Path} {markers : List String} {content : String} {m : Models}

theorem exists_class_of_mem_models (h : (readModels file markers content).1 = .ok m) {x : Model}
    (hx : x ∈ m.models) : ∃ b ∈ classesOf content, x.line = b.line ∧ x.fields = b.fields := by
  obtain rfl := eq_select_of_readModels h
  obtain ⟨above, b, below, hbs, hb, -⟩ := (mem_models_select file markers).mp hx
  obtain ⟨hline, hfields, -⟩ := model?_eq_some hb
  exact ⟨b, hbs ▸ List.mem_append_right _ List.mem_cons_self, hline, hfields⟩

theorem isRead_of_readModels (h : (readModels file markers content).1 = .ok m) :
    ∀ x ∈ m.models, ∀ f ∈ x.fields, f.IsRead := by
  intro x hx
  obtain ⟨b, hb, -, hfields⟩ := exists_class_of_mem_models h hx
  have hstart : Phase.IsRead (.outside {}) := trivial
  obtain ⟨-, hread⟩ :=
    Phase.classes_induct (I := fun _ p => p.IsRead) (fun h _ => h.next _ _) hstart rfl b hb
  rw [hfields]
  exact hread

end Fields

theorem classesOf_isDeclared (content : String) : ∀ b ∈ classesOf content,
    ∀ f ∈ b.fields, f.StandsIn (lines content.toList) b.line := by
  intro b hb
  let I : Nat → Phase → Prop := fun n p =>
    p.IsNamed (lines content.toList) ∧ p.IsDeclared (lines content.toList) n
  have hnext : ∀ {n : Nat} {p : Phase} {line : List Char}, I n p →
      (lines content.toList)[n]? = some line → I (n + 1) (p.next (n + 1) line) :=
    fun h hline => ⟨h.1.next (lineAt_of_getElem? hline), h.2.next h.1 hline⟩
  have hstart : I 0 (.outside {}) := ⟨trivial, trivial⟩
  obtain ⟨k, -, hdeclared⟩ := Phase.classes_induct (I := I) hnext hstart rfl b hb
  exact hdeclared

/-- **Every field of a file is declared on its line**, or below the first line of the header of its
class. -/
theorem readModels_fieldLines (file : Path) (markers : List String) {content : String} {m : Models}
    (h : (readModels file markers content).1 = .ok m) :
    ∀ x ∈ m.models, ∀ f ∈ x.fields, f.StandsIn (lines content.toList) x.line := by
  intro x hx
  obtain ⟨b, hb, hline, hfields⟩ := exists_class_of_mem_models h hx
  rw [hline, hfields]
  exact classesOf_isDeclared content b hb

/-- A call that goes on below the header line, and two statements on a line of a body. -/
theorem readModels_fieldLines_continued :
    let content := "class A(Model): x = F(\n 1)\nclass B(Model):\n  y = G(); z = H()\n"
    let m : Models := ⟨[⟨"A", [⟨"x", "F", true, 1⟩], ⟨["m.py"]⟩, 1⟩,
      ⟨"B", [⟨"y", "G", true, 4⟩, ⟨"z", "H", true, 4⟩], ⟨["m.py"]⟩, 3⟩], 0⟩
    (readModels ⟨["m.py"]⟩ ["Model"] content).1 = .ok m ∧
      ∀ x ∈ m.models, ∀ f ∈ x.fields, f.StandsIn (lines content.toList) x.line := by
  intro content m
  have hread : (readModels ⟨["m.py"]⟩ ["Model"] content).1 = .ok m := by decide +kernel
  exact ⟨hread, readModels_fieldLines ⟨["m.py"]⟩ ["Model"] hread⟩

/-- **A field on the last line of a header** counts as one of the first, where its name does not
stand. -/
theorem not_readModels_fieldLines : ¬ ∀ (file : Path) (markers : List String) (content : String)
    (m : Models), (readModels file markers content).1 = .ok m → ∀ x ∈ m.models, ∀ f ∈ x.fields,
      ∃ line, LineAt (lines content.toList) f.line line ∧
        ∃ before blanks, DeclaresAt before blanks line f.name := by
  intro h
  have hread : (readModels ⟨["m.py"]⟩ ["Model"] "class A(\n Model): x = F()\n").1 =
      .ok ⟨[⟨"A", [⟨"x", "F", true, 1⟩], ⟨["m.py"]⟩, 1⟩], 0⟩ := by decide +kernel
  obtain ⟨line, ⟨-, hline⟩, before, blanks, after, rfl⟩ :=
    h _ _ _ _ hread _ (List.mem_singleton_self _) _ (List.mem_singleton_self _)
  have hsign : '=' ∈ "class A(".toList := by
    rw [show lines "class A(\n Model): x = F()\n".toList =
      ["class A(".toList, " Model): x = F()".toList] by decide +kernel] at hline
    rw [Option.some.inj hline]
    simp
  exact absurd hsign (by decide +kernel)

end ModelTypings.Source
