import ModelTypings.Proofs.Source.Field
import ModelTypings.Proofs.Text.Identifier

/-!
# The grammar of field statements

A field statement is a name, an equals sign and the call of a name that any number of qualifiers
stand before. Blanks may stand around the signs. A text has at most one such decomposition, and the
reader finds it.

* `Qualifier`, `Call`, `Declaration`: a field statement in its parts;
* `Call.text_injective`, `Declaration.text_injective`: a text has no second decomposition;
* `constructorName_eq_some_iff`: the reader of calls, by induction on the qualifiers;
* `isIdentifier_of_ofStatement?`: the name and the type of a declared field;
* **`ofStatement?_grammar`**: the statements that declare a field, and what they declare.
-/

namespace ModelTypings.Source

open Text

/-! ## Statements in their parts -/

/-- A name with the dot behind it. -/
@[ext]
structure Qualifier where
  name : Identifier
  beforeDot : Blanks
  afterDot : Blanks

/-- The qualifier as it stands before a call. -/
def Qualifier.text (q : Qualifier) : List Char :=
  q.name.text ++ (q.beforeDot.text ++ '.' :: q.afterDot.text)

/-- A call, up to its opening bracket, and whatever follows that. -/
@[ext]
structure Call where
  qualifiers : List Qualifier
  name : Identifier
  beforeBracket : Blanks
  rest : List Char

/-- The text of a call. -/
def Call.text (x : Call) : List Char :=
  x.qualifiers.flatMap Qualifier.text ++ (x.name.text ++ (x.beforeBracket.text ++ '(' :: x.rest))

/-- The declaration of a field by the call of its constructor. -/
@[ext]
structure Declaration where
  name : Identifier
  beforeSign : Blanks
  afterSign : Blanks
  call : Call

namespace Declaration

/-- The text of a declaration. -/
def text (d : Declaration) : List Char :=
  d.name.text ++ (d.beforeSign.text ++ '=' :: (d.afterSign.text ++ d.call.text))

/-- The field that a declaration on a line declares. -/
def field (d : Declaration) (line : Nat) : Field :=
  { name := String.ofList d.name.text, fieldType := String.ofList d.call.name.text, line }

/-- The declaration with something else behind the opening bracket. -/
def withRest (d : Declaration) (rest : List Char) : Declaration :=
  { d with call := { d.call with rest } }

end Declaration

/-! ## One decomposition -/

theorem isBlank_head_cons {c : Char} (hc : isBlank c = false) (s : List Char) :
    ∀ d ∈ (c :: s).head?, isBlank d = false := by
  intro d hd
  obtain rfl := Option.some.inj hd
  exact hc

theorem isWord_head_sign {c : Char} (hc : isWord c = false) (w : Blanks) (s : List Char) :
    ∀ d ∈ (w.text ++ c :: s).head?, isWord d = false := by
  refine w.isWord_head fun d hd => ?_
  obtain rfl := Option.some.inj hd
  exact hc

/-- **A name, blanks and a sign** are told apart in one way. -/
theorem name_sign_inj {n n' : Identifier} {w w' : Blanks} {c c' : Char} {s s' : List Char}
    (hc : isWord c = false ∧ isBlank c = false) (hc' : isWord c' = false ∧ isBlank c' = false)
    (h : n.text ++ (w.text ++ c :: s) = n'.text ++ (w'.text ++ c' :: s')) :
    n = n' ∧ w = w' ∧ c = c' ∧ s = s' := by
  obtain ⟨hname, hrest⟩ := append_inj_of_boundary n.isWord_of_mem (isWord_head_sign hc.1 w s)
    n'.isWord_of_mem (isWord_head_sign hc'.1 w' s') h
  obtain ⟨hblanks, hsign⟩ := append_inj_of_boundary w.valid (isBlank_head_cons hc.2 s) w'.valid
    (isBlank_head_cons hc'.2 s') hrest
  obtain ⟨hchar, htail⟩ := List.cons.inj hsign
  exact ⟨Identifier.ext hname, Blanks.ext hblanks, hchar, htail⟩

theorem sign_equals : isWord '=' = false ∧ isBlank '=' = false :=
  ⟨isWord_of_isSign (by decide), by decide⟩

theorem sign_dot : isWord '.' = false ∧ isBlank '.' = false :=
  ⟨isWord_of_isSign (by decide), by decide⟩

theorem sign_bracket : isWord '(' = false ∧ isBlank '(' = false :=
  ⟨isWord_of_isSign (by decide), by decide⟩

namespace Call

theorem text_cons (q : Qualifier) (qs : List Qualifier) (n : Identifier) (w : Blanks)
    (rest : List Char) : (Call.mk (q :: qs) n w rest).text =
      q.name.text ++ (q.beforeDot.text ++ '.' :: (q.afterDot.text ++ (Call.mk qs n w rest).text)) := by
  simp [text, Qualifier.text]

theorem text_nil (n : Identifier) (w : Blanks) (rest : List Char) :
    (Call.mk [] n w rest).text = n.text ++ (w.text ++ '(' :: rest) := rfl

theorem isBlank_head (x : Call) : ∀ c ∈ x.text.head?, isBlank c = false := by
  obtain ⟨qs, n, w, rest⟩ := x
  cases qs with
  | nil => exact n.isBlank_head _
  | cons q qs =>
    rw [text_cons]
    exact q.name.isBlank_head _

/-- **A call has one decomposition.** A dot goes on with the qualifiers, a bracket ends them. -/
theorem text_injective : Function.Injective text := by
  rintro ⟨qs, n, w, rest⟩ ⟨qs', n', w', rest'⟩ h
  induction qs generalizing qs' with
  | nil =>
    cases qs' with
    | nil =>
      obtain ⟨rfl, rfl, -, rfl⟩ := name_sign_inj sign_bracket sign_bracket h
      rfl
    | cons q' qs' =>
      rw [text_cons] at h
      exact absurd (name_sign_inj sign_bracket sign_dot h).2.2.1 (by decide)
  | cons q qs ih =>
    cases qs' with
    | nil =>
      rw [text_cons] at h
      exact absurd (name_sign_inj sign_dot sign_bracket h).2.2.1 (by decide)
    | cons q' qs' =>
      rw [text_cons, text_cons] at h
      obtain ⟨hname, hbefore, -, hmore⟩ := name_sign_inj sign_dot sign_dot h
      obtain ⟨hafter, hcall⟩ := append_inj_of_boundary q.afterDot.valid (isBlank_head _)
        q'.afterDot.valid (isBlank_head _) hmore
      have hq : q = q' := Qualifier.ext hname hbefore (Blanks.ext hafter)
      cases ih qs' hcall
      rw [hq]

end Call

/-- **A field statement has one decomposition.** -/
theorem Declaration.text_injective : Function.Injective Declaration.text := by
  intro d d' h
  obtain ⟨hname, hbefore, -, hmore⟩ := name_sign_inj sign_equals sign_equals h
  obtain ⟨hafter, hcall⟩ := append_inj_of_boundary d.afterSign.valid d.call.isBlank_head
    d'.afterSign.valid d'.call.isBlank_head hmore
  exact Declaration.ext hname hbefore (Blanks.ext hafter) (Call.text_injective hcall)

/-! ## The reader -/

theorem exists_of_takeName {s name rest : List Char} (h : takeName s = some (name, rest)) :
    ∃ n : Identifier, n.text = name ∧ s = n.text ++ ((blanksOf rest).text ++ trimStart rest) := by
  obtain ⟨hs, hname, -⟩ := takeName_eq_some_iff.mp h
  exact ⟨⟨name, hname⟩, rfl, by rw [blanksOf_append_trimStart, hs]⟩

theorem takeName_sign (n : Identifier) (w : Blanks) {c : Char} (hc : isWord c = false)
    (s : List Char) :
    takeName (n.text ++ (w.text ++ c :: s)) = some (n.text, w.text ++ c :: s) :=
  takeName_eq_some_iff.mpr ⟨rfl, n.valid, isWord_head_sign hc w s⟩

theorem constructorName_text (x : Call) : constructorName x.text = some x.name.text := by
  obtain ⟨qs, n, w, rest⟩ := x
  induction qs with
  | nil =>
    rw [Call.text_nil, constructorName_eq, takeName_sign n w sign_bracket.1, Option.bind_some,
      w.trimStart_append (isBlank_head_cons sign_bracket.2 rest)]
    rfl
  | cons q qs ih =>
    rw [Call.text_cons, constructorName_eq, takeName_sign _ _ sign_dot.1, Option.bind_some,
      q.beforeDot.trimStart_append (isBlank_head_cons sign_dot.2 _)]
    show constructorName (trimStart (q.afterDot.text ++ (Call.mk qs n w rest).text)) = some n.text
    rw [q.afterDot.trimStart_append (Call.isBlank_head _), ih]

/-- A text of which a constructor can be read is a call. -/
theorem exists_call_of_constructorName {s c : List Char} (h : constructorName s = some c) :
    ∃ x : Call, x.text = s ∧ x.name.text = c := by
  rw [constructorName_eq] at h
  obtain ⟨⟨name, rest⟩, hname, h⟩ := Option.bind_eq_some_iff.mp h
  obtain ⟨n, rfl, hs⟩ := exists_of_takeName hname
  dsimp only at h
  split at h
  · next more hdot =>
    have hlt : (trimStart more).length < s.length := by
      have h1 := length_lt_of_takeName hname
      have h2 := length_trimStart_le rest
      have h3 := length_trimStart_le more
      rw [hdot, List.length_cons] at h2
      omega
    obtain ⟨x, hx, hc⟩ := exists_call_of_constructorName h
    refine ⟨⟨⟨n, blanksOf rest, blanksOf more⟩ :: x.qualifiers, x.name, x.beforeBracket, x.rest⟩,
      ?_, hc⟩
    have hcall : (Call.mk x.qualifiers x.name x.beforeBracket x.rest).text = trimStart more := hx
    rw [Call.text_cons, hs, hdot, hcall, blanksOf_append_trimStart]
  · next after hopen =>
    refine ⟨⟨[], n, blanksOf rest, after⟩, ?_, Option.some.inj h⟩
    rw [Call.text_nil, hs, hopen]
  · exact nomatch h
termination_by s.length

/-- **The constructor of a text** is that of the call that the text is. -/
theorem constructorName_eq_some_iff {s c : List Char} :
    constructorName s = some c ↔ ∃ x : Call, x.text = s ∧ x.name.text = c := by
  refine ⟨exists_call_of_constructorName, ?_⟩
  rintro ⟨x, rfl, rfl⟩
  exact constructorName_text x

theorem ofStatement?_text (d : Declaration) (line : Nat) :
    Field.ofStatement? d.text line = some (d.field line) := by
  unfold Field.ofStatement? Declaration.text
  rw [takeName_sign d.name d.beforeSign sign_equals.1]
  dsimp only
  rw [d.beforeSign.trimStart_append (isBlank_head_cons sign_equals.2 _)]
  show (constructorName (trimStart (d.afterSign.text ++ d.call.text))).map _ = _
  rw [d.afterSign.trimStart_append d.call.isBlank_head, constructorName_text]
  rfl

theorem exists_declaration {s : List Char} {line : Nat} {f : Field}
    (h : Field.ofStatement? s line = some f) :
    ∃ d : Declaration, d.text = s ∧ d.field line = f := by
  unfold Field.ofStatement? at h
  split at h
  · exact nomatch h
  next name rest hname =>
  obtain ⟨n, rfl, hs⟩ := exists_of_takeName hname
  split at h
  · next value hsign =>
    obtain ⟨c, hc, rfl⟩ := Option.map_eq_some_iff.mp h
    obtain ⟨x, hx, rfl⟩ := constructorName_eq_some_iff.mp hc
    refine ⟨⟨n, blanksOf rest, blanksOf value, x⟩, ?_, rfl⟩
    rw [Declaration.text, hs, hsign, hx, blanksOf_append_trimStart]
  · exact nomatch h

theorem isIdentifier_of_ofStatement? {s : List Char} {line : Nat} {f : Field}
    (h : Field.ofStatement? s line = some f) :
    isIdentifier f.name.toList = true ∧ isIdentifier f.fieldType.toList = true := by
  obtain ⟨d, -, rfl⟩ := exists_declaration h
  rw [Declaration.field, String.toList_ofList, String.toList_ofList]
  exact ⟨d.name.valid, d.call.name.valid⟩

/-- **The statements that declare a field** are those of the grammar, and each has one decomposition.
What follows the bracket plays no part, and names and types are identifiers. -/
theorem ofStatement?_grammar (s : List Char) (line : Nat) :
    (∀ f, Field.ofStatement? s line = some f ↔
      ∃ d : Declaration, d.text = s ∧ d.field line = f) ∧
    (∀ d d' : Declaration, d.text = s → d'.text = s → d = d') ∧
    (∀ d : Declaration, d.text = s → ∀ rest,
      Field.ofStatement? (d.withRest rest).text line = Field.ofStatement? s line) ∧
    ∀ f, Field.ofStatement? s line = some f →
      isIdentifier f.name.toList = true ∧ isIdentifier f.fieldType.toList = true := by
  refine ⟨fun f => ⟨exists_declaration, ?_⟩, fun d d' h h' => ?_, ?_,
    fun f => isIdentifier_of_ofStatement?⟩
  · rintro ⟨d, rfl, rfl⟩
    exact ofStatement?_text d line
  · exact Declaration.text_injective (h.trans h'.symm)
  · rintro d rfl rest
    rw [ofStatement?_text, ofStatement?_text]
    rfl

end ModelTypings.Source
