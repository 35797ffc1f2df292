import ModelTypings.Proofs.Source.ClassLine
import ModelTypings.Proofs.Source.LineEnd
import ModelTypings.Proofs.Source.Respacing

/-!
# Statements behind the colon of a header

A header is read up to its colon. What stands behind it are statements, however long the header goes
on, and blanks between two parts of a statement may have any width.

* `exists_colon`: a header goes on behind its colon in any way;
* `Continues`: the statements so far, blanks and what follows;
* `ofText?_append`: a header that goes on behind statements;
* `SameHeader`: two headers that differ in blanks of their statements only;
* **`SameHeader.ofText?`**: they declare the same class and the same fields.
-/

namespace ModelTypings.Source

open Text

/-! ## The colon -/

theorem eq_append_of_cutAtClosing {n : Nat} {s inside rest : List Char}
    (h : cutAtClosing n s = some (inside, rest)) : s = inside ++ ')' :: rest := by
  induction s generalizing n inside with
  | nil => exact nomatch h
  | cons c cs ih =>
    rw [cutAtClosing] at h
    split at h
    · next hc =>
      obtain ⟨rfl, rfl⟩ := Prod.mk.inj (Option.some.inj h)
      rw [hc.1]
      rfl
    · obtain ⟨⟨inside', rest'⟩, hcut, hpair⟩ := Option.map_eq_some_iff.mp h
      obtain ⟨rfl, rfl⟩ := Prod.mk.inj hpair
      exact congrArg (c :: ·) (ih hcut)

theorem cutAtClosing_append {n : Nat} {inside rest : List Char}
    (h : cutAtClosing n (inside ++ ')' :: rest) = some (inside, rest)) (rest' : List Char) :
    cutAtClosing n (inside ++ ')' :: rest') = some (inside, rest') := by
  induction inside generalizing n with
  | nil =>
    by_cases hn : n = 0
    · rw [List.nil_append, cutAtClosing, if_pos ⟨rfl, hn⟩]
    · rw [List.nil_append, cutAtClosing_cons fun hc => hn hc.2] at h
      obtain ⟨p, -, hp⟩ := Option.map_eq_some_iff.mp h
      exact absurd (Prod.mk.inj hp).1 (List.cons_ne_nil _ _)
  | cons c inside ih =>
    by_cases hc : c = ')' ∧ n = 0
    · rw [List.cons_append, cutAtClosing, if_pos hc] at h
      exact absurd (Prod.mk.inj (Option.some.inj h)).1.symm (List.cons_ne_nil _ _)
    · rw [List.cons_append, cutAtClosing_cons hc] at h ⊢
      obtain ⟨⟨u, v⟩, hcut, hp⟩ := Option.map_eq_some_iff.mp h
      obtain ⟨hu, rfl⟩ := Prod.mk.inj hp
      obtain rfl := (List.cons.inj hu).2
      rw [ih hcut]
      rfl

theorem eq_append_of_afterClass {s rest : List Char} (h : afterClass s = some rest) :
    s = classWord ++ rest := by
  unfold afterClass at h
  split at h
  · cases h
    rfl
  · exact nomatch h

theorem head?_append_cons (a : List Char) (c : Char) (s t : List Char) :
    (a ++ c :: s).head? = (a ++ c :: t).head? := by
  cases a <;> rfl

theorem exists_colon_of_trimStart {s before inline : List Char}
    (h : trimStart s = before ++ ':' :: inline) :
    ∃ before', s = before' ++ ':' :: inline ∧
      ∀ t, trimStart (before' ++ ':' :: t) = before ++ ':' :: t := by
  have hs := blanksOf_append_trimStart s
  rw [h] at hs
  refine ⟨(blanksOf s).text ++ before, by rw [List.append_assoc, hs], fun t => ?_⟩
  rw [List.append_assoc, (blanksOf s).trimStart_append]
  rw [head?_append_cons before ':' t inline, ← h]
  exact head?_dropWhile_eq_false

theorem exists_colon_of_takeName {s name before inline : List Char}
    (h : takeName s = some (name, before ++ ':' :: inline)) :
    ∃ before', s = before' ++ ':' :: inline ∧
      ∀ t, takeName (before' ++ ':' :: t) = some (name, before ++ ':' :: t) := by
  obtain ⟨rfl, hname, hboundary⟩ := takeName_eq_some_iff.mp h
  refine ⟨name ++ before, by rw [List.append_assoc], fun t => ?_⟩
  rw [List.append_assoc]
  refine takeName_eq_some_iff.mpr ⟨rfl, hname, ?_⟩
  rw [head?_append_cons before ':' t inline]
  exact hboundary

theorem exists_colon_of_argumentsOf {s arguments rest inline : List Char}
    (h : argumentsOf s = some (arguments, rest)) (hrest : trimStart rest = ':' :: inline) :
    ∃ before, s = before ++ ':' :: inline ∧ ∀ t, ∃ rest',
      argumentsOf (before ++ ':' :: t) = some (arguments, rest') ∧ trimStart rest' = ':' :: t := by
  have hrest : trimStart rest = [] ++ ':' :: inline := hrest
  obtain ⟨w, rfl, hcolon⟩ := exists_colon_of_trimStart hrest
  unfold argumentsOf at h
  split at h
  · next cs =>
    obtain rfl := eq_append_of_cutAtClosing h
    refine ⟨'(' :: (arguments ++ ')' :: w), by simp, fun t => ⟨_, ?_, hcolon t⟩⟩
    rw [List.cons_append, List.append_assoc, List.cons_append, argumentsOf, cutAtClosing_append h]
  · next hopen =>
    obtain ⟨rfl, rfl⟩ := Prod.mk.inj (Option.some.inj h)
    refine ⟨w, rfl, fun t => ⟨_, ?_, hcolon t⟩⟩
    rw [argumentsOf]
    rintro cs hcs
    have hhead : (w ++ ':' :: inline).head? = some '(' := by
      rw [head?_append_cons w ':' inline t, hcs]
      rfl
    obtain ⟨u, hu⟩ := List.head?_eq_some_iff.mp hhead
    exact hopen u hu

/-- **A header goes on behind its colon in any way.** -/
theorem exists_colon {text : List Char} {x : ClassHeader} (h : ClassHeader.ofText? text = some x) :
    ∃ before inline, text = before ++ ':' :: inline ∧ x.inlineBody = trim inline ∧
      ∀ t, ClassHeader.ofText? (before ++ ':' :: t) = some { x with inlineBody := trim t } := by
  unfold ClassHeader.ofText? at h
  simp only [Option.bind_eq_bind, Option.bind_eq_some_iff] at h
  obtain ⟨after, hafter, h⟩ := h
  by_cases hblank : after.head?.any isBlank = true
  · rw [if_pos hblank] at h
    simp only [Option.bind_some, Option.bind_eq_some_iff] at h
    obtain ⟨⟨name, rest⟩, hname, ⟨arguments, tail⟩, harguments, htail⟩ := h
    split at htail
    · next inline hcolon =>
      cases htail
      obtain rfl := eq_append_of_afterClass hafter
      -- part by part, what is read before the colon is read however the header goes on
      obtain ⟨u, hu, hargumentsAny⟩ := exists_colon_of_argumentsOf harguments hcolon
      obtain ⟨v, rfl, hrestAny⟩ := exists_colon_of_trimStart hu
      obtain ⟨w, hw, hnameAny⟩ := exists_colon_of_takeName hname
      obtain ⟨before, rfl, hafterAny⟩ := exists_colon_of_trimStart hw
      refine ⟨classWord ++ before, inline, by rw [List.append_assoc], rfl, fun t => ?_⟩
      have hblankAny : (before ++ ':' :: t).head?.any isBlank = true := by
        rw [head?_append_cons before ':' t inline, hblank]
      obtain ⟨rest', hargumentsAny, hcolonAny⟩ := hargumentsAny t
      simp only [List.append_assoc, ClassHeader.ofText?, afterClass_append, Option.bind_eq_bind,
        Option.bind_some, hblankAny, if_true, hafterAny, hnameAny, hrestAny, hargumentsAny,
        hcolonAny]
    · cases htail
  · rw [if_neg hblank] at h
    cases h

/-! ## Statements that go on -/

/-- The text `s` is `u`, blanks and `t`, or `u` alone if `t` is empty. -/
inductive Continues (u t : List Char) : List Char → Prop
  | ends (h : t = []) : Continues u t u
  | blanks {w : List Char} (hne : w ≠ []) (hw : ∀ c ∈ w, isBlank c = true) :
      Continues u t (u ++ (w ++ t))

namespace Continues

variable {u t r s : List Char}

theorem exists_append (h : Continues u t s) : ∃ more, s = u ++ more := by
  cases h with
  | ends h => exact ⟨[], (List.append_nil u).symm⟩
  | blanks hne hw => exact ⟨_, rfl⟩

theorem feed_eq (h : Continues u t s) {d : Int} (hu : ScansTo .code 0 u d) :
    Carry.feed {} s = Carry.ofScan (scan .code d t) := by
  rw [Carry.feed_eq]
  refine congrArg Carry.ofScan ?_
  cases h with
  | ends h =>
    subst h
    have hnil := hu [] fun c hc => nomatch hc
    rwa [List.append_nil] at hnil
  | @blanks w hne hw =>
    obtain ⟨c, cs, rfl⟩ := List.exists_cons_of_ne_nil hne
    refine (hu _ fun a ha => ?_).trans (scan_code_blanks hw d t)
    obtain rfl := Option.some.inj ha
    exact hw c List.mem_cons_self

theorem fieldsOf_congr (hr : Continues u t r) (hs : Continues u t s) (n : Nat) :
    (fieldsOf n (statements r)).1 = (fieldsOf n (statements s)).1 := by
  cases hr with
  | ends ht =>
    subst ht
    cases hs with
    | ends => rfl
    | blanks hne hw => rw [List.append_nil, statements_append_blanks hw]
  | @blanks v hv hvb =>
    cases hs with
    | ends ht =>
      subst ht
      rw [List.append_nil, statements_append_blanks hvb]
    | @blanks w hw hwb =>
      exact ((Respaced.of_blanks hv hw hvb hwb t).append_left u).fieldsOf_congr n

end Continues

/-- A blank stands between two texts, or the second is empty. -/
def StandsApart (s t : List Char) : Prop :=
  t = [] ∨ (∃ c ∈ t.head?, isBlank c = true) ∨ ∃ c ∈ s.getLast?, isBlank c = true

theorem StandsApart.append {s t : List Char} (h : StandsApart s t) {u : List Char}
    (hu : ∃ c ∈ u.head?, isBlank c = true) : StandsApart s (t ++ u) := by
  rcases h with rfl | ⟨c, hc, hblank⟩ | hs
  · exact .inr (.inl hu)
  · refine .inr (.inl ⟨c, ?_, hblank⟩)
    cases t with
    | nil => exact nomatch hc
    | cons d t => exact hc
  · exact .inr (.inr hs)

/-- **A header that goes on behind statements**: blanks and more of them. -/
theorem ofText?_append {text : List Char} {x : ClassHeader} (h : ClassHeader.ofText? text = some x)
    (hx : x.inlineBody ≠ []) {t : List Char} (ht : StandsApart text t) :
    ∃ y, ClassHeader.ofText? (text ++ t) = some y ∧ y.name = x.name ∧ y.bases = x.bases ∧
      Continues x.inlineBody (trim t) y.inlineBody := by
  obtain ⟨before, inline, rfl, hinline, hany⟩ := exists_colon h
  refine ⟨{ x with inlineBody := trim (inline ++ t) }, ?_, rfl, rfl, ?_⟩
  · rw [List.append_assoc, List.cons_append, hany]
  dsimp only
  rw [hinline] at hx ⊢
  by_cases hblank : trim t = []
  · rw [trim_append_blanks (trim_eq_nil_iff.mp hblank)]
    exact .ends hblank
  obtain ⟨v, htrim, hv, hmeet⟩ := exists_trim_append inline t
  rw [htrim]
  refine .blanks (fun hnil => ?_) hv
  -- without blanks between them the header and the text meet where none of them is blank
  obtain ⟨hlast, hhead⟩ := (hmeet hnil).resolve_left hx |>.resolve_left hblank
  rcases ht with rfl | ⟨c, hc, hcb⟩ | ⟨c, hc, hcb⟩
  · exact hblank rfl
  · rw [hhead] at hc
    exact Bool.noConfusion (hcb.symm.trans (head?_trim t c hc))
  · have hne : inline ≠ [] := by
      rintro rfl
      exact hx rfl
    rw [List.getLast?_append_of_ne_nil _ (List.cons_ne_nil _ _), ← List.singleton_append,
      List.getLast?_append_of_ne_nil _ hne, hlast] at hc
    exact Bool.noConfusion (hcb.symm.trans (getLast?_trim inline c hc))

/-! ## Headers that differ in blanks -/

/-- Two texts of a header are the same, but perhaps for blanks in the code behind its colon. -/
inductive SameHeader : List Char → List Char → Prop
  | refl (text : List Char) : SameHeader text text
  | suite {text v w rest : List Char} {x : ClassHeader} {d : Int}
      (h : ClassHeader.ofText? text = some x) (hx : x.inlineBody ≠ [])
      (hd : ScansTo .code 0 x.inlineBody d) (hv : ∀ c ∈ v, isBlank c = true)
      (hw : ∀ c ∈ w, isBlank c = true) (hva : StandsApart text (v ++ rest))
      (hwa : StandsApart text (w ++ rest)) : SameHeader (text ++ (v ++ rest)) (text ++ (w ++ rest))

/-- Two headers declare the same class, and statements behind the colon that say the same. -/
structure ClassHeader.Alike (x y : ClassHeader) : Prop where
  name : x.name = y.name
  bases : x.bases = y.bases
  carry : Carry.feed {} x.inlineBody = Carry.feed {} y.inlineBody
  fields : ∀ n, (fieldsOf n (statements x.inlineBody)).1 = (fieldsOf n (statements y.inlineBody)).1

namespace SameHeader

variable {a b : List Char}

theorem ne_nil_of_ofText? {x : ClassHeader} (h : ClassHeader.ofText? a = some x) : a ≠ [] := by
  rintro rfl
  exact nomatch h

theorem isEmpty_eq (h : SameHeader a b) : a.isEmpty = b.isEmpty := by
  cases h with
  | refl => rfl
  | suite h =>
    obtain ⟨c, cs, rfl⟩ := List.exists_cons_of_ne_nil (ne_nil_of_ofText? h)
    rfl

theorem append (h : SameHeader a b) (line : List Char) :
    SameHeader (a ++ ' ' :: line) (b ++ ' ' :: line) := by
  cases h with
  | refl => exact .refl _
  | @suite text v w rest x d h hx hd hv hw hva hwa =>
    have hspace : ∃ c ∈ (' ' :: line).head?, isBlank c = true := ⟨' ', rfl, by decide⟩
    have happend : ∀ v, text ++ (v ++ rest) ++ ' ' :: line = text ++ (v ++ (rest ++ ' ' :: line)) :=
      fun v => by rw [List.append_assoc, List.append_assoc]
    have hapart : ∀ {v}, StandsApart text (v ++ rest) → StandsApart text (v ++ (rest ++ ' ' :: line)) :=
      fun h => by
        rw [← List.append_assoc]
        exact h.append hspace
    rw [happend, happend]
    exact .suite h hx hd hv hw (hapart hva) (hapart hwa)

/-- **Two headers that differ in blanks of their statements only** declare the same. -/
theorem ofText? (h : SameHeader a b) : ClassHeader.ofText? a = ClassHeader.ofText? b ∨
    ∃ x y, ClassHeader.ofText? a = some x ∧ ClassHeader.ofText? b = some y ∧ x.Alike y := by
  cases h with
  | refl => exact .inl rfl
  | @suite text v w rest x d h hx hd hv hw hva hwa =>
    obtain ⟨y, hy, hname, hbases, hcontinues⟩ := ofText?_append h hx hva
    obtain ⟨z, hz, hname', hbases', hcontinues'⟩ := ofText?_append h hx hwa
    have htrim : ∀ v, (∀ c ∈ v, isBlank c = true) → trim (v ++ rest) = trim rest := fun v hv => by
      rw [trim, trimStart_blanks_append hv, trim]
    rw [htrim v hv] at hcontinues
    rw [htrim w hw] at hcontinues'
    exact .inr ⟨y, z, hy, hz, hname.trans hname'.symm, hbases.trans hbases'.symm,
      (hcontinues.feed_eq hd).trans (hcontinues'.feed_eq hd).symm,
      hcontinues.fieldsOf_congr hcontinues'⟩

end SameHeader

end ModelTypings.Source
