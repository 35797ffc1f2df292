import Mathlib.Data.List.Forall2
import ModelTypings.Proofs.Source.FieldGrammar
import ModelTypings.Proofs.Source.Pieces

/-!
# Blanks of another width

Between two parts of a statement any row of blanks serves as well as another, as long as there is
one.

* `Respaced`: two texts that differ in the blanks of one row only;
* `Respaced.constructorName_congr`, `Respaced.ofStatement?_congr`: they declare the same field;
* `Respaced.forall₂_pieces`: the splitter cuts them at the same places;
* `fieldsOf_statements`: the fields of a line, piece by piece;
* `fieldCount`, `fieldsOf_append`: a line that goes on and declares no more fields;
* **`Respaced.fieldsOf_congr`**: their statements declare the same fields;
* `ScansTo`, `feed_break`: blanks and a line break in code.
-/

namespace ModelTypings.Source

open Text

/-- The same text, but for the blanks of one row. -/
inductive Respaced : List Char → List Char → Prop
  | nil : Respaced [] []
  | blanks {c d : Char} {s t : List Char} (hc : isBlank c = true) (hd : isBlank d = true)
      (h : trimStart s = trimStart t) : Respaced (c :: s) (d :: t)
  | cons (c : Char) {s t : List Char} (h : Respaced s t) : Respaced (c :: s) (c :: t)

namespace Respaced

theorem refl : ∀ s, Respaced s s
  | [] => .nil
  | c :: cs => .cons c (refl cs)

theorem append_left {s t : List Char} (h : Respaced s t) : ∀ u, Respaced (u ++ s) (u ++ t)
  | [] => h
  | c :: cs => .cons c (h.append_left cs)

theorem of_blanks {v w : List Char} (hv : v ≠ []) (hw : w ≠ []) (hvb : ∀ c ∈ v, isBlank c = true)
    (hwb : ∀ c ∈ w, isBlank c = true) (s : List Char) : Respaced (v ++ s) (w ++ s) := by
  obtain ⟨c, v, rfl⟩ := List.exists_cons_of_ne_nil hv
  obtain ⟨d, w, rfl⟩ := List.exists_cons_of_ne_nil hw
  obtain ⟨hc, hvb⟩ := List.forall_mem_cons.mp hvb
  obtain ⟨hd, hwb⟩ := List.forall_mem_cons.mp hwb
  exact .blanks hc hd ((trimStart_blanks_append hvb s).trans (trimStart_blanks_append hwb s).symm)

variable {s t : List Char}

/-! ## Names and constructors -/

protected theorem trimStart (h : Respaced s t) : Respaced (trimStart s) (trimStart t) := by
  induction h with
  | nil => exact .nil
  | @blanks c d s t hc hd h =>
    have hs : trimStart (c :: s) = trimStart s := List.dropWhile_cons_of_pos hc
    have ht : trimStart (d :: t) = trimStart t := List.dropWhile_cons_of_pos hd
    rw [hs, ht, h]
    exact refl _
  | @cons c s t h ih =>
    by_cases hc : isBlank c = true
    · have hstart : ∀ s, trimStart (c :: s) = trimStart s := fun _ => List.dropWhile_cons_of_pos hc
      rw [hstart, hstart]
      exact ih
    · have hstart : ∀ s, trimStart (c :: s) = c :: s := fun _ => List.dropWhile_cons_of_neg hc
      rw [hstart, hstart]
      exact .cons c h

theorem span_isWord (h : Respaced s t) : s.takeWhile isWord = t.takeWhile isWord ∧
    Respaced (s.dropWhile isWord) (t.dropWhile isWord) := by
  induction h with
  | nil => exact ⟨rfl, .nil⟩
  | @blanks c d s t hc hd h =>
    have hword : ∀ {c}, isBlank c = true → ¬ isWord c = true := fun hc => by
      simp [isWord_of_isBlank hc]
    rw [List.takeWhile_cons_of_neg (hword hc), List.takeWhile_cons_of_neg (hword hd),
      List.dropWhile_cons_of_neg (hword hc), List.dropWhile_cons_of_neg (hword hd)]
    exact ⟨rfl, .blanks hc hd h⟩
  | @cons c s t h ih =>
    by_cases hc : isWord c = true
    · rw [List.takeWhile_cons_of_pos hc, List.takeWhile_cons_of_pos hc, ih.1,
        List.dropWhile_cons_of_pos hc, List.dropWhile_cons_of_pos hc]
      exact ⟨rfl, ih.2⟩
    · rw [List.takeWhile_cons_of_neg hc, List.takeWhile_cons_of_neg hc,
        List.dropWhile_cons_of_neg hc, List.dropWhile_cons_of_neg hc]
      exact ⟨rfl, .cons c h⟩

theorem takeName_cases (h : Respaced s t) : (takeName s = none ∧ takeName t = none) ∨
    ∃ name u v, takeName s = some (name, u) ∧ takeName t = some (name, v) ∧ Respaced u v := by
  cases h with
  | nil => exact .inl ⟨rfl, rfl⟩
  | @blanks c d s t hc hd h =>
    have hname : ∀ {c s}, isBlank c = true → takeName (c :: s) = none := fun hc => by
      rw [takeName, if_neg]
      intro hstart
      exact Bool.noConfusion ((isWord_of_isBlank hc).symm.trans (isWord_of_isNameStart hstart))
    exact .inl ⟨hname hc, hname hd⟩
  | @cons c s t h =>
    obtain ⟨htake, hdrop⟩ := h.span_isWord
    rw [takeName, takeName, htake]
    split
    · exact .inr ⟨_, _, _, rfl, rfl, hdrop⟩
    · exact .inl ⟨rfl, rfl⟩

theorem trimStart_cases (h : Respaced s t) : (trimStart s = [] ∧ trimStart t = []) ∨
    ∃ c u v, trimStart s = c :: u ∧ trimStart t = c :: v ∧ Respaced u v := by
  have hstart := h.trimStart
  generalize hs : trimStart s = a at hstart
  generalize trimStart t = b at hstart
  cases hstart with
  | nil => exact .inl ⟨rfl, rfl⟩
  | @blanks c d u v hc hd h =>
    have hhead := List.head?_dropWhile_not isBlank s
    rw [show s.dropWhile isBlank = c :: u from hs] at hhead
    exact Bool.noConfusion (hc.symm.trans hhead)
  | @cons c u v h => exact .inr ⟨c, u, v, rfl, rfl, h⟩

theorem constructorName_congr (h : Respaced s t) : constructorName s = constructorName t := by
  induction hn : s.length using Nat.strong_induction_on generalizing s t with
  | _ n ih =>
  rw [constructorName_eq, constructorName_eq t]
  rcases h.takeName_cases with ⟨hs, ht⟩ | ⟨name, u, v, hs, ht, huv⟩
  · rw [hs, ht]
  rw [hs, ht, Option.bind_some, Option.bind_some]
  rcases huv.trimStart_cases with ⟨hu, hv⟩ | ⟨c, u', v', hu, hv, h'⟩
  · rw [hu, hv]
  rw [hu, hv]
  by_cases hdot : c = '.'
  · subst hdot
    have hlength : (trimStart u').length < n := by
      have h1 := length_lt_of_takeName hs
      have h2 := length_trimStart_le u
      have h3 := length_trimStart_le u'
      rw [hu, List.length_cons] at h2
      omega
    exact ih _ hlength h'.trimStart rfl
  by_cases hopen : c = '('
  · subst hopen
    rfl
  · simp [hdot, hopen]

theorem ofStatement?_congr (h : Respaced s t) (n : Nat) :
    Field.ofStatement? s n = Field.ofStatement? t n := by
  unfold Field.ofStatement?
  rcases h.takeName_cases with ⟨hs, ht⟩ | ⟨name, u, v, hs, ht, huv⟩
  · rw [hs, ht]
  rw [hs, ht]
  dsimp only
  rcases huv.trimStart_cases with ⟨hu, hv⟩ | ⟨c, u', v', hu, hv, h'⟩
  · rw [hu, hv]
  rw [hu, hv]
  by_cases hsign : c = '='
  · subst hsign
    exact congrArg (Option.map _) h'.trimStart.constructorName_congr
  · simp [hsign]

/-! ## Pieces -/

theorem pieces_blanks_append {w : List Char} (hw : ∀ c ∈ w, isBlank c = true) (d : Int)
    {q : Option Char} (hq : ∀ p ∈ q, isQuote p) (s : List Char) :
    pieces d q (w ++ s) = w.foldr consFirst (pieces d q s) := by
  induction w with
  | nil => rfl
  | cons c w ih =>
    obtain ⟨hc, hw⟩ := List.forall_mem_cons.mp hw
    rw [List.cons_append, List.foldr_cons, ← ih hw]
    cases q with
    | none =>
      have hcut : c = ';' → d ≠ 0 := fun e => absurd e (ne_of_isBlank (by decide) hc)
      rw [pieces_code d _ (ne_of_isBlank (by decide) hc) (isQuote_of_isBlank hc) hcut,
        nesting_of_isBlank hc, Int.add_zero]
    | some p =>
      have hcp : c ≠ p := by
        rintro rfl
        exact Bool.noConfusion ((isQuote_of_isBlank hc).symm.trans (hq c rfl))
      rw [pieces_string_cons d (ne_of_isBlank (by decide) hc), if_neg hcp]

theorem foldr_consFirst (w p : List Char) (ps : List (List Char)) :
    w.foldr consFirst (p :: ps) = (w ++ p) :: ps := by
  induction w with
  | nil => rfl
  | cons c w ih =>
    rw [List.foldr_cons, ih]
    rfl

theorem pieces_of_blanks {c d : Char} (hc : isBlank c = true) (hd : isBlank d = true)
    (h : trimStart s = trimStart t) (e : Int) {q : Option Char} (hq : ∀ p ∈ q, isQuote p) :
    List.Forall₂ Respaced (pieces e q (c :: s)) (pieces e q (d :: t)) := by
  have hfirst : ∀ {c s}, isBlank c = true → ∃ w, (∀ c ∈ w, isBlank c = true) ∧ w ≠ [] ∧
      pieces e q (c :: s) = w.foldr consFirst (pieces e q (trimStart s)) := by
    intro c s hc
    have hw : ∀ a ∈ c :: (blanksOf s).text, isBlank a = true :=
      List.forall_mem_cons.mpr ⟨hc, (blanksOf s).valid⟩
    refine ⟨_, hw, List.cons_ne_nil _ _, ?_⟩
    rw [← pieces_blanks_append hw e hq, List.cons_append, blanksOf_append_trimStart]
  obtain ⟨v, hvb, hv, hs⟩ := hfirst (s := s) hc
  obtain ⟨w, hwb, hw, ht⟩ := hfirst (s := t) hd
  obtain ⟨p, ps, hps⟩ := List.exists_cons_of_ne_nil (pieces_ne_nil e q (trimStart t))
  rw [hs, ht, h, hps, foldr_consFirst, foldr_consFirst]
  exact .cons (of_blanks hv hw hvb hwb p) (List.forall₂_same.mpr fun p _ => refl p)

theorem forall₂_consFirst {ps qs : List (List Char)} (h : List.Forall₂ Respaced ps qs) (c : Char) :
    List.Forall₂ Respaced (consFirst c ps) (consFirst c qs) := by
  cases h with
  | nil => exact .cons (refl _) .nil
  | cons hp hps => exact .cons (.cons c hp) hps

theorem pieces_escape (e : Int) (p c : Char) (cs : List Char) : pieces e (some p) ('\\' :: c :: cs) =
    consFirst '\\' (consFirst c (pieces e (some p) cs)) := by
  rw [pieces]

/-- **The pieces of a text** are the same but for the blanks of one row. -/
theorem forall₂_pieces (h : Respaced s t) (e : Int) {q : Option Char} (hq : ∀ p ∈ q, isQuote p) :
    List.Forall₂ Respaced (pieces e q s) (pieces e q t) := by
  induction hn : s.length using Nat.strong_induction_on generalizing s t e q with
  | _ n ih =>
  subst hn
  cases h with
  | nil => exact List.forall₂_same.mpr fun p _ => refl p
  | blanks hc hd h => exact pieces_of_blanks hc hd h e hq
  | @cons c s t h =>
  cases q with
  | none =>
    have hnone : ∀ p ∈ (none : Option Char), isQuote p = true := fun p hp => nomatch hp
    by_cases hc : c = '#'
    · rw [hc, pieces_comment, pieces_comment]
      exact .cons .nil .nil
    by_cases hquote : isQuote c = true
    · rw [pieces_quote e hquote, pieces_quote e hquote]
      exact forall₂_consFirst (ih _ (Nat.lt_succ_self _) h e (by simpa using hquote) rfl) c
    by_cases hcut : c = ';' ∧ e = 0
    · obtain ⟨rfl, rfl⟩ := hcut
      rw [pieces_cut, pieces_cut]
      exact .cons .nil (ih _ (Nat.lt_succ_self _) h 0 hnone rfl)
    · have hcode : ∀ s, pieces e none (c :: s) = _ := fun s =>
        pieces_code e s hc (by simpa using hquote) fun hc he => hcut ⟨hc, he⟩
      rw [hcode, hcode]
      exact forall₂_consFirst (ih _ (Nat.lt_succ_self _) h _ hnone rfl) c
  | some p =>
    by_cases hc : c = '\\'
    · subst hc
      cases h with
      | nil => exact List.forall₂_same.mpr fun p _ => refl p
      | @cons d s t h =>
        rw [pieces_escape, pieces_escape]
        have hlength : s.length < ('\\' :: d :: s).length := Nat.lt_add_of_pos_right Nat.two_pos
        exact forall₂_consFirst (forall₂_consFirst (ih _ hlength h e hq rfl) d) '\\'
      | @blanks d f s t hd hf h =>
        -- a blank says the same behind a backslash as without it
        have hblank : ∀ {d s}, isBlank d = true → pieces e (some p) ('\\' :: d :: s) =
            consFirst '\\' (pieces e (some p) (d :: s)) := fun {d s} hd => by
          rw [pieces_escape]
          exact congrArg _ (pieces_blanks_append (w := [d]) (by simpa using hd) e hq s).symm
        rw [hblank hd, hblank hf]
        exact forall₂_consFirst (pieces_of_blanks hd hf h e hq) '\\'
    · rw [pieces_string_cons e hc, pieces_string_cons e hc]
      refine forall₂_consFirst (ih _ (Nat.lt_succ_self _) h e ?_ rfl) c
      split
      · exact fun p hp => nomatch hp
      · exact hq

end Respaced

/-! ## Fields -/

theorem hasBracket_of_ofStatement? {s : List Char} {n : Nat} {f : Field}
    (h : Field.ofStatement? s n = some f) : hasBracket s = true := by
  obtain ⟨d, rfl, -⟩ := exists_declaration h
  refine List.any_eq_true.mpr ⟨'(', ?_, by decide⟩
  simp [Declaration.text, Call.text]

theorem ofStatement?_trimEnd (s : List Char) (n : Nat) :
    Field.ofStatement? (trimEnd s) n = Field.ofStatement? s n := by
  obtain ⟨w, hw, -⟩ := exists_trimEnd s
  by_cases h : hasBracket s = true
  · have happend := ofStatement?_append ((hasBracket_trimEnd s).trans h) w n
    rw [← hw] at happend
    exact happend.symm
  · have hnone : ∀ {t}, hasBracket t = hasBracket s → Field.ofStatement? t n = none := fun ht =>
      Option.eq_none_iff_forall_ne_some.mpr fun f hf =>
        h (ht.symm.trans (hasBracket_of_ofStatement? hf))
    rw [hnone (hasBracket_trimEnd s), hnone rfl]

theorem fieldsOf_statements (n : Nat) (s : List Char) : (fieldsOf n (statements s)).1 =
    (pieces 0 none s).filterMap fun p => Field.ofStatement? (trimStart p) n := by
  have hheld : ∀ ss : List (List Char), (ss.filter fun s => !s.isEmpty).filterMap
      (Field.ofStatement? · n) = ss.filterMap (Field.ofStatement? · n) := by
    intro ss
    rw [List.filterMap_filter]
    refine List.filterMap_congr fun s _ => ?_
    cases s <;> rfl
  rw [fieldsOf_eq, statements, hheld, List.filterMap_map]
  exact List.filterMap_congr fun p _ => ofStatement?_trimEnd (trimStart p) n

theorem exists_fieldsOf_append (n : Nat) (s t : List Char) :
    ∃ more, (fieldsOf n (statements (s ++ t))).1 = (fieldsOf n (statements s)).1 ++ more := by
  obtain ⟨above, u, w, below, hs, ht⟩ := pieces_append 0 none s t
  rw [fieldsOf_statements, fieldsOf_statements, hs, ht, List.filterMap_append, List.filterMap_append]
  cases hu : Field.ofStatement? (trimStart u) n with
  | none =>
    simp only [List.filterMap_cons, hu, List.filterMap_nil, List.append_nil]
    exact ⟨_, rfl⟩
  | some f =>
    -- the statement has its bracket, so that it declares the same however it goes on
    have hbracket := hasBracket_of_ofStatement? hu
    have hmore : Field.ofStatement? (trimStart (u ++ w)) n = some f := by
      rw [hasBracket_trimStart] at hbracket
      rw [trimStart_append (trimStart_ne_nil_of_hasBracket hbracket),
        ofStatement?_append ((hasBracket_trimStart u).trans hbracket), hu]
    simp only [List.filterMap_cons, hu, hmore, List.filterMap_nil, List.append_assoc,
      List.singleton_append]
    exact ⟨_, rfl⟩

/-- The number of fields that the statements of a line declare. -/
def fieldCount (line : List Char) : Nat := (fieldsOf 0 (statements line)).1.length

/-- **The fields of a line that goes on** and declares no more of them. -/
theorem fieldsOf_append {s t : List Char} (h : fieldCount (s ++ t) = fieldCount s) (n : Nat) :
    (fieldsOf n (statements (s ++ t))).1 = (fieldsOf n (statements s)).1 := by
  have hcount : ∀ line, (fieldsOf n (statements line)).1.length = fieldCount line := fun line => by
    rw [(fieldsOf_relabel (fun _ => n) 0 (statements line)).1, List.length_map, fieldCount]
  obtain ⟨more, hmore⟩ := exists_fieldsOf_append n s t
  have hlength := congrArg List.length hmore
  rw [List.length_append, hcount, hcount, h] at hlength
  obtain rfl : more = [] := List.eq_nil_of_length_eq_zero (by omega)
  rw [hmore, List.append_nil]

/-- **The fields of a line** do not depend on the width of the blanks. -/
theorem Respaced.fieldsOf_congr {s t : List Char} (h : Respaced s t) (n : Nat) :
    (fieldsOf n (statements s)).1 = (fieldsOf n (statements t)).1 := by
  rw [fieldsOf_statements, fieldsOf_statements]
  have hpieces := h.forall₂_pieces 0 fun p (hp : p ∈ none) => nomatch hp
  generalize pieces 0 none s = ps at hpieces ⊢
  generalize pieces 0 none t = qs at hpieces ⊢
  induction hpieces with
  | nil => rfl
  | cons hp _ ih => rw [List.filterMap_cons, List.filterMap_cons, hp.trimStart.ofStatement?_congr, ih]

/-! ## Blanks of code -/

/-- Behind `text` the scanner stands in code at depth `d`: what follows there, from a blank on, is
read as code. -/
def ScansTo (m : Mode) (d₀ : Int) (text : List Char) (d : Int) : Prop :=
  ∀ rest, (∀ c ∈ rest.head?, isBlank c = true) → scan m d₀ (text ++ rest) = scan .code d rest

/-- Text without strings and comments is code that counts brackets. -/
theorem scansTo_of_plain {s : List Char} (h : (s.all fun c => c != '#' && !isQuote c) = true)
    (d : Int) : ScansTo .code d s (s.foldl (fun d c => d + nesting c) d) := by
  intro rest hrest
  induction s generalizing d with
  | nil => rfl
  | cons c cs ih =>
    rw [List.all_cons, Bool.and_eq_true] at h
    obtain ⟨hc, hq⟩ : c ≠ '#' ∧ isQuote c = false := by simpa using h.1
    rw [List.cons_append, scan_code_cons d _ hc hq, ih h.2, List.foldl_cons]

/-- **The carry below a broken line** is that below the line. -/
theorem feed_break {c : Carry} {text : List Char} {d : Int} (hd : 0 < d)
    (h : ScansTo (.ofString c.string) c.brackets text d) {indent : List Char}
    (hi : ∀ a ∈ indent, isBlank a = true) (more : List Char) :
    (c.feed text).isOpen = true ∧
      (c.feed text).feed (indent ++ more) = c.feed (text ++ ' ' :: more) := by
  have htext : c.feed text = ⟨none, d.toNat⟩ := by
    have hnil := h [] fun c hc => nomatch hc
    rw [List.append_nil] at hnil
    rw [Carry.feed_eq, hnil]
    rfl
  have hspace : ∀ a ∈ [' '], isBlank a = true := List.forall_mem_singleton.mpr (by decide)
  have hdepth : ((d.toNat : Nat) : Int) = d := Int.toNat_of_nonneg hd.le
  refine ⟨?_, ?_⟩
  · simp only [htext, Carry.isOpen, Option.isSome_none, Bool.false_or, decide_eq_true_eq]
    omega
  · rw [htext, Carry.feed_eq, Carry.feed_eq, h (' ' :: more) fun c hc => by
      obtain rfl := Option.some.inj hc
      decide]
    show Carry.ofScan (scan .code (d.toNat : Nat) (indent ++ more)) = _
    rw [hdepth, scan_code_blanks hi, ← scan_code_blanks hspace d more]
    rfl

end ModelTypings.Source
