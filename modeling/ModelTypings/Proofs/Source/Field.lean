import ModelTypings.Proofs.Text.Name
import ModelTypings.Source.Models

/-!
# What a field is read from

A field statement is read up to its first bracket. How the statement goes on plays no part.

* `hasBracket`: a bracket stands in the text;
* `takeName_append_of_hasBracket`, `constructorName_append`: names above the first bracket;
* **`ofStatement?_append`**: the field of a statement that goes on;
* `fieldsOf_eq`: the fields and the events of a line, statement by statement;
* `Field.relabel`, `fieldsOf_relabel`: the same with another line number.
-/

namespace ModelTypings.Source

open Text Log

/-! ## Brackets -/

/-- A bracket stands in the text. -/
def hasBracket (s : List Char) : Bool := s.any fun c => nesting c != 0

theorem hasBracket_cons_of_nesting {c : Char} (h : nesting c = 0) (cs : List Char) :
    hasBracket (c :: cs) = hasBracket cs := by
  rw [hasBracket, List.any_cons, h]
  rfl

theorem nesting_of_isBlank {c : Char} (hc : isBlank c = true) : nesting c = 0 := by
  unfold nesting
  rw [if_neg, if_neg]
  · rintro (h | h | h) <;> exact ne_of_isBlank (by decide) hc h
  · rintro (h | h | h) <;> exact ne_of_isBlank (by decide) hc h

theorem isWord_of_nesting {c : Char} (h : nesting c ≠ 0) : isWord c = false := by
  unfold nesting at h
  split at h
  · next hc => rcases hc with rfl | rfl | rfl <;> decide +kernel
  split at h
  · next hc => rcases hc with rfl | rfl | rfl <;> decide +kernel
  · exact absurd rfl h

theorem nesting_of_isWord {c : Char} (h : isWord c = true) : nesting c = 0 := by
  by_contra hc
  rw [isWord_of_nesting hc] at h
  exact Bool.noConfusion h

theorem nesting_of_isNameStart {c : Char} (h : isNameStart c = true) : nesting c = 0 := by
  refine nesting_of_isWord ?_
  simp only [isNameStart, Bool.or_eq_true, beq_iff_eq] at h
  rcases h with h | h <;> simp [isWord, Char.isAlphanum, h]

section Skip

variable {p : Char → Bool} (hp : ∀ c, p c = true → nesting c = 0)
include hp

theorem hasBracket_dropWhile (s : List Char) : hasBracket (s.dropWhile p) = hasBracket s := by
  induction s with
  | nil => rfl
  | cons c cs ih =>
    by_cases hc : p c = true
    · rw [List.dropWhile_cons_of_pos hc, ih, hasBracket_cons_of_nesting (hp c hc)]
    · rw [List.dropWhile_cons_of_neg hc]

theorem dropWhile_ne_nil_of_hasBracket {s : List Char} (h : hasBracket s = true) :
    s.dropWhile p ≠ [] := by
  intro hs
  rw [← hasBracket_dropWhile hp, hs] at h
  exact Bool.noConfusion h

theorem span_append_of_hasBracket {s : List Char} (h : hasBracket s = true) (t : List Char) :
    (s ++ t).takeWhile p = s.takeWhile p ∧ (s ++ t).dropWhile p = s.dropWhile p ++ t := by
  induction s with
  | nil => exact Bool.noConfusion h
  | cons c cs ih =>
    rw [List.cons_append]
    by_cases hc : p c = true
    · obtain ⟨htake, hdrop⟩ := ih (hasBracket_cons_of_nesting (hp c hc) cs ▸ h)
      rw [List.takeWhile_cons_of_pos hc, List.takeWhile_cons_of_pos hc, htake,
        List.dropWhile_cons_of_pos hc, List.dropWhile_cons_of_pos hc, hdrop]
      exact ⟨rfl, rfl⟩
    · rw [List.takeWhile_cons_of_neg hc, List.takeWhile_cons_of_neg hc,
        List.dropWhile_cons_of_neg hc, List.dropWhile_cons_of_neg hc]
      exact ⟨rfl, rfl⟩

end Skip

theorem hasBracket_trimStart (s : List Char) : hasBracket (trimStart s) = hasBracket s :=
  hasBracket_dropWhile (fun _ => nesting_of_isBlank) s

theorem trimStart_ne_nil_of_hasBracket {s : List Char} (h : hasBracket s = true) :
    trimStart s ≠ [] := dropWhile_ne_nil_of_hasBracket (fun _ => nesting_of_isBlank) h

theorem hasBracket_trimEnd (s : List Char) : hasBracket (trimEnd s) = hasBracket s := by
  obtain ⟨w, hw, hblank⟩ := exists_trimEnd s
  have hnone : hasBracket w = false :=
    List.any_eq_false.mpr fun c hc => by simp [nesting_of_isBlank (hblank c hc)]
  have hs : hasBracket s = (hasBracket (trimEnd s) || hasBracket w) :=
    (congrArg hasBracket hw).trans List.any_append
  rw [hs, hnone, Bool.or_false]

/-! ## Names and constructors -/

/-- **A name stands above the first bracket**, and the bracket behind it. -/
theorem takeName_append_of_hasBracket {s : List Char} (h : hasBracket s = true) (t : List Char) :
    takeName (s ++ t) = (takeName s).map (fun p => (p.1, p.2 ++ t)) ∧
      ∀ p ∈ takeName s, hasBracket p.2 = true := by
  cases s with
  | nil => exact Bool.noConfusion h
  | cons c cs =>
    rw [List.cons_append, takeName, takeName]
    by_cases hc : isNameStart c = true
    · have hcs : hasBracket cs = true :=
        hasBracket_cons_of_nesting (nesting_of_isNameStart hc) cs ▸ h
      obtain ⟨htake, hdrop⟩ := span_append_of_hasBracket (fun _ => nesting_of_isWord) hcs t
      rw [if_pos hc, if_pos hc, htake, hdrop]
      refine ⟨rfl, fun p hp => ?_⟩
      obtain rfl := Option.some.inj hp
      exact (hasBracket_dropWhile (fun _ => nesting_of_isWord) cs).trans hcs
    · rw [if_neg hc, if_neg hc]
      exact ⟨rfl, fun p hp => absurd hp (Option.not_mem_none p)⟩

theorem constructorName_eq (s : List Char) : constructorName s =
    (takeName s).bind fun p =>
      match trimStart p.2 with
      | '.' :: more => constructorName (trimStart more)
      | '(' :: _ => some p.1
      | _ => none := by
  rw [constructorName]
  split
  · next h => rw [h]; rfl
  · next name rest h =>
    rw [h, Option.bind_some]
    dsimp only
    split
    · next hd => simp only [hd]
    · next hd => simp only [hd]
    · next hdot hopen =>
      split
      · next hd => exact absurd hd (hdot _)
      · next hd => exact absurd hd (hopen _)
      · rfl

theorem constructorName_append (s : List Char) (h : hasBracket s = true) (t : List Char) :
    constructorName (s ++ t) = constructorName s := by
  obtain ⟨hname, hbracket⟩ := takeName_append_of_hasBracket h t
  rw [constructorName_eq, constructorName_eq s, hname, Option.bind_map]
  refine Option.bind_congr fun p hp => ?_
  have hp2 := hbracket p hp
  have hne := trimStart_ne_nil_of_hasBracket hp2
  simp only [Function.comp_apply, trimStart_append hne]
  cases hrest : trimStart p.2 with
  | nil => exact absurd hrest hne
  | cons c more =>
    by_cases hdot : c = '.'
    · subst hdot
      have hmore : hasBracket more = true := by
        rw [← hasBracket_trimStart, hrest] at hp2
        exact hp2
      have hlt : more.length < s.length := by
        have h1 := length_lt_of_takeName hp
        have h2 := length_trimStart_le p.2
        rw [hrest, List.length_cons] at h2
        omega
      have hle := length_trimStart_le more
      simp only [List.cons_append, trimStart_append (trimStart_ne_nil_of_hasBracket hmore)]
      exact constructorName_append (trimStart more) ((hasBracket_trimStart more).trans hmore) t
    · by_cases hopen : c = '('
      · subst hopen
        rfl
      · simp [hdot, hopen]
termination_by s.length

/-! ## Statements -/

/-- **The field of a statement that goes on behind a bracket.** -/
theorem ofStatement?_append {s : List Char} (h : hasBracket s = true) (t : List Char) (n : Nat) :
    Field.ofStatement? (s ++ t) n = Field.ofStatement? s n := by
  obtain ⟨hname, hbracket⟩ := takeName_append_of_hasBracket h t
  unfold Field.ofStatement?
  rw [hname]
  cases hs : takeName s with
  | none => rfl
  | some p =>
    have hp := hbracket p hs
    have hne := trimStart_ne_nil_of_hasBracket hp
    simp only [Option.map_some, trimStart_append hne]
    cases hrest : trimStart p.2 with
    | nil => exact absurd hrest hne
    | cons c value =>
      by_cases heq : c = '='
      · subst heq
        have hvalue : hasBracket value = true := by
          rw [← hasBracket_trimStart, hrest] at hp
          exact hp
        have hvalue' := (hasBracket_trimStart value).trans hvalue
        simp only [List.cons_append, trimStart_append (trimStart_ne_nil_of_hasBracket hvalue),
          constructorName_append _ hvalue']
      · simp [heq]

/-- **The fields and the events of a line, statement by statement.** -/
theorem fieldsOf_eq (n : Nat) (ss : List (List Char)) : fieldsOf n ss =
    (ss.filterMap (Field.ofStatement? · n),
      (ss.filter fun s => (Field.ofStatement? s n).isNone).map fun s =>
        .notField n (String.ofList s)) := by
  induction ss with
  | nil => rfl
  | cons s ss ih =>
    rw [fieldsOf, ih]
    cases hs : Field.ofStatement? s n with
    | none => simp [hs]
    | some x => simp [hs]

/-- The field with the number of its line replaced. -/
def Field.relabel (f : Nat → Nat) (x : Field) : Field := { x with line := f x.line }

theorem fieldsOf_relabel (f : Nat → Nat) (n : Nat) (ss : List (List Char)) :
    (fieldsOf (f n) ss).1 = (fieldsOf n ss).1.map (Field.relabel f) ∧
      (fieldsOf (f n) ss).2.length = (fieldsOf n ss).2.length := by
  have hfield : ∀ s : List Char,
      Field.ofStatement? s (f n) = (Field.ofStatement? s n).map (Field.relabel f) := by
    intro s
    unfold Field.ofStatement?
    split
    · rfl
    split
    · rw [Option.map_map]
      rfl
    · rfl
  constructor
  · simp only [fieldsOf_eq, hfield, List.map_filterMap]
  · simp only [fieldsOf_eq, hfield, List.length_map, Option.isNone_map]

end ModelTypings.Source
