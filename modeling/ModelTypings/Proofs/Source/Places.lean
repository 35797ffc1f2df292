import Mathlib.Logic.Relation
import ModelTypings.Proofs.Source.Lexical

/-!
# The places of a scan

A line is scanned item by item: a character, an escape, a delimiter.

* `ScanAt`, `ScanAt.Step`, `ScanAt.Visits`: the places of a scan, one behind the other;
* **`ScanAt.Step.result_eq`**: the scan goes on from place to place;
* `ScanAt.Step.unique`, `ScanAt.exists_step`: a place has one next, unless the scan ends there;
* `ScanAt.Visits.unique`: a scan comes to a character once;
* `ScanAt.Visits.of_append`: a scan without what is left of the line at a place;
* `ScanAt.Scans`: the places of a line.
-/

namespace ModelTypings.Source

open Text Relation

/-- Where a scan stands. -/
structure ScanAt where
  mode : Mode
  /-- The brackets of code opened less those closed. -/
  depth : Int
  /-- What is left of the line. -/
  rest : List Char

namespace ScanAt

/-- What the scan gives. -/
def result (x : ScanAt) : Mode × Int := scan x.mode x.depth x.rest

/-- One item scanned. A comment is none: it ends the scan. -/
inductive Step : ScanAt → ScanAt → Prop
  | code {d : Int} {c : Char} {cs : List Char} (hc : c ≠ '#') (hq : isQuote c = false) :
      Step ⟨.code, d, c :: cs⟩ ⟨.code, d + nesting c, cs⟩
  | shortOpen {d : Int} {q : Char} {cs : List Char} (hq : isQuote q) (h : ¬ [q, q] <+: cs) :
      Step ⟨.code, d, q :: cs⟩ ⟨.short q, d, cs⟩
  | shortText {d : Int} {q c : Char} {cs : List Char} (hq : c ≠ q) (h : c ≠ '\\') :
      Step ⟨.short q, d, c :: cs⟩ ⟨.short q, d, cs⟩
  | shortEscape {d : Int} {q c : Char} {cs : List Char} :
      Step ⟨.short q, d, '\\' :: c :: cs⟩ ⟨.short q, d, cs⟩
  | shortClose {d : Int} {q : Char} {cs : List Char} (h : q ≠ '\\') :
      Step ⟨.short q, d, q :: cs⟩ ⟨.code, d, cs⟩
  | longOpen {d : Int} {q : Char} {cs : List Char} (hq : isQuote q) :
      Step ⟨.code, d, q :: q :: q :: cs⟩ ⟨.long q, d, cs⟩
  | longText {d : Int} {q c : Char} {cs : List Char} (h : ¬ [q, q, q] <+: c :: cs) :
      Step ⟨.long q, d, c :: cs⟩ ⟨.long q, d, cs⟩
  | longClose {d : Int} {q : Char} {cs : List Char} :
      Step ⟨.long q, d, q :: q :: q :: cs⟩ ⟨.code, d, cs⟩

/-- The scan comes to a place. -/
abbrev Visits : ScanAt → ScanAt → Prop := ReflTransGen Step

/-- **A scan goes on from place to place.** -/
theorem Step.result_eq {x y : ScanAt} (h : Step x y) : x.result = y.result := by
  cases h with
  | code hc hq => exact scan_code_cons _ _ hc hq
  | shortOpen hq h => exact scan_code_quote hq _ h
  | shortText hq h => exact scan_short_cons hq h _ _
  | shortEscape => exact scan_short_escape _ _ _ _
  | shortClose h => exact scan_short_quote h _ _
  | longOpen hq => exact scan_code_delimiter hq _ _
  | longText h => exact scan_long_cons _ h
  | longClose => exact scan_long_delimiter _ _ _

theorem Step.unique {x y z : ScanAt} (hy : Step x y) (hz : Step x z) : y = z := by
  cases hy with
  | code hc hq =>
    cases hz with
    | code => rfl
    | shortOpen hq' | longOpen hq' => exact Bool.noConfusion (hq.symm.trans hq')
  | shortOpen hq h =>
    cases hz with
    | code _ hq' => exact Bool.noConfusion (hq'.symm.trans hq)
    | shortOpen => rfl
    | longOpen => exact absurd ⟨_, rfl⟩ h
  | shortText hq h =>
    cases hz with
    | shortText => rfl
    | shortEscape => exact absurd rfl h
    | shortClose => exact absurd rfl hq
  | shortEscape =>
    cases hz with
    | shortText _ h => exact absurd rfl h
    | shortEscape => rfl
    | shortClose h => exact absurd rfl h
  | shortClose h =>
    cases hz with
    | shortText hq => exact absurd rfl hq
    | shortEscape => exact absurd rfl h
    | shortClose => rfl
  | longOpen hq =>
    cases hz with
    | code _ hq' => exact Bool.noConfusion (hq'.symm.trans hq)
    | shortOpen _ h => exact absurd ⟨_, rfl⟩ h
    | longOpen => rfl
  | longText h =>
    cases hz with
    | longText => rfl
    | longClose => exact absurd ⟨_, rfl⟩ h
  | longClose =>
    cases hz with
    | longText h => exact absurd ⟨_, rfl⟩ h
    | longClose => rfl

/-- A scan goes on unless it is at the end of the line, at a comment or, in a string of one line, at
a backslash that hides nothing. -/
theorem exists_step (x : ScanAt) : (∃ y, Step x y) ∨ x.rest = [] ∨
    (x.mode = .code ∧ ∃ cs, x.rest = '#' :: cs) ∨ (∃ q, x.mode = .short q) ∧ x.rest = ['\\'] := by
  obtain ⟨m, d, s⟩ := x
  cases s with
  | nil => exact .inr (.inl rfl)
  | cons c cs =>
    cases m with
    | code =>
      by_cases hc : c = '#'
      · exact .inr (.inr (.inl ⟨rfl, cs, by rw [hc]⟩))
      by_cases hq : isQuote c = true
      · by_cases hlong : [c, c] <+: cs
        · obtain ⟨text, rfl⟩ := hlong
          exact .inl ⟨_, .longOpen hq⟩
        · exact .inl ⟨_, .shortOpen hq hlong⟩
      · exact .inl ⟨_, .code hc (by simpa using hq)⟩
    | short q =>
      by_cases hc : c = '\\'
      · subst hc
        cases cs with
        | nil => exact .inr (.inr (.inr ⟨⟨q, rfl⟩, rfl⟩))
        | cons e cs => exact .inl ⟨_, .shortEscape⟩
      · by_cases hcq : c = q
        · subst hcq
          exact .inl ⟨_, .shortClose hc⟩
        · exact .inl ⟨_, .shortText hcq hc⟩
    | long q =>
      by_cases hdelimiter : [q, q, q] <+: c :: cs
      · obtain ⟨text, ht⟩ := hdelimiter
        rw [← ht]
        exact .inl ⟨_, .longClose⟩
      · exact .inl ⟨_, .longText hdelimiter⟩

/-- Strings are opened by quotes. -/
def IsSound (x : ScanAt) : Prop := ∀ q, x.mode = .short q ∨ x.mode = .long q → isQuote q

theorem isSound_code (d : Int) (s : List Char) : IsSound ⟨.code, d, s⟩ := by
  rintro q (h | h) <;> exact nomatch h

theorem Step.isSound {x y : ScanAt} (h : Step x y) (hx : x.IsSound) : y.IsSound := by
  cases h with
  | code | shortClose | longClose => exact isSound_code _ _
  | shortOpen hq | longOpen hq =>
    intro p hp
    obtain rfl : _ = p := by simpa using hp
    exact hq
  | shortText | shortEscape | longText => exact hx

theorem Step.rest_isSuffix {x y : ScanAt} (h : Step x y) : ∃ w, w ≠ [] ∧ x.rest = w ++ y.rest := by
  cases h with
  | @shortEscape d q c cs => exact ⟨['\\', c], List.cons_ne_nil _ _, rfl⟩
  | @longOpen d q cs => exact ⟨[q, q, q], List.cons_ne_nil _ _, rfl⟩
  | @longClose d q cs => exact ⟨[q, q, q], List.cons_ne_nil _ _, rfl⟩
  | code | shortOpen | shortText | shortClose | longText => exact ⟨[_], List.cons_ne_nil _ _, rfl⟩

theorem Step.length_lt {x y : ScanAt} (h : Step x y) : y.rest.length < x.rest.length := by
  obtain ⟨w, hw, hrest⟩ := h.rest_isSuffix
  have := List.length_pos_of_ne_nil hw
  rw [hrest, List.length_append]
  omega

theorem Visits.rest_isSuffix {x y : ScanAt} (h : x.Visits y) : y.rest <:+ x.rest := by
  induction h with
  | refl => exact List.suffix_rfl
  | tail _ h ih =>
    obtain ⟨w, -, hrest⟩ := h.rest_isSuffix
    exact (hrest ▸ List.suffix_append _ _).trans ih

theorem Visits.length_le {x y : ScanAt} (h : x.Visits y) : y.rest.length ≤ x.rest.length :=
  (Visits.rest_isSuffix h).length_le

theorem Visits.result_eq {x y : ScanAt} (h : x.Visits y) : x.result = y.result := by
  induction h with
  | refl => rfl
  | tail _ h ih => exact ih.trans h.result_eq

theorem Step.visits_iff {x y : ScanAt} (h : Step x y) (z : ScanAt) :
    x.Visits z ↔ x = z ∨ y.Visits z := by
  constructor
  · intro hz
    rcases hz.cases_head with rfl | ⟨y', hy', hz⟩
    · exact Or.inl rfl
    · obtain rfl := h.unique hy'
      exact Or.inr hz
  · rintro (rfl | hz)
    · exact .refl
    · exact .head h hz

theorem Visits.unique {x y z : ScanAt} (hy : x.Visits y) (hz : x.Visits z)
    (h : y.rest.length = z.rest.length) : y = z := by
  induction hy using ReflTransGen.head_induction_on with
  | refl =>
    rcases hz.cases_head with rfl | ⟨w, hw, hwz⟩
    · rfl
    · have := hw.length_lt
      have := Visits.length_le hwz
      omega
  | head hw hwy ih =>
    rcases (hw.visits_iff z).mp hz with rfl | hz
    · have := hw.length_lt
      have := Visits.length_le hwy
      omega
    · exact ih hz

theorem not_step_comment {d : Int} {cs : List Char} {y : ScanAt} :
    ¬ Step ⟨.code, d, '#' :: cs⟩ y := by
  intro h
  cases h with
  | code hc => exact hc rfl
  | shortOpen hq | longOpen hq => exact ne_comment_of_isQuote hq rfl

theorem Step.visits_append {x y : ScanAt} (h : Step x y) {w before after : List Char}
    (hrest : x.rest = w ++ y.rest) {c : Char} (heq : x.rest = before ++ c :: after) {m : Mode}
    {d : Int} (hne : x ≠ ⟨m, d, c :: after⟩) :
    x.Visits ⟨m, d, c :: after⟩ ↔
      ∃ b, before = w ++ b ∧ y.rest = b ++ c :: after ∧ y.Visits ⟨m, d, c :: after⟩ := by
  rw [h.visits_iff, or_iff_right hne]
  refine ⟨fun hy => ?_, fun ⟨b, _, _, hy⟩ => hy⟩
  rcases List.append_eq_append_iff.mp (hrest.symm.trans heq) with ⟨b, hb, hy'⟩ | ⟨v, hv, hy'⟩
  · exact ⟨b, hb, hy', hy⟩
  · -- what is left of the line is no shorter than where the scan comes
    have hlength := Visits.length_le hy
    rw [hy', List.length_append] at hlength
    obtain rfl : v = [] := List.eq_nil_of_length_eq_zero (by omega)
    exact ⟨[], by simpa using hv.symm, hy'.symm, hy⟩

theorem Step.of_append {x y : ScanAt} (h : Step x y) {s s' t : List Char} (hs : x.rest = s ++ t)
    (hs' : y.rest = s' ++ t) : Step ⟨x.mode, x.depth, s⟩ ⟨y.mode, y.depth, s'⟩ := by
  have hitem : ∀ w, x.rest = w ++ y.rest → s = w ++ s' := fun w hw => by
    rw [hs, hs', ← List.append_assoc] at hw
    exact List.append_cancel_right hw
  have hstart : ∀ {u v : List Char}, u <+: v → u <+: v ++ t :=
    fun hu => hu.trans (List.prefix_append _ _)
  cases h with
  | @code d c cs hc hq =>
    obtain rfl : s = c :: s' := hitem [c] rfl
    exact .code hc hq
  | @shortOpen d q cs hq h =>
    obtain rfl : s = q :: s' := hitem [q] rfl
    obtain rfl : cs = s' ++ t := hs'
    exact .shortOpen hq fun hp => h (hstart hp)
  | @shortText d q c cs hq h =>
    obtain rfl : s = c :: s' := hitem [c] rfl
    exact .shortText hq h
  | @shortEscape d q c cs =>
    obtain rfl : s = '\\' :: c :: s' := hitem ['\\', c] rfl
    exact .shortEscape
  | @shortClose d q cs h =>
    obtain rfl : s = q :: s' := hitem [q] rfl
    exact .shortClose h
  | @longOpen d q cs hq =>
    obtain rfl : s = q :: q :: q :: s' := hitem [q, q, q] rfl
    exact .longOpen hq
  | @longText d q c cs h =>
    obtain rfl : s = c :: s' := hitem [c] rfl
    obtain rfl : cs = s' ++ t := hs'
    exact .longText fun hp => h (hstart hp)
  | @longClose d q cs =>
    obtain rfl : s = q :: q :: q :: s' := hitem [q, q, q] rfl
    exact .longClose

theorem Visits.of_append {x y : ScanAt} (h : x.Visits y) {s : List Char}
    (hs : x.rest = s ++ y.rest) : Visits ⟨x.mode, x.depth, s⟩ ⟨y.mode, y.depth, []⟩ := by
  induction h using ReflTransGen.head_induction_on generalizing s with
  | refl =>
    obtain rfl : s = [] := List.append_left_eq_self.mp hs.symm
    exact .refl
  | head hstep hvisits ih =>
    obtain ⟨s', hs'⟩ := Visits.rest_isSuffix hvisits
    exact .head (hstep.of_append hs hs'.symm) (ih hs'.symm)

/-- The scan of a line comes to a place. -/
def Scans (line : List Char) (x : ScanAt) : Prop := Visits ⟨.code, 0, line⟩ x

end ScanAt

end ModelTypings.Source
