import Mathlib.Tactic.Common
import ModelTypings.Toml.Printer
import ModelTypings.Toml.Quoted

/-!
# Strings of TOML read back

Whatever its form, a string that is written is read back, with what follows it.

* `ReadsEscapes`: what the readers of both basic forms have in common;
* `readBasic_escapeInLine`, `readLiteral_append`: strings of one line;
* `readLongBasic_escapeLong`, `readLongLiteral_append`: strings of several lines, where quotes may
  stand just before the closing ones;
* **`readString_printString`**: every string is read back from the form that is chosen for it.
-/

namespace ModelTypings.Toml

/-! ## Escapes -/

theorem hexValue_hexDigit : ∀ n, n < 16 → hexValue? (hexDigit n) = some n := by decide

theorem charOfCode_toNat (c : Char) : charOfCode? c.toNat = some c := by
  have h : c.toNat.isValidChar := c.valid
  rw [charOfCode?, if_pos h, Char.ofNat_toNat]

theorem toNat_lt_of_needsEscape {c : Char} (h : needsEscape c = true) : c.toNat < 0x80 := by
  simp only [needsEscape, isTextChar, Bool.and_eq_true, Bool.not_eq_true', Bool.or_eq_false_iff,
    Bool.and_eq_false_iff, decide_eq_false_iff_not] at h
  rcases h.1.2 with h | h
  · omega
  · have : c.toNat = 0x7F := by simpa using h
    omega

theorem isTextChar_of_needsEscape {c : Char} (h : needsEscape c = false) (hc : c ≠ '\n') :
    isTextChar c = true := by
  simpa [needsEscape, hc] using h

theorem escape_cases (c : Char) :
    (∃ l, escape c = ['\\', l] ∧ escaped? l = some c) ∨
      (escape c = codeEscape c ∧ needsEscape c = true) ∨
      (escape c = [c] ∧ needsEscape c = false ∧ c ≠ '\\') := by
  unfold escape
  split
  · next e => exact Or.inl ⟨'b', rfl, by rw [e]; rfl⟩
  split
  · next e => exact Or.inl ⟨'t', rfl, by rw [e]; rfl⟩
  split
  · next e => exact Or.inl ⟨'f', rfl, by rw [e]; rfl⟩
  split
  · next e => exact Or.inl ⟨'r', rfl, by rw [e]; rfl⟩
  split
  · next e => exact Or.inl ⟨'\\', rfl, by rw [e]; rfl⟩
  split
  · next he => exact Or.inr (Or.inl ⟨rfl, he⟩)
  · next hb he => exact Or.inr (Or.inr ⟨rfl, by simpa using he, hb⟩)

theorem letter_of_escaped {c e : Char} (h : escaped? c = some e) :
    codeDigits? c = none ∧ c ≠ '\n' ∧ c ≠ ' ' ∧ c ≠ '\t' ∧ c ≠ '\r' := by
  unfold escaped? at h
  split at h
  all_goals first | decide | exact nomatch h

/-- `c` is part of a line break. -/
def isLineBreak (c : Char) : Bool := c == '\n' || c == '\r'

/-- The reader of a basic form: one line or several. -/
structure ReadsEscapes (read : Reading → List Char → Option (List Char × List Char)) : Prop where
  text : ∀ {c} cs, isTextChar c = true → c ≠ '"' → c ≠ '\\' →
    read (.plain false) (c :: cs) = consChar c (read (.plain false) cs)
  backslash : ∀ cs, read (.plain false) ('\\' :: cs) = read .escape cs
  letter : ∀ {c e} cs, escaped? c = some e →
    read .escape (c :: cs) = consChar e (read (.plain false) cs)
  code : ∀ cs, read .escape ('u' :: cs) = read (.code 4 0) cs
  digit : ∀ {c d n v} cs, hexValue? c = some d → 1 < n →
    read (.code n v) (c :: cs) = read (.code (n - 1) (16 * v + d)) cs
  last : ∀ {c d v e} cs, hexValue? c = some d → charOfCode? (16 * v + d) = some e →
    read (.code 1 v) (c :: cs) = consChar e (read (.plain false) cs)

namespace ReadsEscapes

variable {read : Reading → List Char → Option (List Char × List Char)}

theorem codeEscape (h : ReadsEscapes read) {c : Char} (hc : c.toNat < 0x80) (cs : List Char) :
    read (.plain false) (codeEscape c ++ cs) = consChar c (read (.plain false) cs) := by
  have hd : ∀ n, hexValue? (hexDigit (n % 16)) = some (n % 16) := fun n =>
    hexValue_hexDigit _ (Nat.mod_lt _ (by omega))
  have hv : 16 * (16 * (16 * (16 * 0 + c.toNat / 4096 % 16) + c.toNat / 256 % 16) +
      c.toNat / 16 % 16) + c.toNat % 16 = c.toNat := by omega
  simp only [Toml.codeEscape, List.cons_append, List.nil_append]
  rw [h.backslash, h.code, h.digit _ (hd _) (by omega), h.digit _ (hd _) (by omega),
    h.digit _ (hd _) (by omega)]
  exact h.last cs (hd _) (by rw [hv, charOfCode_toNat])

/-- **An escaped character is read back.** -/
theorem escape (h : ReadsEscapes read) {c : Char} (hq : c ≠ '"') (hn : c ≠ '\n') (cs : List Char) :
    read (.plain false) (escape c ++ cs) = consChar c (read (.plain false) cs) := by
  obtain ⟨l, e, hl⟩ | ⟨e, he⟩ | ⟨e, he, hb⟩ := escape_cases c
  · rw [e, List.cons_append, List.cons_append, List.nil_append, h.backslash, h.letter cs hl]
  · rw [e, h.codeEscape (toNat_lt_of_needsEscape he) cs]
  · rw [e, List.singleton_append, h.text cs (isTextChar_of_needsEscape he hn) hq hb]

end ReadsEscapes

theorem escape_eq_cons {c : Char} (hq : c ≠ '"') (hn : c ≠ '\n') :
    ∃ d ds, escape c = d :: ds ∧ d ≠ '"' ∧ isLineBreak d = false := by
  obtain ⟨l, e, _⟩ | ⟨e, _⟩ | ⟨e, he, _⟩ := escape_cases c
  · exact ⟨_, _, e, by decide, rfl⟩
  · exact ⟨_, _, e, by decide, rfl⟩
  · refine ⟨c, [], e, hq, ?_⟩
    have hr : c ≠ '\r' := by
      rintro rfl
      exact absurd he (by decide)
    simp [isLineBreak, hn, hr]

/-! ## Strings of one line -/

theorem readsEscapes_readBasic : ReadsEscapes readBasic where
  text cs ht hq hb := by rw [readBasic, if_neg hq, if_neg hb, if_pos ht]
  backslash cs := rfl
  letter cs he := by
    rw [readBasic, (letter_of_escaped he).1]
    simp only [he]
  code cs := rfl
  digit cs hd hn := by
    rw [readBasic, hd]
    simp only [if_neg (Nat.not_le.mpr hn)]
  last cs hd he := by
    rw [readBasic, hd]
    simp only [Nat.le_refl, if_true, he]

theorem readBasic_escapeInLine_cons (c : Char) (cs : List Char) :
    readBasic (.plain false) (escapeInLine c ++ cs) = consChar c (readBasic (.plain false) cs) := by
  unfold escapeInLine
  split
  · next e => rw [e]; rfl
  split
  · next e => rw [e]; rfl
  · next hq hn => exact readsEscapes_readBasic.escape hq hn cs

theorem readBasic_escapeInLine (rest : List Char) : ∀ s : List Char,
    readBasic (.plain false) (s.flatMap escapeInLine ++ '"' :: rest) = some (s, rest)
  | [] => rfl
  | c :: s => by
    rw [List.flatMap_cons, List.append_assoc, readBasic_escapeInLine_cons,
      readBasic_escapeInLine rest s]
    rfl

theorem readLiteral_append (rest : List Char) : ∀ {s : List Char}, (∀ c ∈ s, isTextChar c = true) →
    '\x27' ∉ s → readLiteral (s ++ '\x27' :: rest) = some (s, rest)
  | [], _, _ => rfl
  | c :: s, ht, hq => by
    have hc : c ≠ '\x27' := fun e => hq (e ▸ List.mem_cons_self)
    rw [List.cons_append, readLiteral, if_neg hc, if_pos (ht c List.mem_cons_self),
      readLiteral_append rest (fun d hd => ht d (List.mem_cons_of_mem _ hd))
        (fun h => hq (List.mem_cons_of_mem _ h))]
    rfl

/-! ## Strings of several lines -/

theorem closeLong_of_head {q : Char} {rest : List Char} (h : rest.head? ≠ some q) :
    closeLong q rest = ([], rest) ∧ closeLong q (q :: rest) = ([q], rest) ∧
      closeLong q (q :: q :: rest) = ([q, q], rest) := by
  cases rest with
  | nil => simp [closeLong]
  | cons c cs =>
    have hc : c ≠ q := by simpa using h
    cases cs <;> simp [closeLong, hc]

theorem readsEscapes_readLongBasic : ReadsEscapes readLongBasic where
  text {c} cs ht hq hb := by
    have hr : c ≠ '\r' := by
      rintro rfl
      exact absurd ht (by decide)
    rw [readLongBasic.eq_def]
    simp [hq, hb, ht, hr]
  backslash cs := by rw [readLongBasic.eq_def]; simp
  letter cs he := by
    obtain ⟨hc, hn, hs, ht, hr⟩ := letter_of_escaped he
    rw [readLongBasic.eq_def]
    simp [hc, hn, hs, ht, hr, he]
  code cs := by rw [readLongBasic.eq_def]; simp [codeDigits?]
  digit cs hd hn := by
    rw [readLongBasic, hd]
    simp only [if_neg (Nat.not_le.mpr hn)]
  last cs hd he := by
    rw [readLongBasic, hd]
    simp only [Nat.le_refl, if_true, he]

theorem readLongBasic_newline (cs : List Char) :
    readLongBasic (.plain false) ('\n' :: cs) = consChar '\n' (readLongBasic (.plain false) cs) := by
  rw [readLongBasic.eq_def]
  simp

theorem readLongBasic_quote {c : Char} {cs : List Char} (hc : c ≠ '"') :
    readLongBasic (.plain false) ('"' :: c :: cs) =
      consChar '"' (readLongBasic (.plain false) (c :: cs)) := by
  rw [readLongBasic.eq_def]
  simp [hc, isTextChar]

theorem readLongBasic_quotes {c : Char} {cs : List Char} (hc : c ≠ '"') :
    readLongBasic (.plain false) ('"' :: '"' :: c :: cs) =
      consChar '"' (readLongBasic (.plain false) ('"' :: c :: cs)) := by
  rw [readLongBasic.eq_def]
  simp [hc, isTextChar]

theorem escapeLong_eq_cons {c : Char} {run : Nat} (h : c = '"' → 2 ≤ run) (s : List Char) :
    ∃ d ds, escapeLong run (c :: s) = d :: ds ∧ d ≠ '"' := by
  rw [escapeLong]
  split
  · next e => exact ⟨_, _, by rw [if_neg (Nat.not_lt.mpr (h e))]; rfl, by decide⟩
  split
  · exact ⟨_, _, rfl, by decide⟩
  · next hq hn =>
    obtain ⟨d, ds, e, hd, _⟩ := escape_eq_cons hq hn
    exact ⟨d, ds ++ escapeLong 0 s, by rw [e]; rfl, hd⟩

/-- One more quote in front of a text that is read back: it may be the first or second of the quotes
at its end. -/
theorem readLongBasic_quote_escapeLong {rest s : List Char} {run : Nat}
    (hr : rest.head? ≠ some '"') (hrun : run < 2)
    (ih : readLongBasic (.plain false) (escapeLong (run + 1) s ++ '"' :: '"' :: '"' :: rest) =
      some (s, rest)) :
    readLongBasic (.plain false) ('"' :: (escapeLong (run + 1) s ++ '"' :: '"' :: '"' :: rest)) =
      some ('"' :: s, rest) := by
  rcases s with _ | ⟨c, s⟩
  · exact congrArg some (closeLong_of_head hr).2.1
  by_cases hc : c = '"' → 2 ≤ run + 1
  · obtain ⟨d, ds, e, hd⟩ := escapeLong_eq_cons hc s
    rw [e, List.cons_append] at ih ⊢
    rw [readLongBasic_quote hd, ih]
    rfl
  · obtain ⟨rfl, hlt⟩ := Classical.not_imp.mp hc
    obtain rfl : run = 0 := by omega
    rcases s with _ | ⟨c, s⟩
    · exact congrArg some (closeLong_of_head hr).2.2
    have e : escapeLong 1 ('"' :: c :: s) = '"' :: escapeLong 2 (c :: s) := rfl
    obtain ⟨d, ds, e', hd⟩ := escapeLong_eq_cons (c := c) (fun _ => Nat.le_refl 2) s
    rw [Nat.zero_add, e, e', List.cons_append, List.cons_append] at ih ⊢
    rw [readLongBasic_quotes hd, ih]
    rfl

theorem readLongBasic_escapeLong {rest : List Char} (hr : rest.head? ≠ some '"') :
    ∀ (s : List Char) (run : Nat),
      readLongBasic (.plain false) (escapeLong run s ++ '"' :: '"' :: '"' :: rest) = some (s, rest)
  | [], _ => congrArg some (closeLong_of_head hr).1
  | c :: s, run => by
    have ih := readLongBasic_escapeLong hr s
    by_cases hq : c = '"'
    · subst hq
      by_cases hrun : run < 2
      · have e : escapeLong run ('"' :: s) = '"' :: escapeLong (run + 1) s := by
          simp [escapeLong, hrun]
        rw [e]
        exact readLongBasic_quote_escapeLong hr hrun (ih (run + 1))
      · have e : escapeLong run ('"' :: s) = '\\' :: '"' :: escapeLong (run + 1) s := by
          simp [escapeLong, hrun]
        rw [e, List.cons_append, List.cons_append, readsEscapes_readLongBasic.backslash,
          readsEscapes_readLongBasic.letter _ rfl, ih]
        rfl
    · by_cases hn : c = '\n'
      · subst hn
        have e : escapeLong run ('\n' :: s) = '\n' :: escapeLong 0 s := by simp [escapeLong]
        rw [e, List.cons_append, readLongBasic_newline, ih]
        rfl
      · rw [escapeLong, if_neg hq, if_neg hn, List.append_assoc,
          readsEscapes_readLongBasic.escape hq hn, ih]
        rfl

theorem le_longestRun (q : Char) : ∀ (run : Nat) (s : List Char), run ≤ longestRun q run s
  | _, [] => Nat.le_refl _
  | run, c :: s => by
    rw [longestRun]
    split
    · exact Nat.le_trans (Nat.le_succ run) (le_longestRun q (run + 1) s)
    · exact Nat.le_max_left ..

theorem readLongLiteral_cons {c : Char} {cs : List Char} (hc : c = '\n' ∨ isTextChar c = true)
    (hq : ∀ ds, c :: cs ≠ '\x27' :: '\x27' :: '\x27' :: ds) :
    readLongLiteral (c :: cs) = consChar c (readLongLiteral cs) := by
  have hr : c ≠ '\r' := by
    rintro rfl
    exact absurd hc (by decide)
  rw [readLongLiteral, if_pos hc]
  · exact fun ds e h => hq ds (by rw [e, h])
  · exact fun ds e => absurd e hr

theorem readLongLiteral_append {rest : List Char} (hr : rest.head? ≠ some '\x27') :
    ∀ {s : List Char} {run : Nat}, (∀ c ∈ s, c = '\n' ∨ isTextChar c = true) →
      longestRun '\x27' run s ≤ 2 →
      readLongLiteral (s ++ '\x27' :: '\x27' :: '\x27' :: rest) = some (s, rest)
  | [], _, _, _ => congrArg some (closeLong_of_head hr).1
  | c :: s, run, ht, hl => by
    have hs : ∀ d ∈ s, d = '\n' ∨ isTextChar d = true := fun d hd => ht d (List.mem_cons_of_mem _ hd)
    have hc := ht c List.mem_cons_self
    by_cases hq : c = '\x27'
    · subst hq
      have hl' : longestRun '\x27' (run + 1) s ≤ 2 := by rwa [longestRun, if_pos rfl] at hl
      have ih := readLongLiteral_append hr hs hl'
      rcases s with _ | ⟨d, s⟩
      · exact congrArg some (closeLong_of_head hr).2.1
      by_cases hd : d = '\x27'
      · subst hd
        rw [longestRun, if_pos rfl] at hl'
        rcases s with _ | ⟨e, s⟩
        · exact congrArg some (closeLong_of_head hr).2.2
        have he : e ≠ '\x27' := by
          rintro rfl
          rw [longestRun, if_pos rfl] at hl'
          have := le_longestRun '\x27' (run + 1 + 1 + 1) s
          omega
        rw [List.cons_append, readLongLiteral_cons hc, ih]
        · rfl
        · exact fun ds h => he (List.cons.inj (List.cons.inj (List.cons.inj h).2).2).1
      · rw [List.cons_append, readLongLiteral_cons hc, ih]
        · rfl
        · exact fun ds h => hd (List.cons.inj (List.cons.inj h).2).1
    · have hl' : longestRun '\x27' 0 s ≤ 2 := by
        rw [longestRun, if_neg hq] at hl
        omega
      rw [List.cons_append, readLongLiteral_cons hc, readLongLiteral_append hr hs hl']
      · rfl
      · exact fun ds e => hq (List.cons.inj e).1

/-! ## All forms -/

/-- No quote follows. -/
def NoQuote (rest : List Char) : Prop := rest.head? ≠ some '"' ∧ rest.head? ≠ some '\x27'

theorem dropLineBreak_cons {c : Char} {cs : List Char} (h : isLineBreak c = false) :
    dropLineBreak (c :: cs) = c :: cs := by
  unfold dropLineBreak
  split
  · next e => rw [(List.cons.inj e).1] at h; exact absurd h (by decide)
  · next e => rw [(List.cons.inj e).1] at h; exact absurd h (by decide)
  · rfl

theorem dropLineBreak_long {s body rest : List Char} {q : Char}
    (hb : s.contains '\n' = false → ∀ c ∈ (body ++ [q, q, q] ++ rest).head?, isLineBreak c = false) :
    dropLineBreak ((if s.contains '\n' then ['\n'] else []) ++ (body ++ [q, q, q] ++ rest)) =
      body ++ [q, q, q] ++ rest := by
  cases hs : s.contains '\n' with
  | true => rfl
  | false =>
    have h := hb hs
    rw [if_neg Bool.false_ne_true, List.nil_append]
    cases e : body ++ [q, q, q] ++ rest with
    | nil => rfl
    | cons c cs =>
      rw [e] at h
      exact dropLineBreak_cons (h c rfl)

theorem readString_basic {cs : List Char} (h : ∀ ds, cs ≠ '"' :: '"' :: ds) :
    readString ('"' :: cs) = readBasic (.plain false) cs := by
  unfold readString
  split
  · next e => exact absurd (List.cons.inj e).2 (h _)
  · next e => rw [(List.cons.inj e).2]
  · next e => exact absurd (List.cons.inj e).1 (by decide)
  · next e => exact absurd (List.cons.inj e).1 (by decide)
  · next h' _ _ => exact absurd rfl (h' cs)

theorem readString_literal {cs : List Char} (h : ∀ ds, cs ≠ '\x27' :: '\x27' :: ds) :
    readString ('\x27' :: cs) = readLiteral cs := by
  unfold readString
  split
  · next e => exact absurd (List.cons.inj e).1 (by decide)
  · next e => exact absurd (List.cons.inj e).1 (by decide)
  · next e => exact absurd (List.cons.inj e).2 (h _)
  · next e => rw [(List.cons.inj e).2]
  · next h' => exact absurd rfl (h' cs)

theorem readString_printForm_basic {rest : List Char} (hr : NoQuote rest) (s : List Char) :
    readString (printForm .basic s ++ rest) = some (s, rest) := by
  rw [printForm, List.append_assoc, List.cons_append, List.singleton_append, readString_basic,
    readBasic_escapeInLine]
  intro ds e
  cases s with
  | nil => exact hr.1 (by rw [(List.cons.inj e).2]; rfl)
  | cons c s =>
    have hc : ∃ d ds, escapeInLine c = d :: ds ∧ d ≠ '"' := by
      unfold escapeInLine
      split
      · exact ⟨_, _, rfl, by decide⟩
      split
      · exact ⟨_, _, rfl, by decide⟩
      · next hq hn =>
        obtain ⟨d, ds, e, hd, _⟩ := escape_eq_cons hq hn
        exact ⟨d, ds, e, hd⟩
    obtain ⟨d, ds', e', hd⟩ := hc
    rw [List.flatMap_cons, e'] at e
    exact hd (List.cons.inj e).1

theorem readString_printForm_longBasic {rest : List Char} (hr : NoQuote rest) (s : List Char) :
    readString (printForm .longBasic s ++ rest) = some (s, rest) := by
  have hb : s.contains '\n' = false →
      ∀ c ∈ (escapeLong 0 s ++ ['"', '"', '"'] ++ rest).head?, isLineBreak c = false := by
    intro hn c hc
    cases s with
    | nil =>
      obtain rfl : '"' = c := Option.some.inj hc
      rfl
    | cons d s =>
      have hd : d ≠ '\n' := by
        rintro rfl
        simp at hn
      by_cases hq : d = '"'
      · subst hq
        obtain rfl : '"' = c := Option.some.inj hc
        rfl
      · obtain ⟨e, es, he, _, hl⟩ := escape_eq_cons hq hd
        rw [escapeLong, if_neg hq, if_neg hd, he] at hc
        obtain rfl : e = c := Option.some.inj hc
        exact hl
  have e : printForm .longBasic s ++ rest = '"' :: '"' :: '"' ::
      ((if s.contains '\n' then ['\n'] else []) ++ (escapeLong 0 s ++ ['"', '"', '"'] ++ rest)) := by
    simp [printForm, long]
  rw [e, readString, dropLineBreak_long hb, List.append_assoc]
  exact readLongBasic_escapeLong hr.1 s 0

theorem readString_printForm_literal {rest s : List Char} (ht : ∀ c ∈ s, isTextChar c = true)
    (hq : '\x27' ∉ s) (hs : s ≠ []) :
    readString (printForm .literal s ++ rest) = some (s, rest) := by
  rw [printForm, List.append_assoc, List.cons_append, List.singleton_append, readString_literal,
    readLiteral_append rest ht hq]
  intro ds e
  obtain ⟨c, cs, rfl⟩ := List.exists_cons_of_ne_nil hs
  exact hq ((List.cons.inj e).1 ▸ List.mem_cons_self)

theorem readString_printForm_longLiteral {rest s : List Char} (hr : NoQuote rest)
    (ht : ∀ c ∈ s, needsEscape c = false) (hl : longestRun '\x27' 0 s ≤ 2) :
    readString (printForm .longLiteral s ++ rest) = some (s, rest) := by
  have ht' : ∀ c ∈ s, c = '\n' ∨ isTextChar c = true := fun c hc =>
    or_iff_not_imp_left.mpr fun hn => isTextChar_of_needsEscape (ht c hc) hn
  have hb : s.contains '\n' = false →
      ∀ c ∈ (s ++ ['\x27', '\x27', '\x27'] ++ rest).head?, isLineBreak c = false := by
    intro hn c hc
    cases s with
    | nil =>
      obtain rfl : '\x27' = c := Option.some.inj hc
      rfl
    | cons d s =>
      obtain rfl : d = c := Option.some.inj hc
      have hd : d ≠ '\n' := by
        rintro rfl
        simp at hn
      have hr : d ≠ '\r' := by
        rintro rfl
        exact absurd (ht _ List.mem_cons_self) (by decide)
      simp [isLineBreak, hd, hr]
  have e : printForm .longLiteral s ++ rest = '\x27' :: '\x27' :: '\x27' ::
      ((if s.contains '\n' then ['\n'] else []) ++ (s ++ ['\x27', '\x27', '\x27'] ++ rest)) := by
    simp [printForm, long]
  rw [e, readString, dropLineBreak_long hb, List.append_assoc]
  exact readLongLiteral_append hr.2 ht' hl

theorem needsEscape_of_any {s : List Char} (h : ¬ s.any needsEscape = true) :
    ∀ c ∈ s, needsEscape c = false := by
  simpa using h

theorem plainForm_literal {s : List Char} (h : plainForm? s = some .literal) :
    (∀ c ∈ s, isTextChar c = true) ∧ '\x27' ∉ s ∧ s ≠ [] := by
  unfold plainForm? at h
  split at h
  · exact nomatch h
  · next he =>
    split at h
    · exact nomatch h
    · next hb =>
      split at h
      · next hl =>
        simp only [Bool.and_eq_true, Bool.not_eq_true', List.contains_eq_mem,
          decide_eq_false_iff_not] at hl
        refine ⟨fun c hc => isTextChar_of_needsEscape (needsEscape_of_any he c hc) ?_, hl.2, ?_⟩
        · rintro rfl
          exact hl.1 hc
        · rintro rfl
          exact hb rfl
      · split at h <;> try split at h
        all_goals exact nomatch h

theorem plainForm_longLiteral {s : List Char} (h : plainForm? s = some .longLiteral) :
    (∀ c ∈ s, needsEscape c = false) ∧ longestRun '\x27' 0 s ≤ 2 := by
  unfold plainForm? at h
  split at h
  · exact nomatch h
  · next he =>
    split at h
    · exact nomatch h
    split at h
    · exact nomatch h
    split at h
    · exact nomatch h
    split at h
    · next hl => exact ⟨needsEscape_of_any he, of_decide_eq_true hl⟩
    · exact nomatch h

/-- **Every string is read back from the form that is chosen for it.** -/
theorem readString_printString {rest : List Char} (hr : NoQuote rest) (s : List Char) :
    readString (printString s ++ rest) = some (s, rest) := by
  unfold printString formOf
  cases h : plainForm? s with
  | none =>
    rw [Option.getD_none]
    split
    · exact readString_printForm_longBasic hr s
    · exact readString_printForm_basic hr s
  | some form =>
    rw [Option.getD_some]
    cases form with
    | basic => exact readString_printForm_basic hr s
    | literal =>
      obtain ⟨ht, hq, hs⟩ := plainForm_literal h
      exact readString_printForm_literal ht hq hs
    | longBasic => exact readString_printForm_longBasic hr s
    | longLiteral =>
      obtain ⟨ht, hl⟩ := plainForm_longLiteral h
      exact readString_printForm_longLiteral hr ht hl

end ModelTypings.Toml
