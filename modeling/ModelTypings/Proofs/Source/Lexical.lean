import Mathlib.Logic.Relation
import ModelTypings.Proofs.Source.Concatenation

/-!
# Strings and brackets left open

The lexical rules of strings, comments and brackets as steps of a cursor over a text, and what the
carry from line to line makes of them.

* `Cursor`, `Cursor.Step`, `Cursor.Reads`: a text read item by item;
* `Cursor.HidesDelimiter`: a backslash that hides the delimiter of a triple-quoted string;
* `Cursor.carry`, `Cursor.Step.carry_eq`: an item read leaves the carry of the whole as it is;
* **`foldl_feed_of_reads`**: the carry is the open string and the number of open brackets, if no
  delimiter is hidden;
* `not_hidesDelimiter_of_lines`: a condition on the lines alone under which none is hidden.
-/

namespace ModelTypings.Source

open Text Relation

/-! ## The lexical rules -/

/-- The bracket that closes an opening one. -/
def closing? : Char → Option Char
  | '(' => some ')'
  | '[' => some ']'
  | '\x7b' => some '\x7d'
  | _ => none

/-- The characters of code that start a comment or a string, or are brackets. -/
def specials : List Char := ['#', '"', '\x27', '(', ')', '[', ']', '\x7b', '\x7d']

/-- A place in a text of several lines. -/
structure Cursor where
  /-- In code, in a string of one line or in a triple-quoted string. -/
  mode : Mode
  /-- The brackets not closed yet, the innermost first. -/
  opened : List Char
  /-- What is left of the line. -/
  rest : List Char
  /-- The lines below it. -/
  below : List (List Char)

namespace Cursor

/-- One item read. A string of one line cannot go on below it, and a bracket is closed by its own
partner only. In every string a backslash makes the next character literal. -/
inductive Step : Cursor → Cursor → Prop
  | newline {m : Mode} {o : List Char} {l : List Char} {ls : List (List Char)}
      (h : ∀ q, m ≠ .short q) : Step ⟨m, o, [], l :: ls⟩ ⟨m, o, l, ls⟩
  | plain {o cs : List Char} {c : Char} {ls : List (List Char)}
      (h : c ∉ specials) : Step ⟨.code, o, c :: cs, ls⟩ ⟨.code, o, cs, ls⟩
  | comment {o cs : List Char} {ls : List (List Char)} :
      Step ⟨.code, o, '#' :: cs, ls⟩ ⟨.code, o, [], ls⟩
  | opening {o cs : List Char} {c : Char} {ls : List (List Char)}
      (h : (closing? c).isSome) : Step ⟨.code, o, c :: cs, ls⟩ ⟨.code, c :: o, cs, ls⟩
  | closing {o cs : List Char} {b c : Char} {ls : List (List Char)}
      (h : closing? b = some c) : Step ⟨.code, b :: o, c :: cs, ls⟩ ⟨.code, o, cs, ls⟩
  | shortOpen {o cs : List Char} {q : Char} {ls : List (List Char)}
      (hq : isQuote q) (h : ¬ [q, q] <+: cs) :
      Step ⟨.code, o, q :: cs, ls⟩ ⟨.short q, o, cs, ls⟩
  | shortText {o cs : List Char} {q c : Char} {ls : List (List Char)}
      (hq : c ≠ q) (h : c ≠ '\\') : Step ⟨.short q, o, c :: cs, ls⟩ ⟨.short q, o, cs, ls⟩
  | shortEscape {o cs : List Char} {q c : Char} {ls : List (List Char)} :
      Step ⟨.short q, o, '\\' :: c :: cs, ls⟩ ⟨.short q, o, cs, ls⟩
  | shortClose {o cs : List Char} {q : Char} {ls : List (List Char)} :
      Step ⟨.short q, o, q :: cs, ls⟩ ⟨.code, o, cs, ls⟩
  | longOpen {o cs : List Char} {q : Char} {ls : List (List Char)} (hq : isQuote q) :
      Step ⟨.code, o, q :: q :: q :: cs, ls⟩ ⟨.long q, o, cs, ls⟩
  | longText {o cs : List Char} {q c : Char} {ls : List (List Char)}
      (hq : ¬ [q, q, q] <+: c :: cs) (h : c ≠ '\\') :
      Step ⟨.long q, o, c :: cs, ls⟩ ⟨.long q, o, cs, ls⟩
  | longEscape {o cs : List Char} {q c : Char} {ls : List (List Char)} :
      Step ⟨.long q, o, '\\' :: c :: cs, ls⟩ ⟨.long q, o, cs, ls⟩
  | longEscapeEnd {o : List Char} {q : Char} {ls : List (List Char)} :
      Step ⟨.long q, o, ['\\'], ls⟩ ⟨.long q, o, [], ls⟩
  | longClose {o cs : List Char} {q : Char} {ls : List (List Char)} :
      Step ⟨.long q, o, q :: q :: q :: cs, ls⟩ ⟨.code, o, cs, ls⟩

/-- Some items read. -/
abbrev Reads : Cursor → Cursor → Prop := ReflTransGen Step

end Cursor

/-- Where a line starts after lines that leave a triple-quoted string open, or none. -/
def Mode.ofString : Option Char → Mode
  | some q => .long q
  | none => .code

namespace Cursor

/-- Above the first line. -/
def start (ls : List (List Char)) : Cursor := ⟨.code, [], [], ls⟩

/-- At the end, inside a triple-quoted string or in none. -/
def stop (string : Option Char) (opened : List Char) : Cursor := ⟨.ofString string, opened, [], []⟩

/-- The next item is a backslash in a triple-quoted string that hides a delimiter. -/
def HidesDelimiter (x : Cursor) : Prop :=
  ∃ q cs, x.mode = .long q ∧ x.rest = '\\' :: q :: q :: q :: cs

end Cursor

/-! ## The scanner on single items -/

theorem scan_long_delimiter (q : Char) (d : Int) (cs : List Char) :
    scan (.long q) d (q :: q :: q :: cs) = scan .code d cs := by
  rw [scan, if_pos ⟨rfl, rfl, rfl⟩]

theorem scan_long_cons {q c : Char} (d : Int) {cs : List Char} (h : ¬ [q, q, q] <+: c :: cs) :
    scan (.long q) d (c :: cs) = scan (.long q) d cs := by
  match cs with
  | [] | [_] => rfl
  | a :: b :: cs =>
    have hn : ¬ (c = q ∧ a = q ∧ b = q) := by
      rintro ⟨rfl, rfl, rfl⟩
      exact h ⟨cs, rfl⟩
    rw [scan, if_neg hn]

theorem scan_short_escape (q c : Char) (d : Int) (cs : List Char) :
    scan (.short q) d ('\\' :: c :: cs) = scan (.short q) d cs := by
  rw [scan]

theorem scan_short_quote {q : Char} (hq : q ≠ '\\') (d : Int) (cs : List Char) :
    scan (.short q) d (q :: cs) = scan .code d cs := by
  rw [scan, if_pos rfl]
  · exact fun e => absurd e hq
  · exact fun _ _ e => absurd e hq

theorem scan_short_cons {q c : Char} (hq : c ≠ q) (hc : c ≠ '\\') (d : Int) (cs : List Char) :
    scan (.short q) d (c :: cs) = scan (.short q) d cs := by
  rw [scan, if_neg hq]
  · exact fun e => absurd e hc
  · exact fun _ _ e => absurd e hc

theorem isQuote_iff {c : Char} : isQuote c ↔ c = '"' ∨ c = '\x27' := by
  simp only [isQuote, Bool.or_eq_true, beq_iff_eq]

theorem ne_comment_of_isQuote {q : Char} (hq : isQuote q) : q ≠ '#' := by
  rintro rfl
  exact absurd hq (by decide)

theorem ne_escape_of_isQuote {q : Char} (hq : isQuote q) : q ≠ '\\' := by
  rintro rfl
  exact absurd hq (by decide)

theorem scan_code_delimiter {q : Char} (hq : isQuote q) (d : Int) (cs : List Char) :
    scan .code d (q :: q :: q :: cs) = scan (.long q) d cs := by
  simp [scan, ne_comment_of_isQuote hq, hq]

theorem scan_code_quote {q : Char} (hq : isQuote q) (d : Int) {cs : List Char}
    (h : ¬ [q, q] <+: cs) : scan .code d (q :: cs) = scan (.short q) d cs := by
  have hc := ne_comment_of_isQuote hq
  match cs with
  | [] => simp [scan, hc, hq]
  | [a] =>
    -- the scanner does not look into a string with one character left
    have hcode : scan .code d [q, a] = (.code, d) := by simp [scan, hc, hq]
    by_cases ha : a = '\\'
    · rw [hcode, ha, scan]
    · by_cases haq : a = q
      · rw [hcode, haq, scan_short_quote (ne_escape_of_isQuote hq), scan]
      · rw [hcode, scan_short_cons haq ha, scan]
  | a :: b :: cs =>
    have hn : ¬ (a = q ∧ b = q) := by
      rintro ⟨rfl, rfl⟩
      exact h ⟨cs, rfl⟩
    simp [scan, hc, hq, hn]

/-! ## The carry at a cursor -/

/-- What a line leaves open whose scan has ended. -/
def Carry.ofScan : Mode × Int → Carry
  | (.long q, d) => ⟨some q, d.toNat⟩
  | (_, d) => ⟨none, d.toNat⟩

theorem Carry.feed_eq (c : Carry) (line : List Char) :
    c.feed line = .ofScan (scan (.ofString c.string) c.brackets line) := by
  obtain ⟨string, brackets⟩ := c
  cases string <;> rfl

theorem feed_trimStart {c : Carry} (hc : c.isOpen = false) (line : List Char) :
    c.feed (trimStart line) = c.feed line := by
  obtain rfl := Carry.eq_of_isOpen hc
  rw [Carry.feed_eq, Carry.feed_eq]
  exact congrArg Carry.ofScan (scan_trimStart 0 line).symm

theorem scan_code_blanks {w : List Char} (hw : ∀ c ∈ w, isBlank c = true) (d : Int)
    (more : List Char) : scan .code d (w ++ more) = scan .code d more := by
  rw [scan_trimStart, scan_trimStart d more, trimStart_blanks_append hw]

namespace Cursor

/-- The carry at the end of the text, from what is left of it. -/
def carry (x : Cursor) : Carry :=
  x.below.foldl Carry.feed (.ofScan (scan x.mode x.opened.length x.rest))

/-- Strings are opened by quotes. -/
def IsSound (x : Cursor) : Prop := ∀ q, x.mode = .short q ∨ x.mode = .long q → isQuote q

theorem Step.isSound {x y : Cursor} (h : Step x y) (hx : x.IsSound) : y.IsSound := by
  cases h with
  | shortOpen hq | longOpen hq =>
    intro p hp
    obtain rfl : _ = p := by simpa using hp
    exact hq
  | newline | shortText | shortEscape | longText | longEscape | longEscapeEnd => exact hx
  | plain | comment | opening | closing | shortClose | longClose =>
    intro p hp
    simp at hp

theorem nesting_of_opening {c : Char} (h : (closing? c).isSome) : nesting c = 1 := by
  unfold closing? at h
  split at h
  · rfl
  · rfl
  · rfl
  · simp at h

theorem nesting_of_closing {b c : Char} (h : closing? b = some c) : nesting c = -1 := by
  unfold closing? at h
  split at h
  · obtain rfl := Option.some.inj h
    rfl
  · obtain rfl := Option.some.inj h
    rfl
  · obtain rfl := Option.some.inj h
    rfl
  · exact nomatch h

theorem scan_code_bracket {c : Char} (d : Int) (cs : List Char) (h : nesting c ≠ 0) :
    scan .code d (c :: cs) = scan .code (d + nesting c) cs := by
  refine scan_code_cons d cs ?_ ?_
  · rintro rfl
    exact h rfl
  · by_contra hq
    rcases isQuote_iff.mp (Bool.not_eq_false _ ▸ hq) with rfl | rfl
    · exact h rfl
    · exact h rfl

theorem scan_code_plain {c : Char} (d : Int) (cs : List Char) (h : c ∉ specials) :
    scan .code d (c :: cs) = scan .code d cs := by
  simp only [specials, List.mem_cons, List.not_mem_nil, or_false, not_or] at h
  obtain ⟨hc, hq, hq', h1, h2, h3, h4, h5, h6⟩ := h
  rw [scan_code_cons d cs hc (by simp [isQuote, hq, hq'])]
  simp [nesting, h1, h2, h3, h4, h5, h6]

theorem feed_ofScan_nil {m : Mode} (h : ∀ q, m ≠ .short q) (n : Nat) (line : List Char) :
    (Carry.ofScan (scan m n [])).feed line = .ofScan (scan m n line) := by
  cases m with
  | code => rw [Carry.feed_eq]; rfl
  | short q => exact absurd rfl (h q)
  | long q => rw [Carry.feed_eq]; rfl

/-- **An item read leaves the carry of the whole as it is**, if it is no backslash that hides a
delimiter. -/
theorem Step.carry_eq {x y : Cursor} (h : Step x y) (hx : x.IsSound) (hh : ¬ x.HidesDelimiter) :
    x.carry = y.carry := by
  cases h with
  | newline h =>
    simp only [carry, List.foldl_cons]
    rw [feed_ofScan_nil h]
  | plain h =>
    simp only [carry]
    rw [scan_code_plain _ _ h]
  | comment =>
    simp only [carry]
    rw [scan_comment, scan]
  | opening h =>
    have hn := nesting_of_opening h
    simp only [carry]
    rw [scan_code_bracket _ _ (by omega), hn, List.length_cons, Int.natCast_add]
    rfl
  | closing h =>
    have hn := nesting_of_closing h
    simp only [carry]
    rw [scan_code_bracket _ _ (by omega), hn, List.length_cons, Int.natCast_add]
    exact congrArg (List.foldl _ · _) (by rw [Int.natCast_one, Int.add_neg_cancel_right])
  | shortOpen hq h =>
    simp only [carry]
    rw [scan_code_quote hq _ h]
  | shortText hq h =>
    simp only [carry]
    rw [scan_short_cons hq h]
  | shortEscape =>
    simp only [carry]
    rw [scan_short_escape]
  | shortClose =>
    simp only [carry]
    rw [scan_short_quote (ne_escape_of_isQuote (hx _ (Or.inl rfl)))]
  | longOpen hq =>
    simp only [carry]
    rw [scan_code_delimiter hq]
  | longText hq h =>
    simp only [carry]
    rw [scan_long_cons _ hq]
  | @longEscape o cs q c ls =>
    -- neither the backslash nor, as it hides no delimiter, the character after it starts one
    have hq := ne_escape_of_isQuote (hx q (Or.inr rfl))
    have h1 : ¬ [q, q, q] <+: '\\' :: c :: cs := by
      rintro ⟨ds, e⟩
      exact hq (List.cons.inj e).1
    have h2 : ¬ [q, q, q] <+: c :: cs := by
      rintro ⟨ds, e⟩
      exact hh ⟨q, ds, rfl, congrArg _ e.symm⟩
    simp only [carry]
    rw [scan_long_cons _ h1, scan_long_cons _ h2]
  | longEscapeEnd => rfl
  | longClose =>
    simp only [carry]
    rw [scan_long_delimiter]

end Cursor

/-- **The carry follows the lexical rules.** A text that can be read up to its end leaves open the
triple-quoted string and the brackets that reading it leaves open, if no backslash in a
triple-quoted string hides a delimiter. -/
theorem foldl_feed_of_reads {ls : List (List Char)} {string : Option Char} {opened : List Char}
    (hreads : Cursor.Reads (.start ls) (.stop string opened))
    (hplain : ∀ x, Cursor.Reads (.start ls) x → ¬ x.HidesDelimiter) :
    ls.foldl Carry.feed {} = ⟨string, opened.length⟩ := by
  have hstep : ∀ {x y : Cursor}, Cursor.Reads x y → x.IsSound →
      (∀ z, Cursor.Reads x z → ¬ z.HidesDelimiter) → x.carry = y.carry := by
    intro x y h
    induction h using ReflTransGen.head_induction_on with
    | refl => exact fun _ _ => rfl
    | head h _ ih =>
      intro hx hh
      rw [h.carry_eq hx (hh _ .refl)]
      exact ih (h.isSound hx) fun z hz => hh z (.head h hz)
  have hstart : (Cursor.start ls).IsSound := fun q hq => by simp [Cursor.start] at hq
  have hend : (Cursor.stop string opened).carry = ⟨string, opened.length⟩ := by
    cases string <;> rfl
  exact (hstep hreads hstart hplain).trans hend

/-! ## Texts without hidden delimiters -/

namespace Cursor

theorem Step.rest_isSuffix {x y : Cursor} (h : Step x y) :
    (y.rest <:+ x.rest ∧ y.below = x.below) ∨ x.below = y.rest :: y.below := by
  cases h with
  | newline => exact Or.inr rfl
  | comment | longEscapeEnd => exact Or.inl ⟨List.nil_suffix, rfl⟩
  | shortEscape | longEscape =>
    exact Or.inl ⟨(List.suffix_cons _ _).trans (List.suffix_cons _ _), rfl⟩
  | longOpen | longClose =>
    exact Or.inl ⟨((List.suffix_cons _ _).trans (List.suffix_cons _ _)).trans
      (List.suffix_cons _ _), rfl⟩
  | _ => exact Or.inl ⟨List.suffix_cons _ _, rfl⟩

theorem Reads.rest_isSuffix {ls : List (List Char)} {x : Cursor} (h : Reads (.start ls) x) :
    (x.rest = [] ∨ ∃ line ∈ ls, x.rest <:+ line) ∧ x.below ⊆ ls := by
  induction h with
  | refl => exact ⟨Or.inl rfl, fun _ => id⟩
  | @tail x y _ hstep ih =>
    obtain ⟨hrest, hbelow⟩ := ih
    rcases hstep.rest_isSuffix with ⟨hs, hb⟩ | hb
    · refine ⟨?_, hb ▸ hbelow⟩
      rcases hrest with hnil | ⟨line, hline, hsuffix⟩
      · rw [hnil] at hs
        exact Or.inl (List.suffix_nil.mp hs)
      · exact Or.inr ⟨line, hline, hs.trans hsuffix⟩
    · rw [hb, List.cons_subset] at hbelow
      exact ⟨Or.inr ⟨y.rest, hbelow.1, List.suffix_rfl⟩, hbelow.2⟩

theorem Reads.isSound {ls : List (List Char)} {x : Cursor} (h : Reads (.start ls) x) :
    x.IsSound := by
  induction h with
  | refl => exact fun q hq => by simp [start] at hq
  | tail _ hstep ih => exact hstep.isSound ih

end Cursor

/-- No delimiter is hidden in lines that have no backslash in front of three equal quotes. -/
theorem not_hidesDelimiter_of_lines {ls : List (List Char)}
    (h : ∀ line ∈ ls, ∀ q, isQuote q → ¬ ['\\', q, q, q] <:+: line) {x : Cursor}
    (hx : Cursor.Reads (.start ls) x) : ¬ x.HidesDelimiter := by
  rintro ⟨q, cs, hmode, hrest⟩
  obtain ⟨hnil | ⟨line, hline, hsuffix⟩, _⟩ := hx.rest_isSuffix
  · rw [hrest] at hnil
    exact nomatch hnil
  · refine h line hline q (hx.isSound q (Or.inr hmode)) ?_
    rw [hrest] at hsuffix
    exact (List.IsPrefix.isInfix ⟨cs, rfl⟩).trans hsuffix.isInfix

/-- An open bracket, a string with an escaped quote, and below them the start of a triple-quoted
string. -/
theorem foldl_feed_of_reads_unfinished :
    Cursor.Reads (.start [['(', '"', '\\', '"', '"'], ['\x27', '\x27', '\x27']])
        (.stop (some '\x27') ['(']) ∧
      [['(', '"', '\\', '"', '"'], ['\x27', '\x27', '\x27']].foldl Carry.feed {} =
        ⟨some '\x27', 1⟩ := by
  have hreads : Cursor.Reads (.start [['(', '"', '\\', '"', '"'], ['\x27', '\x27', '\x27']])
      (.stop (some '\x27') ['(']) := by
    refine .head (.newline (by simp)) ?_
    refine .head (.opening (by decide)) ?_
    refine .head (.shortOpen (by decide) (by decide)) ?_
    refine .head .shortEscape ?_
    refine .head .shortClose ?_
    refine .head (.newline (by simp)) ?_
    exact .single (.longOpen (by decide))
  refine ⟨hreads, foldl_feed_of_reads hreads fun x hx => not_hidesDelimiter_of_lines ?_ hx⟩
  intro line hline q hq
  simp only [List.mem_cons, List.not_mem_nil, or_false] at hline
  rcases isQuote_iff.mp hq with rfl | rfl <;> rcases hline with rfl | rfl <;> decide

/-- **A hidden delimiter ends its string for the carry.** Below the second line no string is open,
but the carry takes the one that ends there for one that starts. -/
theorem not_foldl_feed_of_hidden :
    ¬ ∀ (ls : List (List Char)) (string : Option Char) (opened : List Char),
      Cursor.Reads (.start ls) (.stop string opened) →
        ls.foldl Carry.feed {} = ⟨string, opened.length⟩ := by
  intro h
  have hreads : Cursor.Reads
      (.start [['"', '"', '"', '\\', '"', '"', '"'], ['"', '"', '"']]) (.stop none []) := by
    refine .head (.newline (by simp)) ?_
    refine .head (.longOpen (by decide)) ?_
    refine .head .longEscape ?_
    refine .head (.longText (by decide) (by decide)) ?_
    refine .head (.longText (by decide) (by decide)) ?_
    refine .head (.newline (by simp)) ?_
    exact .single .longClose
  have hfeed : [['"', '"', '"', '\\', '"', '"', '"'], ['"', '"', '"']].foldl Carry.feed {} =
      ⟨some '"', 0⟩ := by decide
  exact absurd ((h _ none [] hreads).symm.trans hfeed) (by decide)

end ModelTypings.Source
