import ModelTypings.Proofs.Source.Arguments
import ModelTypings.Proofs.Source.Splitting
import ModelTypings.Proofs.Text.Bytes

/-!
# Lines scanned byte by byte

The scanners of a line go from byte to byte by an index. An escape steps over two bytes, which may
end inside a character or behind the line. Each index, each slice and each counter is guarded here:
what is out of bounds gives nothing.

* **`eq_behind_wide`**: no scan stops inside a character of several bytes;
* `skipString`, `skipString_eq`: the index behind a string of one line;
* `splitFrom?`, **`statements?_eq`**: the statements of a line;
* `feedFrom?`, **`Carry.feed?_eq`**: what a line leaves open.
-/

namespace ModelTypings.Source

open Text
open String (utf8Len)

/-! ## Bytes of characters -/

section Byte

variable {b c : Char} (h : b = c ∨ IsWide c ∧ IsWide b)

include h

theorem isQuote_byte : isQuote b = isQuote c := by
  have hdouble : b = '"' ↔ c = '"' := byte_eq_iff h (by decide)
  have hsingle : b = '\x27' ↔ c = '\x27' := byte_eq_iff h (by decide)
  rw [Bool.eq_iff_iff, isQuote_iff, isQuote_iff, hdouble, hsingle]

theorem nesting_byte : nesting b = nesting c := by
  have hascii : ∀ d : Char, d.toNat < 128 → (b = d ↔ c = d) := fun _ => byte_eq_iff h
  simp only [nesting, hascii '(' (by decide), hascii '[' (by decide), hascii '\x7b' (by decide),
    hascii ')' (by decide), hascii ']' (by decide), hascii '\x7d' (by decide)]

end Byte

theorem nesting_of_isWide {c : Char} (h : IsWide c) : nesting c = 0 := by
  have hne : ∀ d : Char, d.toNat < 128 → c ≠ d := fun _ => ne_of_isWide h
  simp only [nesting, hne '(' (by decide), hne '[' (by decide), hne '\x7b' (by decide),
    hne ')' (by decide), hne ']' (by decide), hne '\x7d' (by decide), or_self, if_false]

theorem isQuote_of_isWide {c : Char} (h : IsWide c) : isQuote c = false := by
  have hdouble : c ≠ '"' := ne_of_isWide h (by decide)
  have hsingle : c ≠ '\x27' := ne_of_isWide h (by decide)
  simp [isQuote, hdouble, hsingle]

theorem toNat_of_isQuote {q : Char} (hq : isQuote q) : q.toNat < 128 := by
  rcases isQuote_iff.mp hq with rfl | rfl <;> decide

theorem natAbs_nesting_le (c : Char) : (nesting c).natAbs ≤ 1 := by
  unfold nesting
  split
  · decide
  · split <;> decide

theorem getElem_of_drop {bytes rest : List Char} {c : Char} {i : Nat}
    (h : bytes.drop i = c :: rest) :
    ∃ hi : i < bytes.length, bytes[i] = c ∧ bytes.drop (i + 1) = rest := by
  have hi : i < bytes.length := by
    by_contra hi
    rw [List.drop_eq_nil_of_le (Nat.le_of_not_lt hi)] at h
    exact nomatch h
  rw [List.drop_eq_getElem_cons hi] at h
  obtain ⟨hc, hrest⟩ := List.cons.inj h
  exact ⟨hi, hc, hrest⟩

theorem length_of_drop {bytes s : List Char} {i : Nat} (h : bytes.drop i = bytesOf s)
    (hi : i ≤ bytes.length) : bytes.length = i + utf8Len s := by
  have hlen := congrArg List.length h
  rw [List.length_drop, length_bytesOf] at hlen
  omega

theorem drop_add_of_drop {bytes xs ys : List Char} {i : Nat} (h : bytes.drop i = xs ++ ys) :
    bytes.drop (i + xs.length) = ys := by
  rw [← List.drop_drop, h, List.drop_left]

/-- **Bytes that are none of ASCII are passed over** by a scan that passes over each of them. -/
theorem eq_behind_wide {β : Type} {scanFrom : Nat → β} {bytes : List Char}
    (hstep : ∀ i w rest, IsWide w → bytes.drop i = w :: rest → scanFrom i = scanFrom (i + 1)) :
    ∀ {ws rest : List Char} {i : Nat}, (∀ w ∈ ws, IsWide w) → bytes.drop i = ws ++ rest →
      scanFrom i = scanFrom (i + ws.length)
  | [], _, _, _, _ => rfl
  | w :: ws, rest, i, hw, h => by
    obtain ⟨hwide, hw⟩ := List.forall_mem_cons.mp hw
    obtain ⟨-, -, hrest⟩ := getElem_of_drop h
    rw [hstep i w (ws ++ rest) hwide h, eq_behind_wide hstep hw hrest, List.length_cons,
      Nat.add_assoc, Nat.add_comm 1]

/-! ## Strings of one line -/

/-- The index behind the quote that closes a string of one line, from the index `i` in it. -/
def skipString (bytes : List Char) (quote : Char) (i : Nat) : Nat :=
  if h : i < bytes.length then
    if bytes[i] = '\\' then skipString bytes quote (i + 2)
    else if bytes[i] = quote then i + 1
    else skipString bytes quote (i + 1)
  else bytes.length
termination_by bytes.length - i

theorem le_skipString (bytes : List Char) (quote : Char) (i : Nat) (hi : i ≤ bytes.length) :
    i ≤ skipString bytes quote i := by
  fun_induction skipString bytes quote i with
  | case1 i h hc ih =>
    by_cases hlast : i + 2 ≤ bytes.length
    · exact (Nat.le_add_right i 2).trans (ih hlast)
    · rw [skipString, dif_neg (by omega)]
      exact hi
  | case2 => exact Nat.le_succ _
  | case3 i h _ _ ih => exact (Nat.le_succ i).trans (ih h)
  | case4 => exact hi

/-- A string of one line up to its quote, and what comes behind it. -/
def takeString (quote : Char) : List Char → List Char × List Char
  | [] => ([], [])
  | ['\\'] => (['\\'], [])
  | '\\' :: e :: s => ('\\' :: e :: (takeString quote s).1, (takeString quote s).2)
  | c :: s =>
    if c = quote then ([c], s) else (c :: (takeString quote s).1, (takeString quote s).2)

variable {q : Char}

theorem takeString_append (q : Char) (s : List Char) :
    (takeString q s).1 ++ (takeString q s).2 = s := by
  fun_induction takeString q s with
  | case1 | case2 | case4 => rfl
  | case3 e s ih => rw [List.cons_append, List.cons_append, ih]
  | case5 c s _ _ _ ih => rw [List.cons_append, ih]

theorem length_takeString_le (q : Char) (s : List Char) : (takeString q s).2.length ≤ s.length := by
  have h := congrArg List.length (takeString_append q s)
  rw [List.length_append] at h
  omega

theorem skipString_wide (hq : q.toNat < 128) {bytes ws rest : List Char} {i : Nat}
    (hw : ∀ w ∈ ws, IsWide w) (h : bytes.drop i = ws ++ rest) :
    skipString bytes q i = skipString bytes q (i + ws.length) := by
  refine eq_behind_wide (fun i w rest hwide h => ?_) hw h
  obtain ⟨hi, hc, -⟩ := getElem_of_drop h
  rw [skipString, dif_pos hi, hc, if_neg (ne_of_isWide hwide (by decide)),
    if_neg (ne_of_isWide hwide hq)]

/-- **The index behind a string of one line** is that of the character behind it, also if a
backslash stands before a character of several bytes or at the end of the line. -/
theorem skipString_eq (hq : q.toNat < 128) (hne : q ≠ '\\') {bytes : List Char} (s : List Char) :
    ∀ {i : Nat}, bytes.drop i = bytesOf s → i ≤ bytes.length →
      skipString bytes q i = i + utf8Len (takeString q s).1 := by
  fun_induction takeString q s with
  | case1 =>
    intro i h hi
    have hlen := length_of_drop h hi
    rw [skipString, dif_neg (by rw [hlen]; exact Nat.lt_irrefl _)]
    exact hlen
  | case2 =>
    intro i h hi
    have hlen := length_of_drop h hi
    rw [bytesOf_ascii (by decide)] at h
    obtain ⟨hi', hc, -⟩ := getElem_of_drop h
    have hsize : utf8Len ['\\'] = 1 := rfl
    rw [skipString, dif_pos hi', if_pos hc, skipString, dif_neg (by omega)]
    exact hlen
  | case3 e s ih =>
    intro i h hi
    have hlen := length_of_drop h hi
    obtain ⟨b, bs, he, hsize, -, hwide⟩ := bytesOf_cons e s
    rw [bytesOf_ascii (by decide), he] at h
    obtain ⟨hi', hc, hafter⟩ := getElem_of_drop h
    obtain ⟨-, -, hrest⟩ := getElem_of_drop hafter
    have hstep := skipString_wide hq hwide hrest
    have hescape : utf8Len ('\\' :: e :: s) = utf8Len s + e.utf8Size + 1 := rfl
    rw [skipString, dif_pos hi', if_pos hc, hstep, ih (drop_add_of_drop hrest) (by omega),
      String.utf8Len_cons, String.utf8Len_cons, hsize]
    have hone : '\\'.utf8Size = 1 := rfl
    omega
  | case4 c s =>
    intro i h hi
    rw [bytesOf_ascii hq] at h
    obtain ⟨hi', hc, -⟩ := getElem_of_drop h
    have hone : utf8Len [q] = 1 := utf8Size_of_ascii hq ▸ Nat.zero_add _
    rw [skipString, dif_pos hi', hc, if_neg hne, if_pos rfl, hone]
  | case5 c s hlone hescape hcq ih =>
    intro i h hi
    have hlen := length_of_drop h hi
    have hback : c ≠ '\\' := ne_escape_of_cases hlone hescape
    obtain ⟨b, bs, he, hsize, hb, hwide⟩ := bytesOf_cons c s
    rw [he] at h
    obtain ⟨hi', hc, hrest⟩ := getElem_of_drop h
    have hstep := skipString_wide hq hwide hrest
    have hbq : b ≠ q := fun e => hcq ((byte_eq_iff hb hq).mp e)
    have hbb : b ≠ '\\' := fun e => hback ((byte_eq_iff hb (by decide)).mp e)
    rw [String.utf8Len_cons] at hlen
    rw [skipString, dif_pos hi', hc, if_neg hbb, if_neg hbq, hstep,
      ih (drop_add_of_drop hrest) (by omega), String.utf8Len_cons, hsize]
    omega

/-! ## The statements of a line -/

/-- The piece of a line from the index `start` on, where the scan ends at the index `i`. -/
def lastPiece? (text : List Char) (start i : Nat) : Option (List (List Char)) :=
  (slice? text start (min i (bytesOf text).length)).map fun piece => [piece]

/-- The pieces of a line from the index `start` on, scanned from the index `i` on. -/
def splitFrom? (text : List Char) (start : Nat) (depth : Int) (i : Nat) :
    Option (List (List Char)) :=
  if h : i < (bytesOf text).length then
    if (bytesOf text)[i] = '#' then lastPiece? text start i
    else if isQuote (bytesOf text)[i] then
      splitFrom? text start depth (skipString (bytesOf text) (bytesOf text)[i] (i + 1))
    else if (bytesOf text)[i] = ';' ∧ depth = 0 then do
      let piece ← slice? text start i
      let more ← splitFrom? text (i + 1) depth (i + 1)
      some (piece :: more)
    else do
      let depth ← counter? (depth + nesting (bytesOf text)[i])
      splitFrom? text start depth (i + 1)
  else lastPiece? text start i
termination_by (bytesOf text).length - i
decreasing_by
  · have := le_skipString (bytesOf text) (bytesOf text)[i] (i + 1) h
    omega
  · omega
  · omega

/-- The statements of a line, in order. -/
def statements? (line : List Char) : Option (List (List Char)) :=
  (splitFrom? line 0 0 0).map fun ps => (ps.map trim).filter fun s => !s.isEmpty

theorem pieces_takeString (d : Int) (q : Char) (s : List Char) : pieces d (some q) s =
    (takeString q s).1.foldr consFirst (pieces d none (takeString q s).2) := by
  fun_induction takeString q s with
  | case1 => rw [pieces, pieces]; rfl
  | case2 => rw [pieces, pieces]; rfl
  | case3 e s ih => rw [pieces, ih]; rfl
  | case4 s hlone hescape =>
    rw [pieces_string_cons d (ne_escape_of_cases hlone hescape), if_pos rfl]
    rfl
  | case5 c s hlone hescape hcq ih =>
    rw [pieces_string_cons d (ne_escape_of_cases hlone hescape), if_neg hcq, ih]
    rfl

section Split

variable {text : List Char} {start i : Nat} {depth : Int}

theorem splitFrom?_end (h : (bytesOf text).drop i = []) :
    splitFrom? text start depth i = lastPiece? text start i := by
  rw [splitFrom?, dif_neg]
  exact Nat.not_lt.mpr (List.drop_eq_nil_iff.mp h)

theorem splitFrom?_byte {b : Char} {rest : List Char} (h : (bytesOf text).drop i = b :: rest) :
    splitFrom? text start depth i =
      if b = '#' then lastPiece? text start i
      else if isQuote b then splitFrom? text start depth (skipString (bytesOf text) b (i + 1))
      else if b = ';' ∧ depth = 0 then
        (slice? text start i).bind fun piece =>
          (splitFrom? text (i + 1) depth (i + 1)).bind fun more => some (piece :: more)
      else (counter? (depth + nesting b)).bind fun depth =>
        splitFrom? text start depth (i + 1) := by
  obtain ⟨hi, hb, -⟩ := getElem_of_drop h
  rw [splitFrom?, dif_pos hi, hb]
  rfl

theorem splitFrom?_wide {ws rest : List Char} (hd : counter? depth = some depth)
    (hw : ∀ w ∈ ws, IsWide w) (h : (bytesOf text).drop i = ws ++ rest) :
    splitFrom? text start depth i = splitFrom? text start depth (i + ws.length) := by
  refine eq_behind_wide (fun i w rest hwide h => ?_) hw h
  have hcut : ¬(w = ';' ∧ depth = 0) := fun h => ne_of_isWide hwide (by decide) h.1
  rw [splitFrom?_byte h, if_neg (ne_of_isWide hwide (by decide)), isQuote_of_isWide hwide,
    if_neg Bool.false_ne_true, if_neg hcut, nesting_of_isWide hwide, Int.add_zero, hd,
    Option.bind_some]

theorem splitFrom?_comment {s : List Char} (h : (bytesOf text).drop i = bytesOf ('#' :: s)) :
    splitFrom? text start depth i = lastPiece? text start i := by
  rw [bytesOf_ascii (by decide)] at h
  rw [splitFrom?_byte h, if_pos rfl]

theorem splitFrom?_string {q : Char} (hq : isQuote q) {s : List Char}
    (h : (bytesOf text).drop i = bytesOf (q :: s)) : splitFrom? text start depth i =
      splitFrom? text start depth (i + utf8Len (q :: (takeString q s).1)) := by
  have hascii := toNat_of_isQuote hq
  rw [bytesOf_ascii hascii] at h
  obtain ⟨hi, -, hrest⟩ := getElem_of_drop h
  rw [splitFrom?_byte h, if_neg (ne_comment_of_isQuote hq), if_pos hq,
    skipString_eq hascii (ne_escape_of_isQuote hq) s hrest hi, String.utf8Len_cons,
    utf8Size_of_ascii hascii, Nat.add_assoc, Nat.add_comm 1]

theorem splitFrom?_cut {s : List Char} (h : (bytesOf text).drop i = bytesOf (';' :: s)) :
    splitFrom? text start 0 i = (slice? text start i).bind fun piece =>
      (splitFrom? text (i + 1) 0 (i + 1)).bind fun more => some (piece :: more) := by
  rw [bytesOf_ascii (by decide)] at h
  rw [splitFrom?_byte h, if_neg (by decide), if_neg (by decide), if_pos ⟨rfl, rfl⟩]

theorem splitFrom?_plain {c : Char} (hc : c ≠ '#') (hq : isQuote c = false)
    (hcut : ¬(c = ';' ∧ depth = 0)) (hd : (depth + nesting c).natAbs < 2147483648) {s : List Char}
    (h : (bytesOf text).drop i = bytesOf (c :: s)) : splitFrom? text start depth i =
      splitFrom? text start (depth + nesting c) (i + c.utf8Size) := by
  obtain ⟨b, bs, he, hsize, hb, hwide⟩ := bytesOf_cons c s
  rw [he] at h
  obtain ⟨-, -, hrest⟩ := getElem_of_drop h
  have hcomment : b ≠ '#' := fun e => hc ((byte_eq_iff hb (by decide)).mp e)
  have hnot : ¬(b = ';' ∧ depth = 0) := fun e => hcut ⟨(byte_eq_iff hb (by decide)).mp e.1, e.2⟩
  have hcounter := counter?_eq hd
  rw [splitFrom?_byte h, if_neg hcomment, isQuote_byte hb, hq, if_neg Bool.false_ne_true,
    if_neg hnot, nesting_byte hb, hcounter, Option.bind_some,
    splitFrom?_wide hcounter hwide hrest, hsize, Nat.add_assoc, Nat.add_comm 1]

/-- **The pieces of a line are cut between characters**, and the counter of brackets stays small. The
line is what was cut before, the piece that has begun and what is left. -/
theorem splitFrom?_eq (depth : Int) (p cur s : List Char) (htext : text = p ++ (cur ++ s))
    (hd : depth.natAbs + utf8Len s < 2147483648) :
    splitFrom? text (utf8Len p) depth (utf8Len (p ++ cur)) =
      some (cur.foldr consFirst (pieces depth none s)) := by
  have hdrop : (bytesOf text).drop (utf8Len (p ++ cur)) = bytesOf s := by
    rw [htext, ← List.append_assoc, drop_bytesOf]
  have hslice : slice? text (utf8Len p) (utf8Len (p ++ cur)) = some cur :=
    slice?_eq_some_iff.mpr ⟨p, s, htext, rfl, rfl⟩
  have hlast : lastPiece? text (utf8Len p) (utf8Len (p ++ cur)) =
      some (cur.foldr consFirst [[]]) := by
    have hle : utf8Len (p ++ cur) ≤ (bytesOf text).length := by
      rw [length_bytesOf, htext, ← List.append_assoc, String.utf8Len_append _ s]
      exact Nat.le_add_right ..
    rw [lastPiece?, Nat.min_eq_left hle, hslice, foldr_consFirst, List.append_nil]
    rfl
  -- by recursion on what is left: a string is taken as a whole, any other character alone
  match s with
  | [] => rw [splitFrom?_end hdrop, hlast, pieces]
  | c :: s =>
    rw [String.utf8Len_cons] at hd
    by_cases hcomment : c = '#'
    · subst hcomment
      rw [splitFrom?_comment hdrop, hlast, pieces_comment]
    cases hq : isQuote c with
    | true =>
      have happ := takeString_append c s
      have hshort := congrArg utf8Len happ
      rw [String.utf8Len_append] at hshort
      have htext' : text = p ++ ((cur ++ c :: (takeString c s).1) ++ (takeString c s).2) := by
        rw [htext, List.append_assoc, List.cons_append, happ]
      have hback := splitFrom?_eq depth p _ _ htext' (by omega)
      rw [← List.append_assoc, String.utf8Len_append] at hback
      rw [splitFrom?_string hq hdrop, hback, pieces_quote depth hq, pieces_takeString,
        List.foldr_append, List.foldr_cons]
    | false =>
      by_cases hcut : c = ';' ∧ depth = 0
      · obtain ⟨rfl, rfl⟩ := hcut
        have hmore := splitFrom?_eq 0 (p ++ (cur ++ [';'])) [] s (by simp [htext]) (by omega)
        have hone : utf8Len [';'] = 1 := rfl
        rw [List.append_nil, ← List.append_assoc, String.utf8Len_append, hone] at hmore
        rw [splitFrom?_cut hdrop, hslice, Option.bind_some, hmore, pieces_cut, foldr_consFirst,
          List.append_nil]
        rfl
      · have hsmall := natAbs_nesting_le c
        have hpos := Char.utf8Size_pos c
        have hmore := splitFrom?_eq (depth + nesting c) p (cur ++ [c]) s (by simp [htext])
          (by omega)
        rw [← List.append_assoc, String.utf8Len_append _ [c]] at hmore
        rw [splitFrom?_plain hcomment hq hcut (by omega) hdrop, pieces_code depth s hcomment hq
          fun h hzero => hcut ⟨h, hzero⟩]
        rw [String.utf8Len_cons, String.utf8Len_nil, Nat.zero_add] at hmore
        rw [hmore, List.foldr_append]
        rfl
termination_by s.length
decreasing_by
  · exact Nat.lt_succ_self _
  · exact Nat.lt_succ_self _
  · exact Nat.lt_succ_of_le (length_takeString_le c s)

/-- **The statements of a line** that is not too long. -/
theorem statements?_eq {line : List Char} (h : utf8Len line < 2147483648) :
    statements? line = some (statements line) := by
  have hsplit := splitFrom?_eq 0 [] [] line rfl (by simpa using h)
  rw [List.append_nil, List.nil_append, List.nil_append, String.utf8Len_nil] at hsplit
  rw [statements?, hsplit]
  rfl

end Split

/-! ## What a line leaves open -/

/-- The bytes from an index on. -/
def bytesFrom? (bytes : List Char) (i : Nat) : Option (List Char) :=
  if i ≤ bytes.length then some (bytes.drop i) else none

/-- Three quotes in a row. -/
def tripled (q : Char) : List Char := [q, q, q]

/-- The index of the first occurrence of some bytes. -/
def findBytes (needle : List Char) : List Char → Option Nat
  | [] => none
  | b :: bs => if needle.isPrefixOf (b :: bs) then some 0 else (findBytes needle bs).map (· + 1)

/-- The string that is open and the number of open brackets behind a line, from the index `i` on. -/
def feedFrom? (bytes : List Char) : Option Char → Int → Nat → Option (Option Char × Int)
  | some q, d, i =>
    if i < bytes.length then do
      let rest ← bytesFrom? bytes i
      match findBytes (tripled q) rest with
      | some place => feedFrom? bytes none d (i + (place + 3))
      | none => some (some q, d)
    else some (some q, d)
  | none, d, i =>
    if h : i < bytes.length then do
      let rest ← bytesFrom? bytes i
      if (tripled '"').isPrefixOf rest then feedFrom? bytes (some '"') d (i + 3)
      else if (tripled '\x27').isPrefixOf rest then feedFrom? bytes (some '\x27') d (i + 3)
      else if bytes[i] = '#' then some (none, d)
      else if isQuote bytes[i] then feedFrom? bytes none d (skipString bytes bytes[i] (i + 1))
      else do
        let d ← counter? (d + nesting bytes[i])
        feedFrom? bytes none d (i + 1)
    else some (none, d)
termination_by _ _ i => bytes.length - i
decreasing_by
  · omega
  · omega
  · omega
  · have := le_skipString bytes bytes[i] (i + 1) h
    omega
  · omega

/-- What is open for the next line. -/
def Carry.ofOpen (o : Option Char × Int) : Carry := ⟨o.1, o.2.toNat⟩

/-- The carry after one more line. -/
def Carry.feed? (c : Carry) (line : List Char) : Option Carry :=
  (feedFrom? (bytesOf line) c.string c.brackets 0).map .ofOpen

theorem scan_takeString (hq : isQuote q) (d : Int) (s : List Char) :
    scan (.short q) d s = scan .code d (takeString q s).2 := by
  fun_induction takeString q s with
  | case1 => rfl
  | case2 => rfl
  | case3 e s ih => rw [scan_short_escape, ih]
  | case4 s => rw [scan_short_quote (ne_escape_of_isQuote hq)]
  | case5 c s hlone hescape hcq ih =>
    rw [scan_short_cons hcq (ne_escape_of_cases hlone hescape), ih]

/-- What comes behind the three quotes that close a string. -/
def behindTriple (q : Char) : List Char → Option (List Char × List Char)
  | [] => none
  | c :: s =>
    if (tripled q).isPrefixOf (c :: s) then some ([], s.drop 2)
    else (behindTriple q s).map fun (inside, rest) => (c :: inside, rest)

theorem scan_behindTriple (q : Char) (d : Int) (s : List Char) : scan (.long q) d s =
    match behindTriple q s with
    | some (_, rest) => scan .code d rest
    | none => (.long q, d) := by
  fun_induction behindTriple q s with
  | case1 => rfl
  | case2 c s h =>
    obtain ⟨rest, e⟩ := List.isPrefixOf_iff_prefix.mp h
    obtain ⟨rfl, rfl⟩ := List.cons.inj e
    exact scan_long_delimiter q d rest
  | case3 c s h ih =>
    have hnot : ¬[q, q, q] <+: c :: s := fun hp => h (List.isPrefixOf_iff_prefix.mpr hp)
    rw [scan_long_cons d hnot, ih]
    cases behindTriple q s <;> rfl

theorem behindTriple_append {s inside rest : List Char}
    (h : behindTriple q s = some (inside, rest)) : s = inside ++ (tripled q ++ rest) := by
  fun_induction behindTriple q s generalizing inside with
  | case1 => exact nomatch h
  | case2 c s hp =>
    obtain ⟨rfl, rfl⟩ := Prod.mk.inj (Option.some.inj h)
    obtain ⟨rest, e⟩ := List.isPrefixOf_iff_prefix.mp hp
    obtain ⟨rfl, rfl⟩ := List.cons.inj e
    rfl
  | case3 c s _ ih =>
    obtain ⟨⟨inside', rest'⟩, hs, e⟩ := Option.map_eq_some_iff.mp h
    obtain ⟨rfl, rfl⟩ := Prod.mk.inj e
    exact congrArg (c :: ·) (ih hs)

theorem findBytes_wide (hq : q.toNat < 128) {bs : List Char} : ∀ {ws : List Char},
    (∀ w ∈ ws, IsWide w) →
      findBytes (tripled q) (ws ++ bs) = (findBytes (tripled q) bs).map (· + ws.length)
  | [], _ => by simp
  | w :: ws, hw => by
    obtain ⟨hwide, hw⟩ := List.forall_mem_cons.mp hw
    have hne : (q == w) = false := beq_false_of_ne (ne_of_isWide hwide hq).symm
    rw [List.cons_append, findBytes, tripled, List.isPrefixOf_cons_cons, hne, Bool.false_and,
      if_neg Bool.false_ne_true, ← tripled, findBytes_wide hq hw, Option.map_map]
    rfl

/-- **The quotes that close a string** are found among the bytes where they are found among the
characters. -/
theorem findBytes_eq (hq : q.toNat < 128) (s : List Char) :
    findBytes (tripled q) (bytesOf s) = (behindTriple q s).map fun parts => utf8Len parts.1 := by
  have hascii : ∀ c ∈ tripled q, c.toNat < 128 := by simpa [tripled] using hq
  fun_induction behindTriple q s with
  | case1 => rfl
  | case2 c s h =>
    obtain ⟨b, bs, he, -⟩ := bytesOf_cons c s
    rw [← isPrefixOf_bytesOf hascii, he] at h
    rw [he, findBytes, if_pos h]
    rfl
  | case3 c s h ih =>
    obtain ⟨b, bs, he, hsize, -, hwide⟩ := bytesOf_cons c s
    rw [← isPrefixOf_bytesOf hascii, he] at h
    rw [he, findBytes, if_neg h, findBytes_wide hq hwide, ih, Option.map_map, Option.map_map,
      Option.map_map]
    congr 1
    funext parts
    simp only [Function.comp_apply, String.utf8Len_cons]
    omega

section Feed

variable {bytes : List Char} {i : Nat} {d : Int}

theorem bytesFrom?_of_lt (h : i ≤ bytes.length) : bytesFrom? bytes i = some (bytes.drop i) :=
  if_pos h

theorem feedFrom?_end (string : Option Char) (h : bytes.drop i = []) :
    feedFrom? bytes string d i = some (string, d) := by
  have hi : ¬i < bytes.length := Nat.not_lt.mpr (List.drop_eq_nil_iff.mp h)
  cases string with
  | none => rw [feedFrom?, dif_neg hi]
  | some q => rw [feedFrom?, if_neg hi]

theorem feedFrom?_byte {b : Char} {rest : List Char} (h : bytes.drop i = b :: rest) :
    feedFrom? bytes none d i =
      if (tripled '"').isPrefixOf (b :: rest) then feedFrom? bytes (some '"') d (i + 3)
      else if (tripled '\x27').isPrefixOf (b :: rest) then feedFrom? bytes (some '\x27') d (i + 3)
      else if b = '#' then some (none, d)
      else if isQuote b then feedFrom? bytes none d (skipString bytes b (i + 1))
      else (counter? (d + nesting b)).bind fun d => feedFrom? bytes none d (i + 1) := by
  obtain ⟨hi, hb, -⟩ := getElem_of_drop h
  conv_lhs => rw [feedFrom?, dif_pos hi, bytesFrom?_of_lt (Nat.le_of_lt hi), h, hb]
  rfl

theorem feedFrom?_wide {ws rest : List Char} (hd : counter? d = some d)
    (hw : ∀ w ∈ ws, IsWide w) (h : bytes.drop i = ws ++ rest) :
    feedFrom? bytes none d i = feedFrom? bytes none d (i + ws.length) := by
  refine eq_behind_wide (fun i w rest hwide h => ?_) hw h
  have hne : ∀ q : Char, q.toNat < 128 → (tripled q).isPrefixOf (w :: rest) = false := by
    intro q hq
    rw [tripled, List.isPrefixOf_cons_cons, beq_false_of_ne (ne_of_isWide hwide hq).symm]
    rfl
  rw [feedFrom?_byte h, hne '"' (by decide), hne '\x27' (by decide), if_neg Bool.false_ne_true,
    if_neg Bool.false_ne_true, if_neg (ne_of_isWide hwide (by decide)), isQuote_of_isWide hwide,
    if_neg Bool.false_ne_true, nesting_of_isWide hwide, Int.add_zero, hd, Option.bind_some]

theorem tripled_isPrefixOf_bytesOf (hq : isQuote q) (c : Char) (s : List Char) :
    (tripled q).isPrefixOf (bytesOf (c :: s)) = true ↔ c = q ∧ [q, q] <+: s := by
  have hascii : ∀ c ∈ tripled q, c.toNat < 128 := by simpa [tripled] using toNat_of_isQuote hq
  rw [isPrefixOf_bytesOf hascii, List.isPrefixOf_iff_prefix, tripled, List.cons_prefix_cons,
    eq_comm]

theorem not_tripled_isPrefixOf {c : Char} (hc : isQuote c = false) (hq : isQuote q)
    (s : List Char) : ¬(tripled q).isPrefixOf (bytesOf (c :: s)) = true := by
  intro hp
  obtain ⟨rfl, -⟩ := (tripled_isPrefixOf_bytesOf hq c s).mp hp
  exact nomatch hc.symm.trans hq

theorem feedFrom?_comment {s : List Char} (h : bytes.drop i = bytesOf ('#' :: s)) :
    feedFrom? bytes none d i = some (none, d) := by
  have hdouble := not_tripled_isPrefixOf (c := '#') (q := '"') rfl rfl s
  have hsingle := not_tripled_isPrefixOf (c := '#') (q := '\x27') rfl rfl s
  rw [bytesOf_ascii (by decide)] at h hdouble hsingle
  rw [feedFrom?_byte h, if_neg hdouble, if_neg hsingle, if_pos rfl]

theorem feedFrom?_delimiter (hq : isQuote q) {s : List Char}
    (h : bytes.drop i = bytesOf (q :: q :: q :: s)) :
    feedFrom? bytes none d i = feedFrom? bytes (some q) d (i + 3) := by
  have hopen := (tripled_isPrefixOf_bytesOf hq q (q :: q :: s)).mpr ⟨rfl, s, rfl⟩
  have hother : ∀ {r : Char}, isQuote r → q ≠ r →
      ¬(tripled r).isPrefixOf (bytesOf (q :: q :: q :: s)) = true := fun hr hne hp =>
    hne ((tripled_isPrefixOf_bytesOf hr q _).mp hp).1
  have hascii := toNat_of_isQuote hq
  rw [bytesOf_ascii hascii] at h hopen hother
  rcases isQuote_iff.mp hq with rfl | rfl
  · rw [feedFrom?_byte h, if_pos hopen]
  · rw [feedFrom?_byte h, if_neg (hother rfl (by decide)), if_pos hopen]

theorem feedFrom?_quote (hq : isQuote q) {s : List Char} (hs : ¬[q, q] <+: s)
    (h : bytes.drop i = bytesOf (q :: s)) : feedFrom? bytes none d i =
      feedFrom? bytes none d (i + utf8Len (q :: (takeString q s).1)) := by
  have hascii := toNat_of_isQuote hq
  have hnot : ∀ {r : Char}, isQuote r → ¬(tripled r).isPrefixOf (bytesOf (q :: s)) = true := by
    intro r hr hp
    obtain ⟨rfl, hp⟩ := (tripled_isPrefixOf_bytesOf hr q s).mp hp
    exact hs hp
  rw [bytesOf_ascii hascii] at h hnot
  obtain ⟨hi, -, hrest⟩ := getElem_of_drop h
  rw [feedFrom?_byte h, if_neg (hnot rfl), if_neg (hnot rfl), if_neg (ne_comment_of_isQuote hq),
    if_pos hq, skipString_eq hascii (ne_escape_of_isQuote hq) s hrest hi, String.utf8Len_cons,
    utf8Size_of_ascii hascii, Nat.add_assoc, Nat.add_comm 1]

theorem feedFrom?_plain {c : Char} (hc : c ≠ '#') (hq : isQuote c = false)
    (hd : (d + nesting c).natAbs < 2147483648) {s : List Char}
    (h : bytes.drop i = bytesOf (c :: s)) : feedFrom? bytes none d i =
      feedFrom? bytes none (d + nesting c) (i + c.utf8Size) := by
  have hnot : ∀ {r : Char}, isQuote r → ¬(tripled r).isPrefixOf (bytesOf (c :: s)) = true :=
    fun hr => not_tripled_isPrefixOf hq hr s
  obtain ⟨b, bs, he, hsize, hb, hwide⟩ := bytesOf_cons c s
  rw [he] at h hnot
  obtain ⟨-, -, hrest⟩ := getElem_of_drop h
  have hcomment : b ≠ '#' := fun e => hc ((byte_eq_iff hb (by decide)).mp e)
  have hcounter := counter?_eq hd
  rw [feedFrom?_byte h, if_neg (hnot rfl), if_neg (hnot rfl), if_neg hcomment, isQuote_byte hb, hq,
    if_neg Bool.false_ne_true, nesting_byte hb, hcounter, Option.bind_some,
    feedFrom?_wide hcounter hwide hrest, hsize, Nat.add_assoc, Nat.add_comm 1]

theorem feedFrom?_string (hq : isQuote q) {s : List Char} (h : bytes.drop i = bytesOf s) :
    feedFrom? bytes (some q) d i =
      match behindTriple q s with
      | some (inside, _) => feedFrom? bytes none d (i + (utf8Len inside + 3))
      | none => some (some q, d) := by
  by_cases hi : i < bytes.length
  · rw [feedFrom?, if_pos hi, bytesFrom?_of_lt (Nat.le_of_lt hi), h, Option.bind_eq_bind,
      Option.bind_some, findBytes_eq (toNat_of_isQuote hq)]
    cases behindTriple q s <;> rfl
  · have hnil := List.drop_eq_nil_iff.mpr (Nat.le_of_not_lt hi)
    have hs : s = [] := by
      rw [hnil] at h
      cases s with
      | nil => rfl
      | cons c s =>
        obtain ⟨b, bs, he, -⟩ := bytesOf_cons c s
        exact nomatch h.trans he
    rw [feedFrom?_end _ hnil, hs]
    rfl

theorem length_behindTriple_lt {s inside rest : List Char}
    (h : behindTriple q s = some (inside, rest)) : rest.length < s.length := by
  have hlen := congrArg List.length (behindTriple_append h)
  simp only [tripled, List.length_append, List.length_cons, List.length_nil] at hlen
  omega

/-- **What a line leaves open** is found byte by byte, and the counter of brackets stays small. -/
theorem feedFrom?_eq (string : Option Char) (hstring : ∀ q ∈ string, isQuote q) (d : Int)
    (s : List Char) (i : Nat) (h : bytes.drop i = bytesOf s)
    (hd : d.natAbs + utf8Len s < 2147483648) :
    (feedFrom? bytes string d i).map Carry.ofOpen =
      some (.ofScan (scan (.ofString string) d s)) := by
  have hbehind : ∀ {xs ys : List Char}, s = xs ++ ys → bytes.drop (i + utf8Len xs) = bytesOf ys := by
    intro xs ys e
    rw [← List.drop_drop, h, e, drop_bytesOf]
  have hnone : ∀ q ∈ (none : Option Char), isQuote q := fun _ h => nomatch h
  match string with
  | some q =>
    have hq : isQuote q := hstring q rfl
    have hscan : scan (.ofString (some q)) d s = scan (.long q) d s := rfl
    rw [feedFrom?_string hq h, hscan, scan_behindTriple]
    cases hclose : behindTriple q s with
    | none => rfl
    | some parts =>
      obtain ⟨inside, rest⟩ := parts
      have he := behindTriple_append hclose
      have hshort := length_behindTriple_lt hclose
      have hsize : utf8Len (inside ++ tripled q) = utf8Len inside + 3 := by
        simp [tripled, utf8Size_of_ascii (toNat_of_isQuote hq)]
      have hlen := congrArg utf8Len he
      have hrest := hbehind ((List.append_assoc ..).symm ▸ he)
      rw [← List.append_assoc, String.utf8Len_append, hsize] at hlen
      rw [hsize] at hrest
      exact feedFrom?_eq none hnone d rest _ hrest (by omega)
  | none =>
    match s with
    | [] =>
      rw [feedFrom?_end none h]
      rfl
    | c :: s =>
      have hscan : ∀ {d s}, scan (.ofString none) d s = scan .code d s := rfl
      have hlen : utf8Len (c :: s) = utf8Len s + c.utf8Size := rfl
      rw [hscan]
      by_cases hcomment : c = '#'
      · subst hcomment
        rw [feedFrom?_comment h, scan_comment]
        rfl
      cases hq : isQuote c with
      | true =>
        have hone := utf8Size_of_ascii (toNat_of_isQuote hq)
        by_cases hopen : [c, c] <+: s
        · obtain ⟨rest, rfl⟩ := hopen
          have hrest : bytes.drop (i + 3) = bytesOf rest := by
            have hsize : utf8Len [c, c, c] = 3 := by simp [hone]
            rw [← hsize]
            exact hbehind rfl
          have hrestlen : utf8Len ([c, c] ++ rest) = utf8Len rest + c.utf8Size + c.utf8Size := rfl
          have hmore := feedFrom?_eq (some c) (fun q e => Option.some.inj e ▸ hq) d rest _ hrest
            (by omega)
          rw [List.cons_append, List.cons_append, List.nil_append] at h
          rw [feedFrom?_delimiter hq h, hmore, List.cons_append, List.cons_append, List.nil_append,
            scan_code_delimiter hq]
          rfl
        · have happ : c :: s = (c :: (takeString c s).1) ++ (takeString c s).2 :=
            congrArg (c :: ·) (takeString_append c s).symm
          have hshort := length_takeString_le c s
          have hrestlen := congrArg utf8Len happ
          rw [String.utf8Len_append, String.utf8Len_cons _ s] at hrestlen
          have hmore := feedFrom?_eq none hnone d _ _ (hbehind happ) (by omega)
          rw [feedFrom?_quote hq hopen h, hmore, scan_code_quote hq d hopen, scan_takeString hq]
          rfl
      | false =>
        have hpos := Char.utf8Size_pos c
        have hsmall := natAbs_nesting_le c
        have hrest : bytes.drop (i + c.utf8Size) = bytesOf s := by
          have hsize : utf8Len [c] = c.utf8Size := Nat.zero_add _
          rw [← hsize]
          exact hbehind rfl
        have hmore := feedFrom?_eq none hnone (d + nesting c) s _ hrest (by omega)
        rw [feedFrom?_plain hcomment hq (by omega) h, hmore, scan_code_cons d s hcomment hq]
        rfl
termination_by s.length

/-- **What a line leaves open**, if neither it nor the number of brackets open before is too large. -/
theorem Carry.feed?_eq {c : Carry} {line : List Char} (hstring : ∀ q ∈ c.string, isQuote q)
    (h : c.brackets + utf8Len line < 2147483648) : c.feed? line = some (c.feed line) := by
  rw [Carry.feed_eq]
  exact feedFrom?_eq c.string hstring c.brackets line 0 rfl (by rwa [Int.natAbs_natCast])

end Feed

end ModelTypings.Source
