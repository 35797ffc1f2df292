import Mathlib.Data.String.Basic
import ModelTypings.Text.Split

/-!
# Texts by their bytes

A character has one to four bytes in UTF-8, and a text is addressed by the number of bytes before a
place. What is asked for between other places is not given.

* `bytesOf`: the bytes of a text, each as the character with its number;
* `bytesOf_ascii`, **`bytesOf_cons`**: a character of ASCII is its byte, the bytes of any other
  character are none of ASCII;
* `sliceFrom?`, `sliceTo?`, `slice?`, **`slice?_eq_some_iff`**: the part of a text between two places;
* `findChar`, `cutBefore?`, `cutBefore?_eq`: the part before a character;
* `counter?`: numbers of 32 bits.
-/

namespace ModelTypings.Text

open String (utf8Len)

/-! ## Bytes -/

/-- The bytes of a text in UTF-8, each as the character with its number. -/
def bytesOf (s : List Char) : List Char :=
  s.flatMap fun c => (String.utf8EncodeChar c).map Char.ofUInt8

/-- The character has more than one byte. -/
def IsWide (c : Char) : Prop := 128 ≤ c.toNat

theorem toNat_ofUInt8 (b : UInt8) : (Char.ofUInt8 b).toNat = b.toNat := UInt8.toNat_toUInt32 b

theorem bytesOf_append (s t : List Char) : bytesOf (s ++ t) = bytesOf s ++ bytesOf t :=
  List.flatMap_append

theorem length_bytesOf (s : List Char) : (bytesOf s).length = utf8Len s := by
  induction s with
  | nil => rfl
  | cons c s ih =>
    rw [bytesOf, List.flatMap_cons, List.length_append, List.length_map,
      String.length_utf8EncodeChar, String.utf8Len_cons, Nat.add_comm, ← ih]
    rfl

theorem drop_bytesOf (s t : List Char) : (bytesOf (s ++ t)).drop (utf8Len s) = bytesOf t := by
  rw [bytesOf_append, ← length_bytesOf, List.drop_left]

theorem utf8EncodeChar_of_ascii {c : Char} (h : c.toNat < 128) :
    String.utf8EncodeChar c = [UInt8.ofNat c.toNat] := by
  have hle : c.val.toNat ≤ 127 := Nat.le_of_lt_succ h
  rw [String.utf8EncodeChar]
  exact if_pos hle

theorem utf8Size_of_ascii {c : Char} (h : c.toNat < 128) : c.utf8Size = 1 := by
  rw [← String.length_utf8EncodeChar, utf8EncodeChar_of_ascii h]
  rfl

/-- **A character of ASCII is its byte.** -/
theorem bytesOf_ascii {c : Char} (h : c.toNat < 128) (s : List Char) :
    bytesOf (c :: s) = c :: bytesOf s := by
  have hbyte : Char.ofUInt8 (UInt8.ofNat c.toNat) = c := by
    refine Char.toNat_inj.mp ((toNat_ofUInt8 _).trans (UInt8.toNat_ofNat_of_lt' ?_))
    exact Nat.lt_of_lt_of_le h (by decide)
  rw [bytesOf, List.flatMap_cons, utf8EncodeChar_of_ascii h, List.map_singleton, hbyte]
  rfl

theorem isWide_of_mem_utf8EncodeChar {c : Char} (h : IsWide c) :
    ∀ b ∈ String.utf8EncodeChar c, IsWide (Char.ofUInt8 b) := by
  have hbyte : ∀ {n}, 128 ≤ n → n < 256 → IsWide (Char.ofUInt8 (UInt8.ofNat n)) := by
    intro n hlow hhigh
    rw [IsWide, toNat_ofUInt8, UInt8.toNat_ofNat_of_lt' hhigh]
    exact hlow
  have hc : ¬c.val.toNat ≤ 127 := Nat.not_le.mpr h
  unfold String.utf8EncodeChar
  simp only [if_neg hc]
  split
  · simp only [List.forall_mem_cons]
    exact ⟨hbyte (by omega) (by omega), hbyte (by omega) (by omega), List.forall_mem_nil _⟩
  · split
    · simp only [List.forall_mem_cons]
      exact ⟨hbyte (by omega) (by omega), hbyte (by omega) (by omega), hbyte (by omega) (by omega),
        List.forall_mem_nil _⟩
    · simp only [List.forall_mem_cons]
      exact ⟨hbyte (by omega) (by omega), hbyte (by omega) (by omega), hbyte (by omega) (by omega),
        hbyte (by omega) (by omega), List.forall_mem_nil _⟩

/-- **A character is followed byte by byte**, from its first byte. Those after the first are none of
ASCII, and the first is the character itself or none of ASCII either. -/
theorem bytesOf_cons (c : Char) (s : List Char) : ∃ b bs,
    bytesOf (c :: s) = b :: (bs ++ bytesOf s) ∧ c.utf8Size = bs.length + 1 ∧
      (b = c ∨ IsWide c ∧ IsWide b) ∧ ∀ w ∈ bs, IsWide w := by
  by_cases h : IsWide c
  · have hmem := isWide_of_mem_utf8EncodeChar h
    have hlen := String.length_utf8EncodeChar c
    obtain ⟨b, bs, e⟩ := List.exists_cons_of_ne_nil (String.utf8EncodeChar_ne_nil (c := c))
    rw [e] at hmem hlen
    obtain ⟨hb, hbs⟩ := List.forall_mem_cons.mp hmem
    refine ⟨Char.ofUInt8 b, bs.map Char.ofUInt8, ?_, ?_, Or.inr ⟨h, hb⟩, ?_⟩
    · rw [bytesOf, List.flatMap_cons, e]
      rfl
    · rw [List.length_map, ← hlen, List.length_cons]
    · intro w hw
      obtain ⟨x, hx, rfl⟩ := List.mem_map.mp hw
      exact hbs x hx
  · have hc : c.toNat < 128 := Nat.not_le.mp h
    exact ⟨c, [], bytesOf_ascii hc s, utf8Size_of_ascii hc, Or.inl rfl, List.forall_mem_nil _⟩

theorem ne_of_isWide {c d : Char} (hc : IsWide c) (hd : d.toNat < 128) : c ≠ d := by
  rintro rfl
  exact Nat.not_lt.mpr hc hd

theorem byte_eq_iff {b c d : Char} (h : b = c ∨ IsWide c ∧ IsWide b) (hd : d.toNat < 128) :
    b = d ↔ c = d := by
  rcases h with rfl | ⟨hc, hb⟩
  · exact Iff.rfl
  · exact iff_of_false (ne_of_isWide hb hd) (ne_of_isWide hc hd)

theorem isPrefixOf_bytesOf : ∀ {p : List Char}, (∀ c ∈ p, c.toNat < 128) → ∀ s : List Char,
    p.isPrefixOf (bytesOf s) = p.isPrefixOf s
  | [], _, s => by rw [List.isPrefixOf_nil_left, List.isPrefixOf_nil_left]
  | _ :: _, _, [] => rfl
  | d :: p, hp, c :: s => by
    obtain ⟨hd, hp⟩ := List.forall_mem_cons.mp hp
    by_cases hc : IsWide c
    · obtain ⟨b, bs, e, -, hb, -⟩ := bytesOf_cons c s
      have hb : IsWide b := hb.elim (fun h => h ▸ hc) fun h => h.2
      rw [e, List.isPrefixOf_cons_cons, List.isPrefixOf_cons_cons,
        beq_false_of_ne (ne_of_isWide hc hd).symm, beq_false_of_ne (ne_of_isWide hb hd).symm]
      rfl
    · rw [bytesOf_ascii (Nat.not_le.mp hc), List.isPrefixOf_cons_cons, List.isPrefixOf_cons_cons,
        isPrefixOf_bytesOf hp s]

/-! ## Parts of a text -/

/-- The text from a place on. The place is told by the number of bytes before it. -/
def sliceFrom? : List Char → Nat → Option (List Char)
  | s, 0 => some s
  | [], _ + 1 => none
  | c :: s, n + 1 => if c.utf8Size ≤ n + 1 then sliceFrom? s (n + 1 - c.utf8Size) else none

/-- The text up to a place. -/
def sliceTo? : List Char → Nat → Option (List Char)
  | _, 0 => some []
  | [], _ + 1 => none
  | c :: s, n + 1 =>
    if c.utf8Size ≤ n + 1 then (sliceTo? s (n + 1 - c.utf8Size)).map (c :: ·) else none

/-- The text between two places, in order. -/
def slice? (s : List Char) (start stop : Nat) : Option (List Char) :=
  if start ≤ stop then (sliceFrom? s start).bind fun rest => sliceTo? rest (stop - start) else none

theorem sliceFrom?_append (s t : List Char) : sliceFrom? (s ++ t) (utf8Len s) = some t := by
  induction s with
  | nil =>
    rw [List.nil_append, String.utf8Len_nil, sliceFrom?]
  | cons c s ih =>
    obtain ⟨k, hk⟩ := Nat.exists_eq_add_of_lt (Char.utf8Size_pos c)
    have hlen : utf8Len (c :: s) = utf8Len s + k + 1 := by rw [String.utf8Len_cons]; omega
    rw [hlen, List.cons_append, sliceFrom?, if_pos (by omega), ← ih]
    congr 1
    omega

theorem sliceTo?_append (s t : List Char) : sliceTo? (s ++ t) (utf8Len s) = some s := by
  induction s with
  | nil =>
    rw [List.nil_append, String.utf8Len_nil, sliceTo?]
  | cons c s ih =>
    obtain ⟨k, hk⟩ := Nat.exists_eq_add_of_lt (Char.utf8Size_pos c)
    have hlen : utf8Len (c :: s) = utf8Len s + k + 1 := by rw [String.utf8Len_cons]; omega
    have hrest : utf8Len s + k + 1 - c.utf8Size = utf8Len s := by omega
    rw [hlen, List.cons_append, sliceTo?, if_pos (by omega), hrest, ih]
    rfl

theorem sliceFrom?_eq_some_iff {s t : List Char} {n : Nat} :
    sliceFrom? s n = some t ↔ ∃ p, s = p ++ t ∧ utf8Len p = n := by
  constructor
  · intro h
    fun_induction sliceFrom? s n with
    | case1 s =>
      obtain rfl := Option.some.inj h
      exact ⟨[], rfl, rfl⟩
    | case2 => exact nomatch h
    | case3 c s n hle ih =>
      obtain ⟨p, rfl, hp⟩ := ih h
      exact ⟨c :: p, rfl, by rw [String.utf8Len_cons]; omega⟩
    | case4 => exact nomatch h
  · rintro ⟨p, rfl, rfl⟩
    exact sliceFrom?_append p t

theorem sliceTo?_eq_some_iff {s t : List Char} {n : Nat} :
    sliceTo? s n = some t ↔ ∃ rest, s = t ++ rest ∧ utf8Len t = n := by
  constructor
  · intro h
    fun_induction sliceTo? s n generalizing t with
    | case1 s =>
      obtain rfl := Option.some.inj h
      exact ⟨s, rfl, rfl⟩
    | case2 => exact nomatch h
    | case3 c s n hle ih =>
      obtain ⟨t, ht, rfl⟩ := Option.map_eq_some_iff.mp h
      obtain ⟨rest, rfl, hlen⟩ := ih ht
      exact ⟨rest, rfl, by rw [String.utf8Len_cons]; omega⟩
    | case4 => exact nomatch h
  · rintro ⟨rest, rfl, rfl⟩
    exact sliceTo?_append t rest

/-- **A part of a text is given exactly between the ends of two beginnings of it**, so between two
characters, in order and not behind its end. -/
theorem slice?_eq_some_iff {s t : List Char} {start stop : Nat} : slice? s start stop = some t ↔
    ∃ p rest, s = p ++ (t ++ rest) ∧ utf8Len p = start ∧ utf8Len (p ++ t) = stop := by
  rw [slice?]
  constructor
  · intro h
    split at h
    · next hle =>
      obtain ⟨behind, hfrom, hto⟩ := Option.bind_eq_some_iff.mp h
      obtain ⟨p, rfl, hstart⟩ := sliceFrom?_eq_some_iff.mp hfrom
      obtain ⟨rest, rfl, hstop⟩ := sliceTo?_eq_some_iff.mp hto
      exact ⟨p, rest, rfl, hstart, by rw [String.utf8Len_append]; omega⟩
    · exact nomatch h
  · rintro ⟨p, rest, rfl, rfl, rfl⟩
    rw [String.utf8Len_append, if_pos (Nat.le_add_right _ _), sliceFrom?_append, Option.bind_some,
      Nat.add_sub_cancel_left, sliceTo?_append]

/-- A text is not cut inside a character. -/
example : slice? ['\\', 'é', ';'] 2 4 = none := by decide +kernel

/-- The place of the first occurrence of a character. -/
def findChar (d : Char) : List Char → Option Nat
  | [] => none
  | c :: s => if c = d then some 0 else (findChar d s).map (· + c.utf8Size)

/-- The text up to the first occurrence of a character. -/
def cutBefore? (d : Char) (s : List Char) : Option (List Char) :=
  match findChar d s with
  | some place => sliceTo? s place
  | none => some s

/-- A text can be cut before the first occurrence of a character. -/
theorem cutBefore?_eq (d : Char) (s : List Char) :
    cutBefore? d s = some (s.takeWhile (· != d)) := by
  have hfind : (findChar d s = none ∧ s.takeWhile (· != d) = s) ∨
      findChar d s = some (utf8Len (s.takeWhile (· != d))) := by
    induction s with
    | nil => exact Or.inl ⟨rfl, rfl⟩
    | cons c s ih =>
      by_cases hc : c = d
      · subst hc
        exact Or.inr (by simp [findChar])
      · rw [findChar, if_neg hc, List.takeWhile_cons, if_pos (by simpa using hc)]
        rcases ih with ⟨hnone, hall⟩ | hplace
        · exact Or.inl ⟨by rw [hnone]; rfl, by rw [hall]⟩
        · exact Or.inr (by rw [hplace]; rfl)
  rcases hfind with ⟨hnone, hall⟩ | hplace
  · rw [cutBefore?, hnone, hall]
  · rw [cutBefore?, hplace]
    have h := sliceTo?_append (s.takeWhile (· != d)) (s.dropWhile (· != d))
    rwa [List.takeWhile_append_dropWhile] at h

/-! ## Counters -/

/-- A number, if it fits into 32 bits with a sign. -/
def counter? (n : Int) : Option Int :=
  if -2147483648 ≤ n ∧ n ≤ 2147483647 then some n else none

theorem counter?_eq {n : Int} (h : n.natAbs < 2147483648) : counter? n = some n :=
  if_pos (by omega)

end ModelTypings.Text
