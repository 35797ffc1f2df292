import ModelTypings.Proofs.Text.Bytes
import ModelTypings.Text.Utf8

/-!
# Texts read back from their bytes

* `encode_ofList`: the bytes of a text, character by character;
* **`decode_encode`**: the text of the bytes of a text;
* `decode_induction`: bytes from the front, character by character;
* **`decodeFrom_append_ascii`**: a byte of ASCII parts what stands before it from what comes after,
  whether or not these are texts;
* `subset_of_mem_decodeFrom`: where the characters of a text come from.
-/

namespace ModelTypings.Text

/-! ## Bytes of texts -/

theorem encode_ofList (s : List Char) :
    encode (String.ofList s) = s.flatMap String.utf8EncodeChar := by
  rw [encode, String.toByteArray_ofList, List.utf8Encode, List.data_toByteArray]

/-! ## Single characters -/

theorem decodeFrom_eq : ∀ (n : Nat) (bs : List UInt8), decodeFrom n bs = decodeFrom 0 (bs.drop n)
  | 0, _ => rfl
  | _ + 1, [] => rfl
  | n + 1, _ :: bs => decodeFrom_eq n bs

theorem decodeFrom_character (c : Char) (bs : List UInt8) :
    decodeFrom 0 (String.utf8EncodeChar c ++ bs) = c :: decodeFrom 0 bs := by
  obtain ⟨b, rest, e⟩ := List.exists_cons_of_ne_nil (String.utf8EncodeChar_ne_nil (c := c))
  have hread : (b :: (rest ++ bs)).toByteArray.utf8DecodeChar? 0 = some c := by
    rw [← List.cons_append, ← e, List.toByteArray_append]
    exact ByteArray.utf8DecodeChar?_utf8EncodeChar_append
  have hsize : c.utf8Size - 1 = rest.length := by
    rw [← String.length_utf8EncodeChar, e, List.length_cons, Nat.add_sub_cancel]
  rw [e, List.cons_append, decodeFrom, hread]
  show c :: decodeFrom (c.utf8Size - 1) (rest ++ bs) = c :: decodeFrom 0 bs
  rw [decodeFrom_eq, hsize, List.drop_left]

theorem exists_character {bs : List UInt8} {c : Char}
    (h : bs.toByteArray.utf8DecodeChar? 0 = some c) :
    ∃ rest, bs = String.utf8EncodeChar c ++ rest := by
  obtain ⟨rest, e⟩ := ByteArray.exists_of_utf8DecodeChar?_eq_some h
  refine ⟨rest.data.toList, ?_⟩
  have hbytes := congrArg (fun b => b.data.toList) e
  simpa [ByteArray.toList_data_append, List.data_toByteArray] using hbytes

theorem brokenSize_bounds (bs : List UInt8) : 1 ≤ brokenSize bs ∧ brokenSize bs ≤ 3 := by
  unfold brokenSize
  split
  · split
    · decide
    · split <;> decide
  · decide

theorem decodeFrom_broken {b : UInt8} {bs : List UInt8}
    (h : (b :: bs).toByteArray.utf8DecodeChar? 0 = none) :
    decodeFrom 0 (b :: bs) =
      replacement :: decodeFrom 0 ((b :: bs).drop (brokenSize (b :: bs))) := by
  obtain ⟨n, hn⟩ := Nat.exists_eq_succ_of_ne_zero (Nat.ne_zero_of_lt (brokenSize_bounds (b :: bs)).1)
  rw [decodeFrom, h, decodeFrom_eq, hn, List.drop_succ_cons]
  rfl

/-- Bytes are read from the front: a character, or what a replacement stands for. -/
@[elab_as_elim]
theorem decode_induction {P : List UInt8 → Prop} (nil : P [])
    (character : ∀ c bs, P bs → P (String.utf8EncodeChar c ++ bs))
    (broken : ∀ b bs, (b :: bs).toByteArray.utf8DecodeChar? 0 = none →
      P ((b :: bs).drop (brokenSize (b :: bs))) → P (b :: bs)) (bs : List UInt8) : P bs := by
  induction hn : bs.length using Nat.strong_induction_on generalizing bs with
  | _ n ih =>
    cases bs with
    | nil => exact nil
    | cons b bs =>
      cases hread : (b :: bs).toByteArray.utf8DecodeChar? 0 with
      | some c =>
        obtain ⟨rest, e⟩ := exists_character hread
        have hshort : rest.length < n := by
          have hpos := List.length_pos_of_ne_nil (String.utf8EncodeChar_ne_nil (c := c))
          rw [← hn, e, List.length_append]
          omega
        rw [e]
        exact character c rest (ih _ hshort rest rfl)
      | none =>
        have hshort : ((b :: bs).drop (brokenSize (b :: bs))).length < n := by
          have hpos := (brokenSize_bounds (b :: bs)).1
          rw [← hn, List.length_drop, List.length_cons]
          omega
        exact broken b bs hread (ih _ hshort _ rfl)

/-! ## Texts -/

/-- **The bytes of a text are read as that text.** -/
theorem decode_encode (s : String) : decode (encode s) = s := by
  have h : ∀ cs : List Char, decodeFrom 0 (cs.flatMap String.utf8EncodeChar) = cs := by
    intro cs
    induction cs with
    | nil => rfl
    | cons c cs ih => rw [List.flatMap_cons, decodeFrom_character, ih]
  rw [decode, ← String.ofList_toList (s := s), encode_ofList, h]

/-! ## Bytes of ASCII -/

theorem utf8EncodeChar_ofUInt8 {b : UInt8} (h : b < 0x80) :
    String.utf8EncodeChar (Char.ofUInt8 b) = [b] := by
  have hb : (Char.ofUInt8 b).toNat < 128 := by
    rw [toNat_ofUInt8]
    exact h
  rw [utf8EncodeChar_of_ascii hb, toNat_ofUInt8, UInt8.ofNat_toNat]

theorem decodeFrom_ascii {b : UInt8} (h : b < 0x80) (bs : List UInt8) :
    decodeFrom 0 (b :: bs) = Char.ofUInt8 b :: decodeFrom 0 bs := by
  rw [← decodeFrom_character, utf8EncodeChar_ofUInt8 h]
  rfl

theorem utf8EncodeChar_of_mem {c : Char} {b : UInt8} (h : b < 0x80)
    (hb : b ∈ String.utf8EncodeChar c) : String.utf8EncodeChar c = [b] := by
  by_cases hc : IsWide c
  · have hwide := isWide_of_mem_utf8EncodeChar hc b hb
    rw [IsWide, toNat_ofUInt8] at hwide
    exact absurd hwide (Nat.not_le.mpr h)
  · rw [utf8EncodeChar_of_ascii (Nat.not_le.mp hc)] at hb ⊢
    rw [List.mem_singleton.mp hb]

theorem brokenSize_append {b : UInt8} (h : b < 0x80) (a : UInt8) (bs rest : List UInt8) :
    brokenSize (a :: (bs ++ b :: rest)) = brokenSize (a :: bs) ∧
      brokenSize (a :: bs) ≤ (a :: bs).length := by
  have hcontinuation : isContinuation b = false := by
    rw [isContinuation, decide_eq_false (UInt8.not_le.mpr h)]
    rfl
  have hsecond : isSecond a b = false := by
    have hlow : ∀ {low : UInt8}, 0x80 ≤ low → ¬low ≤ b :=
      fun hlow hle => UInt8.not_lt.mpr (UInt8.le_trans hlow hle) h
    rw [isSecond, decide_eq_false (hlow (by split <;> [decide; (split <;> decide)])), Bool.and_false]
    rfl
  match bs with
  | [] => simp [brokenSize, hsecond]
  | [x] =>
    cases hx : isSecond a x <;> simp [brokenSize, hx, hcontinuation]
  | x :: y :: bs =>
    have hthree := (brokenSize_bounds (a :: x :: y :: bs)).2
    exact ⟨rfl, hthree.trans (by simp)⟩

theorem utf8DecodeChar?_append_ascii {b : UInt8} (h : b < 0x80) {a : UInt8} {bs : List UInt8}
    (hbroken : (a :: bs).toByteArray.utf8DecodeChar? 0 = none) (rest : List UInt8) :
    (a :: (bs ++ b :: rest)).toByteArray.utf8DecodeChar? 0 = none := by
  by_contra hne
  obtain ⟨c, hread⟩ := Option.ne_none_iff_exists'.mp hne
  obtain ⟨after, e⟩ := exists_character hread
  rw [← List.cons_append] at e
  rcases List.append_eq_append_iff.mp e with ⟨tail, hc, hrest⟩ | ⟨tail, hbs, -⟩
  · cases tail with
    | nil =>
      rw [List.append_nil] at hc
      rw [← hc, ← List.append_nil (String.utf8EncodeChar c), List.toByteArray_append,
        ByteArray.utf8DecodeChar?_utf8EncodeChar_append] at hbroken
      exact Option.some_ne_none c hbroken
    | cons x tail =>
      -- the byte stands behind another one of the character
      obtain ⟨rfl, -⟩ := List.cons.inj hrest
      rw [utf8EncodeChar_of_mem h (c := c) (by rw [hc]; simp)] at hc
      simp at hc
  · rw [hbs, List.toByteArray_append, ByteArray.utf8DecodeChar?_utf8EncodeChar_append] at hbroken
    exact Option.some_ne_none c hbroken

/-- **A byte of ASCII parts what stands before it from what comes after.** -/
theorem decodeFrom_append_ascii {b : UInt8} (h : b < 0x80) (bs rest : List UInt8) :
    decodeFrom 0 (bs ++ b :: rest) =
      decodeFrom 0 bs ++ Char.ofUInt8 b :: decodeFrom 0 rest := by
  induction bs using decode_induction with
  | nil => exact decodeFrom_ascii h rest
  | character c bs ih =>
    rw [List.append_assoc, decodeFrom_character, decodeFrom_character, ih, List.cons_append]
  | broken a bs hbroken ih =>
    obtain ⟨hsize, hle⟩ := brokenSize_append h a bs rest
    rw [List.cons_append, decodeFrom_broken (utf8DecodeChar?_append_ascii h hbroken rest),
      hsize, ← List.cons_append, List.drop_append_of_le_length hle, ih, decodeFrom_broken hbroken,
      List.cons_append]

theorem subset_of_mem_decodeFrom {c : Char} {bs : List UInt8} (hc : c ∈ decodeFrom 0 bs) :
    c = replacement ∨ String.utf8EncodeChar c ⊆ bs := by
  induction bs using decode_induction with
  | nil => exact absurd hc List.not_mem_nil
  | character d bs ih =>
    rw [decodeFrom_character] at hc
    rcases List.mem_cons.mp hc with rfl | hc
    · exact Or.inr (List.subset_append_left _ _)
    · exact (ih hc).imp_right (List.subset_append_of_subset_right _)
  | broken b bs hbroken ih =>
    rw [decodeFrom_broken hbroken] at hc
    rcases List.mem_cons.mp hc with hc | hc
    · exact Or.inl hc
    · exact (ih hc).imp_right fun h => List.Subset.trans h (List.drop_subset _ _)

end ModelTypings.Text
