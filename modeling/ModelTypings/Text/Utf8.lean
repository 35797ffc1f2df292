/-!
# Texts as bytes

A text is kept as its bytes in UTF-8. Bytes from elsewhere need not be those of a text: each part of
them that starts no character is read as the replacement character.

* `encode`: the bytes of a text;
* `decode`: the text of bytes, with replacements.
-/

namespace ModelTypings.Text

/-- The bytes of a text. -/
def encode (s : String) : List UInt8 := s.toByteArray.data.toList

/-- The byte goes on with a character. -/
def isContinuation (b : UInt8) : Bool := 0x80 ≤ b && b ≤ 0xBF

/-- The byte `b` comes second in some character of three or four bytes that starts with `a`. Smaller
ones would be written with fewer bytes, larger ones are surrogates or beyond the last character. -/
def isSecond (a b : UInt8) : Bool :=
  0xE0 ≤ a && a ≤ 0xF4 &&
    (if a = 0xE0 then 0xA0 else if a = 0xF0 then 0x90 else 0x80) ≤ b &&
    b ≤ (if a = 0xED then 0x9F else if a = 0xF4 then 0x8F else 0xBF)

/-- The number of bytes that one replacement stands for, where no character can be read: those that
some character starts with, or a single one. -/
def brokenSize : List UInt8 → Nat
  | a :: b :: rest =>
    if !isSecond a b then 1
    else if 0xF0 ≤ a && rest.head?.any isContinuation then 3
    else 2
  | _ => 1

/-- What is read in place of bytes that are no character. -/
def replacement : Char := '\uFFFD'

/-- The characters of bytes, after the next `n` bytes. -/
def decodeFrom : Nat → List UInt8 → List Char
  | _, [] => []
  | n + 1, _ :: bs => decodeFrom n bs
  | 0, b :: bs =>
    match (b :: bs).toByteArray.utf8DecodeChar? 0 with
    | some c => c :: decodeFrom (c.utf8Size - 1) bs
    | none => replacement :: decodeFrom (brokenSize (b :: bs) - 1) bs

/-- The text of bytes. -/
def decode (bs : List UInt8) : String := String.ofList (decodeFrom 0 bs)

end ModelTypings.Text
