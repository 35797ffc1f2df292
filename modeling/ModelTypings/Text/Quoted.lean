import ModelTypings.Text.Ranges
import ModelTypings.Text.Cluster.Table
import ModelTypings.Text.Printable.Table

/-!
# Quoted text for messages

* `escapeChar`: a character as it stands between double quotes;
* `quoted`: a text between double quotes;
* `quotedList`: a list of such texts, as in `["A", "models.B"]`.
-/

namespace ModelTypings.Text

/-- `c` is written as its code point: it attaches to the character before it, or shows nothing. -/
def needsCodePoint (c : Char) : Bool :=
  inRanges extendingRanges c || decide (c.toNat < 0x20) || c.toNat == 0x7F ||
    inRanges unprintableRanges c

/-- A character between double quotes. -/
def escapeChar (c : Char) : List Char :=
  if c = '\x00' then ['\\', '0']
  else if c = '\t' then ['\\', 't']
  else if c = '\r' then ['\\', 'r']
  else if c = '\n' then ['\\', 'n']
  else if c = '\\' ∨ c = '"' then ['\\', c]
  else if needsCodePoint c then
    ['\\', 'u', '\x7b'] ++ Nat.toDigits 16 c.toNat ++ ['\x7d']
  else [c]

/-- A text between double quotes. -/
def quoted (s : String) : String :=
  String.ofList ('"' :: s.toList.flatMap escapeChar ++ ['"'])

/-- A list of quoted texts between square brackets. -/
def quotedList (ss : List String) : String :=
  "[" ++ ", ".intercalate (ss.map quoted) ++ "]"

end ModelTypings.Text
