import ModelTypings.Text.Ranges
import ModelTypings.Text.Word.Table

/-!
# Words and names

* `isWord`: letters, marks, digits, connector punctuation and join controls;
* `isNameStart`: an ASCII letter or an underscore;
* `takeName`: the name at the start of a text, and what follows it.
-/

namespace ModelTypings.Text

/-- `c` can stand inside a name. -/
def isWord (c : Char) : Bool :=
  c.isAlphanum || c == '_' || inRanges wordRanges c

/-- `c` can start a name. -/
def isNameStart (c : Char) : Bool := c.isAlpha || c == '_'

/-- The name at the start of a text, as long as possible, and the rest of the text. -/
def takeName : List Char → Option (List Char × List Char)
  | [] => none
  | c :: cs => if isNameStart c then some (c :: cs.takeWhile isWord, cs.dropWhile isWord) else none

end ModelTypings.Text
