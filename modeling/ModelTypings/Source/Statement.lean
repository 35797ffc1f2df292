import ModelTypings.Source.Carry
import ModelTypings.Text.Blank
import ModelTypings.Text.Split

/-!
# The statements of one line

* `pieces`: a line cut at the semicolons that stand outside strings and brackets, up to its comment;
* `statements`: the pieces that hold something, trimmed.
-/

namespace ModelTypings.Source

open Text

/-- The pieces of a line at a bracket depth, inside the string of a quote or outside strings. -/
def pieces : Int → Option Char → List Char → List (List Char)
  | _, _, [] => [[]]
  | _, some _, ['\\'] => [['\\']]
  | d, some q, '\\' :: e :: cs => consFirst '\\' (consFirst e (pieces d (some q) cs))
  | d, some q, c :: cs => consFirst c (pieces d (if c = q then none else some q) cs)
  | d, none, c :: cs =>
    if c = '#' then [[]]
    else if isQuote c then consFirst c (pieces d (some c) cs)
    else if c = ';' ∧ d = 0 then [] :: pieces d none cs
    else consFirst c (pieces (d + nesting c) none cs)

/-- The statements of a line, in order. -/
def statements (line : List Char) : List (List Char) :=
  ((pieces 0 none line).map trim).filter fun s => !s.isEmpty

end ModelTypings.Source
