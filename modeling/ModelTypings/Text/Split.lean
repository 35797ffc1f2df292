/-!
# Cutting a text at a character

The same serves for the characters of a text and for its bytes.

* `consFirst`: a character put in front of the first of several pieces;
* `splitAt`: the pieces of a text between the occurrences of a character, always one more than
  there are occurrences;
* `joinWith`: the inverse, pieces with the character between them.
-/

namespace ModelTypings.Text

variable {α : Type}

/-- Puts a character in front of the first piece. -/
def consFirst (c : α) : List (List α) → List (List α)
  | [] => [[c]]
  | p :: ps => (c :: p) :: ps

/-- The pieces of a text between the occurrences of `sep`. -/
def splitAt [DecidableEq α] (sep : α) : List α → List (List α)
  | [] => [[]]
  | c :: cs => if c = sep then [] :: splitAt sep cs else consFirst c (splitAt sep cs)

/-- The pieces with `sep` between them. -/
def joinWith (sep : α) : List (List α) → List α
  | [] => []
  | [p] => p
  | p :: q :: ps => p ++ sep :: joinWith sep (q :: ps)

end ModelTypings.Text
