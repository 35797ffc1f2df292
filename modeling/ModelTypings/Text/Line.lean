/-!
# Lines of a text

* `lines`: the lines of a text, each without the line feed that ends it and without one carriage
  return before that line feed.
-/

namespace ModelTypings.Text

/-- The lines of a text. A last line without a line feed is kept as it stands, an empty one is
dropped. -/
def lines : List Char → List (List Char)
  | [] => []
  | '\n' :: cs => [] :: lines cs
  | '\r' :: '\n' :: cs => [] :: lines cs
  | c :: cs =>
    match lines cs with
    | [] => [[c]]
    | l :: ls => (c :: l) :: ls

end ModelTypings.Text
