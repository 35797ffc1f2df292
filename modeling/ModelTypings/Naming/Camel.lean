import ModelTypings.Text.Case
import ModelTypings.Text.Cluster

/-!
# Camel case

An identifier is a row of words. A word ends at an underscore, a hyphen or a blank, and where the
kind of character changes: lower to upper case, letter to digit, digit to letter, or before the last
capital of a run that a small letter follows.

* `Cluster.isUpper`, `Cluster.isLower`, `Cluster.isDigit`: the kinds of a cluster;
* `words`: the words of a row of clusters, empty ones kept;
* `camelCase`: the first word in lower case, every later one with a capital at its start.
-/

namespace ModelTypings.Naming

open Text

/-- One cluster of characters, treated as one letter. -/
abbrev Cluster := List Char

/-- The cluster has case and is in upper case. -/
def Cluster.isUpper (g : Cluster) : Bool := upper g != lower g && g == upper g

/-- The cluster has case and is in lower case. -/
def Cluster.isLower (g : Cluster) : Bool := upper g != lower g && g == lower g

/-- The cluster is an ASCII digit. -/
def Cluster.isDigit (g : Cluster) : Bool := g.all Char.isDigit

/-- The cluster stands between two words and belongs to neither. -/
def Cluster.isSeparator (g : Cluster) : Bool := g == ['_'] || g == ['-'] || g == [' ']

/-- A word ends after `g`, before the clusters `next`. -/
def endsWord (g : Cluster) (next : List Cluster) : Bool :=
  match next with
  | [] => false
  | h :: more =>
    g.isLower && h.isUpper || g.isLower && h.isDigit || g.isUpper && h.isDigit ||
      g.isDigit && h.isLower || g.isDigit && h.isUpper ||
      g.isUpper && h.isUpper &&
        match more with
        | k :: _ => k.isLower
        | [] => false

/-- The words of a row of clusters that follows an open word, given in reverse. -/
def wordsAfter (open_ : List Cluster) : List Cluster → List (List Cluster)
  | [] => [open_.reverse]
  | g :: gs =>
    if g.isSeparator then open_.reverse :: wordsAfter [] gs
    else if endsWord g gs then (g :: open_).reverse :: wordsAfter [] gs
    else wordsAfter (g :: open_) gs

/-- The words of a row of clusters. -/
def words (gs : List Cluster) : List (List Cluster) := wordsAfter [] gs

/-- A word with its first cluster in upper case and the others in lower case. -/
def capitalize : List Cluster → List Char
  | [] => []
  | g :: gs => upper g ++ lower gs.flatten

/-- The camel case of an identifier: first word small, later words capitalised. -/
def camelCase (name : String) : String :=
  match words (clusters name.toList) with
  | [] => ""
  | w :: ws => String.ofList (lower w.flatten ++ ws.flatMap capitalize)

end ModelTypings.Naming
