/-!
# Characters of TOML

* `isTextChar`: what may stand in a string as it is;
* `isKeyChar`: what may stand in a key without quotes.
-/

namespace ModelTypings.Toml

/-- `c` may stand in a text: it is a tab or no control character. -/
def isTextChar (c : Char) : Bool := c == '\t' || decide (0x20 ≤ c.toNat) && c.toNat != 0x7F

/-- `c` may stand in a key without quotes. -/
def isKeyChar (c : Char) : Bool := c.isAlphanum || c == '_' || c == '-'

end ModelTypings.Toml
