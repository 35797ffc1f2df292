import ModelTypings.Toml.Value
import ModelTypings.Toml.Quoted

/-!
# Values without quotes or brackets

* `integer?`, `float?`, `moment?`: the three families of numbers and dates;
* `scalar?`: the value of a text without quotes;
* `takeScalar`: such a text at the start of another, with a time after a date and a blank.
-/

namespace ModelTypings.Toml

/-! ## Digits -/

/-- The digits of a text in which single underscores may stand between digits. -/
def digits? (isDigit : Char → Bool) : List Char → Option (List Char)
  | [] => none
  | [c] => if isDigit c then some [c] else none
  | c :: '_' :: cs => if isDigit c then (digits? isDigit cs).map (c :: ·) else none
  | c :: cs => if isDigit c then (digits? isDigit cs).map (c :: ·) else none

/-- Decimal digits without a superfluous zero at the start. -/
def wholeDigits? (s : List Char) : Option (List Char) :=
  (digits? Char.isDigit s).filter fun ds => !(ds.head? == some '0' && decide (1 < ds.length))

/-- The number that digits stand for. -/
def valueOf (base : Nat) (ds : List Char) : Nat :=
  ds.foldl (fun n c => base * n + (hexValue? c).getD 0) 0

/-- A text without its sign, and whether it was a minus. -/
def splitSign : List Char → Bool × List Char
  | '-' :: cs => (true, cs)
  | '+' :: cs => (false, cs)
  | cs => (false, cs)

/-! ## Integers -/

/-- The integers that fit into 128 bits, with or without a sign. -/
def fits (n : Int) : Bool :=
  decide (-Int.ofNat (Nat.pow 2 127) ≤ n) && decide (n < Int.ofNat (Nat.pow 2 128))

/-- A decimal integer, or one in another base without a sign. -/
def integer? (s : List Char) : Option Int :=
  let n? : Option Int :=
    match s with
    | '0' :: 'x' :: cs => (digits? (fun c => (hexValue? c).isSome) cs).map fun ds => valueOf 16 ds
    | '0' :: 'o' :: cs =>
      (digits? (fun c => '0' ≤ c && c ≤ '7') cs).map fun ds => valueOf 8 ds
    | '0' :: 'b' :: cs => (digits? (fun c => c == '0' || c == '1') cs).map fun ds => valueOf 2 ds
    | _ =>
      let (negative, cs) := splitSign s
      (wholeDigits? cs).map fun ds => if negative then -(valueOf 10 ds : Int) else valueOf 10 ds
  n?.filter fits

/-! ## Floats -/

/-- The least number that rounds to infinity in double precision. -/
def overflowBound : Nat := Nat.pow 2 1024 - Nat.pow 2 970

/-- `m * 10 ^ e` is below the bound. Only numbers near it are computed. -/
def isFinite (m : Nat) (e : Int) : Bool :=
  let size : Int := (Nat.toDigits 10 m).length + e
  if m = 0 ∨ size < 300 then true
  else if 320 < size then false
  else if 0 ≤ e then m * Nat.pow 10 e.toNat < overflowBound
  else m < overflowBound * Nat.pow 10 (-e).toNat

/-- The exponent after the letter of a float. -/
def exponent? (s : List Char) : Option Int :=
  let (negative, cs) := splitSign s
  (digits? Char.isDigit cs).map fun ds => if negative then -(valueOf 10 ds : Int) else valueOf 10 ds

/-- A float without its sign: digits with a fraction, an exponent or both. -/
def unsignedFloat? (s : List Char) : Option String := do
  let isExponent := fun c => c == 'e' || c == 'E'
  let mantissa := s.takeWhile fun c => !isExponent c
  let whole ← wholeDigits? (mantissa.takeWhile (· != '.'))
  let fraction ←
    match mantissa.dropWhile (· != '.') with
    | [] => some []
    | _ :: cs => digits? Char.isDigit cs
  let exponent ←
    match s.dropWhile fun c => !isExponent c with
    | [] => if fraction.isEmpty then none else some 0
    | _ :: cs => exponent? cs
  if isFinite (valueOf 10 (whole ++ fraction)) (exponent - fraction.length) then
    some (String.ofList (s.filter (· != '_')))
  else none

/-- A float, an infinity or not a number. -/
def float? (s : List Char) : Option String :=
  let (negative, cs) := splitSign s
  let sign := if negative then "-" else ""
  if cs = ['i', 'n', 'f'] ∨ cs = ['n', 'a', 'n'] then some (sign ++ String.ofList cs)
  else (unsignedFloat? cs).map (sign ++ ·)

/-! ## Dates and times -/

/-- Reads a number of exactly `n` digits, and what follows it. -/
def fixedNumber? (n : Nat) (s : List Char) : Option (Nat × List Char) :=
  let ds := s.take n
  if ds.length = n ∧ ds.all Char.isDigit then some (valueOf 10 ds, s.drop n) else none

/-- What follows a character. -/
def expect? (c : Char) : List Char → Option (List Char)
  | d :: cs => if d = c then some cs else none
  | [] => none

/-- The number of days of a month. -/
def daysOf (year month : Nat) : Nat :=
  if month = 2 then if year % 4 = 0 ∧ (year % 100 ≠ 0 ∨ year % 400 = 0) then 29 else 28
  else if [4, 6, 9, 11].contains month then 30
  else 31

/-- What follows a date. -/
def afterDate? (s : List Char) : Option (List Char) := do
  let (year, s) ← fixedNumber? 4 s
  let (month, s) ← fixedNumber? 2 (← expect? '-' s)
  let (day, s) ← fixedNumber? 2 (← expect? '-' s)
  if 1 ≤ month ∧ month ≤ 12 ∧ 1 ≤ day ∧ day ≤ daysOf year month then some s else none

/-- What follows hours and minutes. -/
def afterMinutes? (s : List Char) : Option (List Char) := do
  let (hour, s) ← fixedNumber? 2 s
  let (minute, s) ← fixedNumber? 2 (← expect? ':' s)
  if hour ≤ 23 ∧ minute ≤ 59 then some s else none

/-- What follows a time. Seconds and their fraction may be left out. -/
def afterTime? (s : List Char) : Option (List Char) := do
  match ← afterMinutes? s with
  | ':' :: s =>
    let (second, s) ← fixedNumber? 2 s
    if 60 < second then none
    else
      match s with
      | '.' :: cs => if cs.head?.any Char.isDigit then some (cs.dropWhile Char.isDigit) else none
      | s => some s
  | s => some s

/-- The text is empty or the offset of a time zone. -/
def isOffset (s : List Char) : Bool :=
  match s with
  | [] | ['Z'] | ['z'] => true
  | '+' :: cs | '-' :: cs => afterMinutes? cs == some []
  | _ => false

/-- A date, a time, or a date with a time and perhaps an offset. -/
def isMoment (s : List Char) : Bool :=
  match afterDate? s with
  | some [] => true
  | some (d :: cs) => (d == 'T' || d == 't' || d == ' ') && (afterTime? cs).any isOffset
  | none => afterTime? s == some []

/-! ## All of them -/

/-- The value of a text without quotes. -/
def scalar? (s : List Char) : Option Value :=
  if s = ['t', 'r', 'u', 'e'] then some (.boolean true)
  else if s = ['f', 'a', 'l', 's', 'e'] then some (.boolean false)
  else if isMoment s then some (.moment (String.ofList s))
  else
    match integer? s with
    | some n => some (.integer n)
    | none => (float? s).map .float

/-- `c` can stand in a value without quotes. -/
def isScalarChar (c : Char) : Bool :=
  c.isAlphanum || c == '_' || c == '+' || c == '-' || c == '.' || c == ':'

/-- The longest text without quotes at the start, and what follows it. A date reaches over one
blank to the digits of a time. -/
def takeScalar (s : List Char) : List Char × List Char :=
  let word := s.takeWhile isScalarChar
  match s.dropWhile isScalarChar with
  | ' ' :: d :: cs =>
    if afterDate? word = some [] ∧ d.isDigit then
      (word ++ ' ' :: (d :: cs).takeWhile isScalarChar, (d :: cs).dropWhile isScalarChar)
    else (word, ' ' :: d :: cs)
  | rest => (word, rest)

/-- Reads a value without quotes or brackets. -/
def readScalar (s : List Char) : Option (Value × List Char) :=
  let (word, rest) := takeScalar s
  (scalar? word).map fun v => (v, rest)

end ModelTypings.Toml
