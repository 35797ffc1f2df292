import ModelTypings.Log.Filter

/-!
# Lines of the log

* `sanitized`: a message without characters that steer a terminal;
* `Record.line`: the line of a record.
-/

namespace ModelTypings.Log

/-- A character of a message. Controls that steer a terminal are written as their codes. -/
def sanitizedChar (c : Char) : List Char :=
  let code := Nat.toDigits 16 c.toNat
  if c = '\x07' ∨ c = '\x08' ∨ c = '\x0c' then '\\' :: 'x' :: '0' :: code
  else if c = '\x1b' ∨ c = '\x7f' then '\\' :: 'x' :: code
  else if 0x80 ≤ c.toNat ∧ c.toNat ≤ 0x9F then ['\\', 'u', '\x7b'] ++ code ++ ['\x7d']
  else [c]

/-- A message without characters that steer a terminal. -/
def sanitized (s : String) : String := String.ofList (s.toList.flatMap sanitizedChar)

/-- The file under way, as it stands before a message. -/
def filePart (file : String) : String := "file\x7bpath=" ++ file ++ "\x7d: "

/-- The line of a record. Files are named where infos are shown. -/
def Record.line (v : Verbosity) (r : Record) : String :=
  r.event.level.name ++ " " ++
    (if v.shows .info then (r.file.map filePart).getD "" else "") ++ sanitized r.event.message

/-- The lines of the records that are shown. -/
def shownLines (v : Verbosity) (records : List Record) : List String :=
  (records.filter fun r => v.shows r.event.level).map (Record.line v)

end ModelTypings.Log
