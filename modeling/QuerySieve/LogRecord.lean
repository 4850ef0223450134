import QuerySieve.Text.Basic

/-!
# Log records

A record is written as one line that holds a JSON object.

* `LogRecord`: a level, a message and named texts.
* `LogRecord.line`: the line of a record, with its time.
-/

namespace QuerySieve

/-- A level, a message and named texts, in the order they are written. -/
structure LogRecord where
  level : String
  message : String
  fields : List (String × String)
  deriving DecidableEq, Repr

namespace LogRecord

/-- The control characters of Unicode. -/
def isControl (c : Char) : Bool :=
  c.toNat < 0x20 || (0x7F ≤ c.toNat && c.toNat < 0xA0)

/-- A character as it stands between the quotes of a line. -/
def escapeChar (c : Char) : List Char :=
  if c = '"' then ['\\', '"']
  else if c = '\\' then ['\\', '\\']
  else if c = '\n' then ['\\', 'n']
  else if c = '\r' then ['\\', 'r']
  else if c = '\t' then ['\\', 't']
  else if isControl c then '\\' :: 'u' :: Text.hex4 c.toNat
  else [c]

/-- A text as it stands between the quotes of a line. -/
def escape (s : String) : String :=
  String.ofList (s.toList.flatMap escapeChar)

/-- A name and its text. -/
def fieldText (f : String × String) : String :=
  ",\"" ++ escape f.1 ++ "\":\"" ++ escape f.2 ++ "\""

/-- The line of a record but for its time and its closing brace. -/
def opening (r : LogRecord) : String :=
  "\x7b\"level\":\"" ++ r.level ++ "\",\"msg\":\"" ++ escape r.message ++ "\"" ++
    String.join (r.fields.map fieldText)

/-- The line of a record written at a time, in milliseconds. -/
def line (r : LogRecord) (time : Nat) : String :=
  r.opening ++ ",\"ts\":" ++ time.repr ++ "\x7d"

/-- What is written of the records: nothing when logging is off. -/
def emitted (enabled : Bool) (rs : List LogRecord) : List LogRecord :=
  if enabled then rs else []

end LogRecord

end QuerySieve
