import QuerySieve.Json.Value
import QuerySieve.Text.Basic

/-!
# Writing JSON

* `Value.compact`: a value on one line, without blanks.
* `Value.pretty`: a value over several lines, indented by two blanks; an empty list or object stays
  on its line.
-/

namespace QuerySieve.Json

/-- A character as it stands between quotes: the quote, the backslash and the characters below
`U+0020` are escaped, those with a letter of their own by it. -/
def escapeChar (c : Char) : List Char :=
  if c = '"' then ['\\', '"']
  else if c = '\\' then ['\\', '\\']
  else if c = '\x08' then ['\\', 'b']
  else if c = '\t' then ['\\', 't']
  else if c = '\n' then ['\\', 'n']
  else if c = '\x0c' then ['\\', 'f']
  else if c = '\r' then ['\\', 'r']
  else if c.toNat < 0x20 then '\\' :: 'u' :: Text.hex4 c.toNat
  else [c]

/-- A text in quotes. -/
def quoted (s : String) : List Char :=
  '"' :: (s.toList.flatMap escapeChar ++ ['"'])

/-- An integer in decimal digits. -/
def integer : Int → List Char
  | .ofNat n => Nat.toDigits 10 n
  | .negSucc n => '-' :: Nat.toDigits 10 (n + 1)

/-- A list or an object on one line: its parts between brackets, with commas between them. -/
def inlineBlock (opening closing : Char) (parts : List (List Char)) : List Char :=
  opening :: ([','].intercalate parts ++ [closing])

/-- A new line at a depth. -/
def newLine (depth : Nat) : List Char :=
  '\n' :: List.replicate (2 * depth) ' '

/-- A list or an object that stands at a depth: each part on a line of its own, one step deeper. -/
def indentedBlock (depth : Nat) (opening closing : Char) (parts : List (List Char)) : List Char :=
  if parts.isEmpty then [opening, closing] else
  opening :: (newLine (depth + 1) ++ (',' :: newLine (depth + 1)).intercalate parts ++
    newLine depth ++ [closing])

mutual

/-- The value on one line. -/
def compactChars : Value → List Char
  | .null => ['n', 'u', 'l', 'l']
  | .bool true => ['t', 'r', 'u', 'e']
  | .bool false => ['f', 'a', 'l', 's', 'e']
  | .int n => integer n
  | .real literal => literal.toList
  | .str s => quoted s
  | .arr items => inlineBlock '[' ']' (compactItems items)
  | .obj members => inlineBlock '\x7b' '\x7d' (compactMembers members)

/-- The items of a list, each on one line. -/
def compactItems : List Value → List (List Char)
  | [] => []
  | v :: vs => compactChars v :: compactItems vs

/-- The members of an object, each on one line. -/
def compactMembers : List (String × Value) → List (List Char)
  | [] => []
  | m :: ms => (quoted m.1 ++ ':' :: compactChars m.2) :: compactMembers ms

end

mutual

/-- The value over several lines, standing at a depth. -/
def prettyChars (depth : Nat) : Value → List Char
  | .null => ['n', 'u', 'l', 'l']
  | .bool true => ['t', 'r', 'u', 'e']
  | .bool false => ['f', 'a', 'l', 's', 'e']
  | .int n => integer n
  | .real literal => literal.toList
  | .str s => quoted s
  | .arr items => indentedBlock depth '[' ']' (prettyItems (depth + 1) items)
  | .obj members => indentedBlock depth '\x7b' '\x7d' (prettyMembers (depth + 1) members)

/-- The items of a list, each standing at a depth. -/
def prettyItems (depth : Nat) : List Value → List (List Char)
  | [] => []
  | v :: vs => prettyChars depth v :: prettyItems depth vs

/-- The members of an object, each standing at a depth. -/
def prettyMembers (depth : Nat) : List (String × Value) → List (List Char)
  | [] => []
  | m :: ms => (quoted m.1 ++ ':' :: ' ' :: prettyChars depth m.2) :: prettyMembers depth ms

end

/-- The value on one line, without blanks. -/
def Value.compact (v : Value) : String :=
  String.ofList (compactChars v)

/-- The value over several lines, indented by two blanks. -/
def Value.pretty (v : Value) : String :=
  String.ofList (prettyChars 0 v)

end QuerySieve.Json
