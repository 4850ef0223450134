import QuerySieve.Text.Utf8

/-!
# SQL identifiers

Names reach the text of a statement as they are, so only plain ones are let through.

* `isIdentifier`: letters, digits and `_` of ASCII, no digit in front, at most 63 of them.
* `Identifier`: a name that is one.
* `InvalidName`: a name that is none, and where it was met.
-/

namespace QuerySieve.Sql

/-- The most bytes of an identifier. -/
def maxIdentifierBytes : Nat := 63

/-- A byte that is a letter of ASCII or `_`. -/
def isNameStart (b : UInt8) : Bool :=
  (0x41 ≤ b && b ≤ 0x5A) || (0x61 ≤ b && b ≤ 0x7A) || b == 0x5F

/-- A byte that is a letter or a digit of ASCII or `_`. -/
def isNamePart (b : UInt8) : Bool :=
  isNameStart b || (0x30 ≤ b && b ≤ 0x39)

/-- Whether the bytes are those of an identifier. -/
def isIdentifierBytes : List UInt8 → Bool
  | [] => false
  | b :: bs => (b :: bs).length ≤ maxIdentifierBytes && isNameStart b && bs.all isNamePart

/-- Whether a name may stand in a statement. -/
def isIdentifier (name : String) : Bool :=
  isIdentifierBytes (Text.utf8 name.toList)

/-- A name that may stand in a statement. -/
structure Identifier where
  name : String
  valid : isIdentifier name = true
  deriving DecidableEq, Repr

/-- A name that may not stand in a statement, and what it was to name. -/
structure InvalidName where
  context : String
  name : String
  deriving DecidableEq, Repr

/-- The wording of the error. -/
def InvalidName.message (e : InvalidName) : String :=
  "Invalid SQL " ++ e.context ++ " name '" ++ e.name ++
    "': must start with letter/underscore, contain only ASCII alphanumeric/underscore, " ++
    "and be 1-63 chars"

namespace Identifier

/-- The identifier of a name. -/
def ofString? (name : String) : Option Identifier :=
  if h : isIdentifier name = true then some ⟨name, h⟩ else none

/-- The identifier of a name that is to name something. -/
def require (context name : String) : Except InvalidName Identifier :=
  match ofString? name with
  | some i => .ok i
  | none => .error ⟨context, name⟩

end Identifier

end QuerySieve.Sql
