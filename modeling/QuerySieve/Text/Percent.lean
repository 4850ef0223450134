import QuerySieve.Text.Basic
import QuerySieve.Text.Utf8

/-!
# URL encoding

A query string in a URL writes a space as `+` and any byte as `%` and two hexadecimal digits.

* `unescape`: the bytes behind the escapes, within a room of bytes.
* `urlDecode`: the text of an encoded query string, or `DecodeError.tooLong`.
-/

namespace QuerySieve.Text

/-- Why an encoded query string has no text. -/
inductive DecodeError where
  /-- There are more than `max` decoded bytes. -/
  | tooLong (max : Nat)
  deriving DecidableEq, Repr

/-- The wording of the error. -/
def DecodeError.message : DecodeError → String
  | .tooLong max => "url decoded query exceeds maximum length (" ++ max.repr ++ " bytes)"

/-- The value of a byte that is a hexadecimal digit. -/
def hexByte? (b : UInt8) : Option Nat :=
  hexValue? (Char.ofNat b.toNat)

/-- The byte that three bytes write if they are `%` and two hexadecimal digits. -/
def escapedByte? (b h l : UInt8) : Option UInt8 :=
  if b = 0x25 then
    match hexByte? h, hexByte? l with
    | some x, some y => some (UInt8.ofNat (16 * x + y))
    | _, _ => none
  else none

/-- The byte that a byte outside of escapes stands for. -/
def plainByte (b : UInt8) : UInt8 :=
  if b = 0x2B then 0x20 else b

/-- The bytes behind the escapes, or none when they are more than `room`. A `%` that begins no
escape stands for itself. -/
def unescape : Nat → List UInt8 → Option (List UInt8)
  | _, [] => some []
  | 0, _ :: _ => none
  | room + 1, b :: h :: l :: rest =>
    match escapedByte? b h l with
    | some x => (unescape room rest).map (x :: ·)
    | none => (unescape room (h :: l :: rest)).map (plainByte b :: ·)
  | room + 1, b :: rest => (unescape room rest).map (plainByte b :: ·)

/-- The text of an encoded query string of at most `max` decoded bytes. -/
def urlDecode (s : String) (max : Nat) : Except DecodeError String :=
  match unescape max (utf8 s.toList) with
  | some bs => .ok (String.ofList (decodeUtf8 bs))
  | none => .error (.tooLong max)

end QuerySieve.Text
