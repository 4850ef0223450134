/-!
# UTF-8

* `utf8`: the bytes of a text.
* `decodeUtf8`: the text of any bytes. Where they are no UTF-8, each longest stretch that could
  still have begun a character gives one replacement character.
-/

namespace QuerySieve.Text

/-- The UTF-8 bytes of a text. -/
def utf8 (cs : List Char) : List UInt8 :=
  cs.flatMap String.utf8EncodeChar

/-- The character that stands for bytes that are no UTF-8. -/
def replacement : Char := '\uFFFD'

/-- A character of which some bytes have been read: the next byte lies between `low` and `high`,
`owed` more follow it, and `code` is the code point so far. -/
structure OpenChar where
  low : Nat
  high : Nat
  owed : Nat
  code : Nat
  deriving DecidableEq, Repr

/-- What a byte between characters gives, and the character it opens. The bounds leave out the long
forms, the surrogates and all above `0x10FFFF`. -/
def leadByte (b : Nat) : List Char × Option OpenChar :=
  if b < 0x80 then ([Char.ofNat b], none)
  else if b < 0xC2 then ([replacement], none)
  else if b < 0xE0 then ([], some ⟨0x80, 0xBF, 0, b - 0xC0⟩)
  else if b = 0xE0 then ([], some ⟨0xA0, 0xBF, 1, 0⟩)
  else if b = 0xED then ([], some ⟨0x80, 0x9F, 1, 0xD⟩)
  else if b < 0xF0 then ([], some ⟨0x80, 0xBF, 1, b - 0xE0⟩)
  else if b = 0xF0 then ([], some ⟨0x90, 0xBF, 2, 0⟩)
  else if b < 0xF4 then ([], some ⟨0x80, 0xBF, 2, b - 0xF0⟩)
  else if b = 0xF4 then ([], some ⟨0x80, 0x8F, 2, 4⟩)
  else ([replacement], none)

/-- One byte: what it gives, and the character that is open after it. A byte that cannot go on with
the open character is read anew, after a replacement. -/
def decodeByte : Option OpenChar → UInt8 → List Char × Option OpenChar
  | none, b => leadByte b.toNat
  | some p, b =>
    if p.low ≤ b.toNat ∧ b.toNat ≤ p.high then
      let code := p.code * 64 + (b.toNat - 0x80)
      match p.owed with
      | 0 => ([Char.ofNat code], none)
      | owed + 1 => ([], some ⟨0x80, 0xBF, owed, code⟩)
    else
      let next := leadByte b.toNat
      (replacement :: next.1, next.2)

/-- The text of the bytes after an open character. -/
def decodeFrom : Option OpenChar → List UInt8 → List Char
  | none, [] => []
  | some _, [] => [replacement]
  | s, b :: bs =>
    let next := decodeByte s b
    next.1 ++ decodeFrom next.2 bs

/-- The text of any bytes. -/
def decodeUtf8 (bs : List UInt8) : List Char :=
  decodeFrom none bs

end QuerySieve.Text
