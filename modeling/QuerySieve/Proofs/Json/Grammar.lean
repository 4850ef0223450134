import Mathlib.Data.List.Forall2
import QuerySieve.Json.Reader

/-!
# The grammar of JSON

Which texts write a value, said without a reader. A stretch of a text stands for a phrase: a value,
a value with blanks around it, or what is between the brackets of a list or an object.

* `Spells`: the ways to write one character between quotes.
* `WritesString`, `WritesNumber`: the texts of strings and numbers.
* `Phrase`, `Derives`: the texts of phrases.
* **`Value.Written`**: the texts of a value.
-/

namespace QuerySieve.Json

/-- Nothing but blanks. -/
def IsBlank (cs : List Char) : Prop :=
  ∀ c ∈ cs, isSpace c = true

/-! ## Strings -/

/-- The letters that stand for a character after a backslash. -/
def escapeLetters : List (Char × Char) :=
  [('"', '"'), ('\\', '\\'), ('/', '/'), ('b', '\x08'), ('f', '\x0c'), ('n', '\n'), ('r', '\r'),
    ('t', '\t')]

/-- Four hexadecimal digits and their number. -/
def IsHex4 (ds : List Char) (n : Nat) : Prop :=
  ds.length = 4 ∧ Text.hexNumber? ds = some n

/-- The ways to write a character between quotes. -/
inductive Spells : List Char → Char → Prop where
  /-- As it is, unless it is a quote, a backslash or below `U+0020`. -/
  | plain {c : Char} (control : 0x20 ≤ c.toNat) (quote : c ≠ '"') (backslash : c ≠ '\\') :
      Spells [c] c
  /-- By a letter. -/
  | letter {e c : Char} (h : (e, c) ∈ escapeLetters) : Spells ['\\', e] c
  /-- By its number. -/
  | code {ds : List Char} {n : Nat} (h : IsHex4 ds n) (high : isHighHalf n = false)
      (low : isLowHalf n = false) : Spells ('\\' :: 'u' :: ds) (Char.ofNat n)
  /-- By a pair of numbers, for a character that has a number of more than four digits. -/
  | pair {ds es : List Char} {n m : Nat} (hn : IsHex4 ds n) (hm : IsHex4 es m)
      (high : isHighHalf n = true) (low : isLowHalf m = true) :
      Spells ('\\' :: 'u' :: (ds ++ '\\' :: 'u' :: es))
        (Char.ofNat (0x10000 + (n - 0xD800) * 0x400 + (m - 0xDC00)))

/-- The texts of a string. -/
def WritesString (cs : List Char) (s : String) : Prop :=
  ∃ parts, List.Forall₂ Spells parts s.toList ∧ cs = '"' :: (parts.flatten ++ ['"'])

/-! ## Numbers -/

/-- One digit or more. -/
def IsDigits (ds : List Char) : Prop :=
  ds ≠ [] ∧ ∀ c ∈ ds, c.isDigit = true

/-- Nothing, or a point and digits. -/
def IsFraction (cs : List Char) : Prop :=
  cs = [] ∨ ∃ ds, IsDigits ds ∧ cs = '.' :: ds

/-- Nothing, or a letter `e`, a sign at most, and digits. -/
def IsExponent (cs : List Char) : Prop :=
  cs = [] ∨ ∃ e sign ds, (e = 'e' ∨ e = 'E') ∧ (sign = [] ∨ sign = ['+'] ∨ sign = ['-']) ∧
    IsDigits ds ∧ cs = e :: (sign ++ ds)

/-- The minus sign of a number, if it has one. -/
def minusSign (negative : Bool) : List Char :=
  if negative then ['-'] else []

/-- The texts of a number. A zero in front is the only digit before the point. -/
inductive WritesNumber : List Char → Value → Prop where
  | intro (negative : Bool) {digits fraction exponent : List Char} (hd : IsDigits digits)
      (zero : digits.head? = some '0' → digits.length = 1) (hf : IsFraction fraction)
      (he : IsExponent exponent) :
      WritesNumber (minusSign negative ++ (digits ++ (fraction ++ exponent)))
        (numberValue negative digits (fraction ++ exponent))

/-! ## Values -/

/-- What a stretch of a text can stand for. -/
inductive Phrase where
  | value (v : Value)
  /-- A value with blanks around it. -/
  | padded (v : Value)
  /-- The items of a list that is not empty. -/
  | items (vs : List Value)
  /-- A member of an object. -/
  | member (m : String × Value)
  /-- The members of an object that is not empty. -/
  | members (ms : List (String × Value))

/-- The texts of phrases. -/
inductive Derives : Phrase → List Char → Prop where
  | null : Derives (.value .null) ['n', 'u', 'l', 'l']
  | true : Derives (.value (.bool true)) ['t', 'r', 'u', 'e']
  | false : Derives (.value (.bool false)) ['f', 'a', 'l', 's', 'e']
  | number {cs : List Char} {v : Value} (h : WritesNumber cs v) : Derives (.value v) cs
  | string {cs : List Char} {s : String} (h : WritesString cs s) : Derives (.value (.str s)) cs
  | emptyList {a : List Char} (ha : IsBlank a) : Derives (.value (.arr [])) ('[' :: (a ++ [']']))
  | list {cs : List Char} {vs : List Value} (h : Derives (.items vs) cs) :
      Derives (.value (.arr vs)) ('[' :: (cs ++ [']']))
  | emptyObject {a : List Char} (ha : IsBlank a) :
      Derives (.value (.obj [])) ('\x7b' :: (a ++ ['\x7d']))
  | object {cs : List Char} {ms : List (String × Value)} (h : Derives (.members ms) cs) :
      Derives (.value (.obj ms)) ('\x7b' :: (cs ++ ['\x7d']))
  | pad {a b cs : List Char} {v : Value} (ha : IsBlank a) (hb : IsBlank b)
      (h : Derives (.value v) cs) : Derives (.padded v) (a ++ (cs ++ b))
  | item {cs : List Char} {v : Value} (h : Derives (.padded v) cs) : Derives (.items [v]) cs
  | consItem {cs ds : List Char} {v : Value} {vs : List Value} (h : Derives (.padded v) cs)
      (hs : Derives (.items vs) ds) : Derives (.items (v :: vs)) (cs ++ ',' :: ds)
  | named {a b ns cs : List Char} {name : String} {v : Value} (ha : IsBlank a) (hb : IsBlank b)
      (hn : WritesString ns name) (h : Derives (.padded v) cs) :
      Derives (.member (name, v)) (a ++ (ns ++ (b ++ ':' :: cs)))
  | lastMember {cs : List Char} {m : String × Value} (h : Derives (.member m) cs) :
      Derives (.members [m]) cs
  | consMember {cs ds : List Char} {m : String × Value} {ms : List (String × Value)}
      (h : Derives (.member m) cs) (hs : Derives (.members ms) ds) :
      Derives (.members (m :: ms)) (cs ++ ',' :: ds)

/-- **The texts of a value**, with blanks around it at most. -/
def Value.Written (v : Value) (text : String) : Prop :=
  Derives (.padded v) text.toList

end QuerySieve.Json
