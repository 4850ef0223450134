import QuerySieve.Json.Value
import QuerySieve.Text.Basic
import QuerySieve.Toml.Lexeme
import QuerySieve.Toml.Moment

/-!
# Words of TOML

A value without quotes or brackets is a word: a truth value, a whole number, a fraction or a moment.
A word may have blanks inside, as between a date and a time.

* `readWord`: the word at the front of a text.
* `isGrouped`: the words whose underscores stand between digits.
* `isWhole`, `isFraction`: the words that are numbers in base ten.
* **`scalar?`**: the value of a word. Only truth values and whole numbers have one; of all else the
  text is kept.
-/

namespace QuerySieve.Toml

open Json (Value)

/-! ## Words -/

/-- A character of a word that is no blank. -/
def isWordChar (c : Char) : Bool :=
  c ∉ ['=', ',', '[', ']', '\x7b', '\x7d', '#', ' ', '\t', '\r', '\n']

/-- Whether a word goes on after the blanks at the front of a text. A quote begins something else. -/
def goesOn (cs : List Char) : Bool :=
  (skipSpace cs).head?.any fun c => isWordChar c && c != '"' && c != '\''

/-- The word at the front of a text, and the text after it. Blanks are part of a word that goes on
after them. -/
def readWord : List Char → List Char × List Char
  | [] => ([], [])
  | c :: cs =>
    if isWordChar c || (isSpace c && goesOn cs) then
      let (word, rest) := readWord cs
      (c :: word, rest)
    else ([], c :: cs)

/-! ## Digits -/

/-- A digit of a base up to sixteen. -/
def isDigitOf (base : Nat) (c : Char) : Bool :=
  (Text.hexValue? c).any (· < base)

/-- The word without the one sign at its front. -/
def unsigned : List Char → List Char
  | '+' :: cs => cs
  | '-' :: cs => cs
  | cs => cs

/-! ## Underscores -/

/-- Whether the parts between underscores meet in digits: each but the last one ends with a digit,
and each but the first one begins with one. -/
def joined (isDigit : Char → Bool) : List (List Char) → Bool
  | a :: b :: parts =>
    a.getLast?.any isDigit && b.head?.any isDigit && joined isDigit (b :: parts)
  | _ => true

/-- Whether each underscore of a word stands between digits. -/
def isGrouped (isDigit : Char → Bool) (word : List Char) : Bool :=
  joined isDigit (word.splitOn '_')

/-- The word without its underscores. -/
def ungrouped (word : List Char) : List Char :=
  word.filter (· ≠ '_')

/-! ## Whole numbers -/

/-- The number that digits of a base write; there is one at least. -/
def inBase? (base : Nat) (cs : List Char) : Option Nat := do
  let digits ← cs.mapM Text.hexValue?
  if !digits.isEmpty && digits.all (· < base) then some (digits.foldl (base * · + ·) 0) else none

/-- The number that a sign, if any, and decimal digits write. -/
def signed? : List Char → Option Int
  | '-' :: cs => (inBase? 10 cs).map fun n => -Int.ofNat n
  | cs => (inBase? 10 (unsigned cs)).map Int.ofNat

/-- Whether a number with or without a sign begins with a zero that adds nothing. -/
def hasLeadingZero (body : List Char) : Bool :=
  1 < body.length && body.head? == some '0'

/-- A mark of a fraction or an exponent. -/
def isFractionMark (c : Char) : Bool :=
  c = '.' || c = 'e' || c = 'E'

/-- Whether a word is taken for a whole number in base ten: digits, and from the first underscore on
whatever the underscores allow but a space. -/
def isWhole (word : List Char) : Bool :=
  let body := unsigned word
  let tail := body.dropWhile Char.isDigit
  !body.isEmpty && (tail.isEmpty || tail.head? == some '_') && !(tail.contains ' ') &&
    !(tail.any isFractionMark) && !(hasLeadingZero body) && isGrouped (isDigitOf 16) word

/-- A whole number, or its text where it has no value. -/
def wholeValue (word : List Char) (n : Option Int) : Value :=
  (n.map Value.int).getD (.real (String.ofList word))

/-- The whole number of a word in a base other than ten, from after the mark of the base on. -/
def inRadix? (base : Nat) (word digits : List Char) : Option Value :=
  if digits.all (fun c => c = '_' || isDigitOf base c) && isGrouped (isDigitOf 16) digits then
    some (wholeValue word ((inBase? base (ungrouped digits)).map Int.ofNat))
  else none

/-! ## Fractions -/

/-- The text after the digits and underscores at its front, with at least one digit. More than one
digit may begin with zero only where `zero` says so. -/
def afterDigits? (zero : Bool) (cs : List Char) : Option (List Char) :=
  let run := cs.takeWhile fun c => c.isDigit || c = '_'
  let count := run.countP Char.isDigit
  if count = 0 ∨ (1 < count ∧ run.head? = some '0' ∧ !zero) then none else cs.drop run.length

/-- The text after a point and the digits of a fraction, if it begins with a point. -/
def afterPoint? : List Char → Option (List Char)
  | '.' :: cs => afterDigits? true cs
  | cs => some cs

/-- The text after an exponent, if it begins with one. -/
def afterExponent? : List Char → Option (List Char)
  | 'e' :: cs => afterDigits? true (unsigned cs)
  | 'E' :: cs => afterDigits? true (unsigned cs)
  | cs => some cs

/-- Whether a word is a number with a fraction or an exponent, infinite, or no number at all. -/
def isFraction (word : List Char) : Bool :=
  let body := unsigned word
  body == "inf".toList || body == "nan".toList ||
    (body.any isFractionMark && isGrouped Char.isDigit word &&
      (((afterDigits? false body).bind afterPoint?).bind afterExponent?) == some [])

/-! ## Values -/

/-- The value of a word. -/
def scalar? (word : List Char) : Option Value :=
  match word with
  | '0' :: 'x' :: digits => inRadix? 16 word digits
  | '0' :: 'o' :: digits => inRadix? 8 word digits
  | '0' :: 'b' :: digits => inRadix? 2 word digits
  | _ =>
    if word = "true".toList then some (.bool true)
    else if word = "false".toList then some (.bool false)
    else if isWhole word then some (wholeValue word (signed? (ungrouped word)))
    else if isFraction word || isMoment word then some (.real (String.ofList word))
    else none

end QuerySieve.Toml
