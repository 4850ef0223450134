import QuerySieve.Text.Basic
import QuerySieve.Text.LetterCase

/-!
# Field names

Clients spell a field in many ways; a normalizer brings the spellings to one name.

* `Normalizer`: a map from spellings to names.
* **`snakeCase`**: words in small letters, joined by `_`.
* `verbatim`: the spelling itself.
-/

namespace QuerySieve

/-- A map from the spellings of a field to its name. -/
abbrev Normalizer := String → String

namespace FieldName

open Text

/-- What stands before the character to be read; the start of a name counts as a separator. -/
inductive Before where
  | separator
  | capital
  | other
  deriving DecidableEq, Repr

/-- Whether a capital begins a word, given what follows it: after another capital it does so only in
front of a small letter, as in `HTTPStatus`. -/
def beginsWord : Before → List Char → Bool
  | .separator, _ => false
  | .capital, cs => cs.head?.any isLower
  | .other, _ => true

/-- The name in snake case, from some place of it on. -/
def snakeFrom : Before → List Char → List Char
  | _, [] => []
  | before, c :: cs =>
    if c = '_' then '_' :: snakeFrom .separator cs
    else if c = '-' ∨ isBlank c then
      (if before = .separator then [] else ['_']) ++ snakeFrom .separator cs
    else if isUpper c then
      (if beginsWord before cs then ['_'] else []) ++ lowered c ++ snakeFrom .capital cs
    else c :: snakeFrom .other cs

/-- Words in small letters, joined by `_`: `firstName`, `First-Name` and `first name` are all
`first_name`. -/
def snakeCase : Normalizer := fun s =>
  String.ofList (snakeFrom .separator (trim s.toList))

/-- The spelling itself. -/
def verbatim : Normalizer := fun s => s

end FieldName

end QuerySieve
