import QuerySieve.Text.CaseTables

/-!
# Letter case

* `isUpper`, `isLower`: the Unicode properties `Uppercase` and `Lowercase`.
* `lowered`: the full lower case of an upper-case character.
* `asciiLowered`: a text with the letters `A` to `Z` lowered.
-/

namespace QuerySieve.Text

/-- The run of capitals that a character belongs to. -/
def capitalRun? (c : Char) : Option CapitalRun :=
  capitalRuns.find? (·.holds c.toNat)

/-- Whether the character has the property `Uppercase`. -/
def isUpper (c : Char) : Bool :=
  (capitalRun? c).isSome

/-- Whether the character has the property `Lowercase`. -/
def isLower (c : Char) : Bool :=
  smallRuns.any (·.holds c.toNat)

/-- The lower case of an upper-case character; any other character is left alone. Only the capital
`İ` needs two characters, as its dot is written apart. -/
def lowered (c : Char) : List Char :=
  if c = 'İ' then ['i', '\u0307'] else
  match capitalRun? c with
  | some r => [Char.ofNat (r.small + (c.toNat - r.first))]
  | none => [c]

/-- A letter `A` to `Z` as a small letter. -/
def asciiLower (c : Char) : Char :=
  if 'A' ≤ c ∧ c ≤ 'Z' then Char.ofNat (c.toNat + 32) else c

/-- The text with the letters `A` to `Z` as small letters. -/
def asciiLowered (s : String) : String :=
  String.ofList (s.toList.map asciiLower)

end QuerySieve.Text
