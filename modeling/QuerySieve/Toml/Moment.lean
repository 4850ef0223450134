/-!
# Dates and times in TOML

A moment is a date, a time of day, or both with or without an offset from universal time. A policy
has no use for one, so what counts is which words write a moment.

* `afterDate?`, `afterTime?`, `afterOffset?`: the text after a part at its front.
* **`isMoment`**: the words that write a moment.
-/

namespace QuerySieve.Toml

/-- The number that the digits at the front of a text write, and the text after them. There are
exactly `n` of them. -/
def readPlaces (n : Nat) (cs : List Char) : Option (Nat × List Char) :=
  let digits := cs.takeWhile Char.isDigit
  if digits.length = n then some (Nat.ofDigitChars 10 digits 0, cs.drop n) else none

/-- The text after a character that it begins with. -/
def afterChar? (c : Char) : List Char → Option (List Char)
  | [] => none
  | d :: cs => if d = c then some cs else none

/-! ## Dates -/

/-- Whether February has a 29th day. -/
def isLeapYear (year : Nat) : Bool :=
  year % 4 == 0 && (year % 100 != 0 || year % 400 == 0)

/-- The number of days of a month. -/
def daysIn (year month : Nat) : Nat :=
  if month = 2 then if isLeapYear year then 29 else 28
  else if month ∈ [4, 6, 9, 11] then 30
  else 31

/-- The text after a date, year first. -/
def afterDate? (cs : List Char) : Option (List Char) := do
  let (year, cs) ← readPlaces 4 cs
  let (month, cs) ← readPlaces 2 (← afterChar? '-' cs)
  let (day, cs) ← readPlaces 2 (← afterChar? '-' cs)
  if 1 ≤ month ∧ month ≤ 12 ∧ 1 ≤ day ∧ day ≤ daysIn year month then some cs else none

/-! ## Times of day -/

/-- The text after an hour and a minute. -/
def afterClock? (cs : List Char) : Option (List Char) := do
  let (hour, cs) ← readPlaces 2 cs
  let (minute, cs) ← readPlaces 2 (← afterChar? ':' cs)
  if hour ≤ 23 ∧ minute ≤ 59 then some cs else none

/-- The text after a fraction of a second, if it begins with one. -/
def afterFraction? : List Char → Option (List Char)
  | '.' :: cs => if (cs.takeWhile Char.isDigit).isEmpty then none else cs.dropWhile Char.isDigit
  | cs => some cs

/-- The text after a time of day. Seconds may be left out, and a minute may have one too many. -/
def afterTime? (cs : List Char) : Option (List Char) := do
  match ← afterClock? cs with
  | ':' :: cs =>
    let (second, cs) ← readPlaces 2 cs
    if second ≤ 60 then afterFraction? cs else none
  | cs => some cs

/-- The text after an offset, if it begins with one. -/
def afterOffset? : List Char → Option (List Char)
  | [] => some []
  | c :: cs =>
    if c = 'Z' ∨ c = 'z' then some cs
    else if c = '+' ∨ c = '-' then afterClock? cs
    else none

/-! ## Moments -/

/-- Whether a word writes a moment. A `T` or a blank divides a date from a time, and only a time
after a date has an offset. -/
def isMoment (word : List Char) : Bool :=
  match afterDate? word with
  | none => afterTime? word == some []
  | some [] => true
  | some (c :: cs) =>
    (c == 'T' || c == 't' || c == ' ') && (afterTime? cs).bind afterOffset? == some []

end QuerySieve.Toml
