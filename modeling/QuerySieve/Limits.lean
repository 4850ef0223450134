import QuerySieve.Text.Basic

/-!
# Limits

* `Limits`: bounds on the length of a query, its fragments and its lists.
* `Limits.ofEnvironment`: the built-in bounds, each replaced by a variable that holds a positive
  number.
-/

namespace QuerySieve

/-- Bounds on what is read of a query. -/
structure Limits where
  /-- The most bytes of a decoded query. -/
  queryBytes : Nat := 65536
  /-- The most fragments that are looked at. -/
  fragments : Nat := 100
  /-- The most values of a list. -/
  listValues : Nat := 1000
  deriving DecidableEq, Repr

namespace Limits

/-- The number of values that a bound can take, those of a machine word. -/
def range : Nat := 0x10000000000000000

/-- The number that decimal digits write, after a plus sign at most; none if there is no digit or
the number is not below `range`. -/
def number? (cs : List Char) : Option Nat :=
  let digits := match cs with
    | '+' :: rest => rest
    | cs => cs
  if digits.isEmpty || !digits.all Char.isDigit then none else
  let n := Nat.ofDigitChars 10 digits 0
  if n < range then some n else none

/-- The bound that a text sets: a positive number with blanks around it at most. -/
def bound? (text : String) : Option Nat :=
  match number? (Text.trim text.toList) with
  | some 0 => none
  | other => other

/-- The bound of a variable that may be unset, or else the given one. -/
def boundOr (fallback : Nat) (value : Option String) : Nat :=
  (value.bind bound?).getD fallback

/-- The variable that sets the most bytes of a query. -/
def queryBytesVariable : String := "QUERYABLE_MAX_QUERY_LEN"

/-- The variable that sets the most fragments of a query. -/
def fragmentsVariable : String := "QUERYABLE_MAX_FRAGMENTS"

/-- The variable that sets the most values of a list. -/
def listValuesVariable : String := "QUERYABLE_MAX_LIST_VALUES"

/-- The variables that set bounds. -/
def variableNames : List String :=
  [queryBytesVariable, fragmentsVariable, listValuesVariable]

/-- The built-in bounds. -/
def builtIn : Limits := {}

/-- The built-in bounds, with those replaced that an environment sets. -/
def ofEnvironment (value : String → Option String) : Limits where
  queryBytes := boundOr builtIn.queryBytes (value queryBytesVariable)
  fragments := boundOr builtIn.fragments (value fragmentsVariable)
  listValues := boundOr builtIn.listValues (value listValuesVariable)

end Limits

end QuerySieve
