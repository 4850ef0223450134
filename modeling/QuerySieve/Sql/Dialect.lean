/-!
# SQL dialects

The dialects differ in the sign of a placeholder and in how a list is bound.

* `Dialect.placeholder`: `$1` or `?1`.
* `Dialect.memberText`, `Dialect.memberParams`: a membership test; one parameter for the whole list
  in Postgres, one for each value in SQLite.
* `Dialect.member`: both together, from any first index that leaves room for the others.
-/

namespace QuerySieve.Sql

/-- The two dialects. -/
inductive Dialect where
  | postgres
  | sqlite
  deriving DecidableEq, Repr

/-- A bound parameter. -/
inductive Param where
  | text (value : String)
  | list (values : List String)
  deriving DecidableEq, Repr

/-- The text of a statement or of a part of one, and its parameters in the order of their
indices. -/
structure Statement where
  sql : String
  params : List Param
  deriving DecidableEq, Repr

/-- The indices of a list do not all fit into a machine word. -/
inductive IndexError where
  | overflow
  deriving DecidableEq, Repr

/-- The wording of the error. -/
def IndexError.message : IndexError → String
  | overflow => "attempt to add with overflow"

namespace Dialect

/-- The placeholder of an index. -/
def placeholder : Dialect → Nat → String
  | postgres, i => "$" ++ i.repr
  | sqlite, i => "?" ++ i.repr

/-- The placeholders of `count` indices from the first one on. -/
def placeholders (d : Dialect) (first count : Nat) : String :=
  ", ".intercalate ((List.range' first count).map d.placeholder)

/-- The test whether a field is one of `count` values bound from an index on, or is none of them. -/
def memberText (d : Dialect) (field : String) (negated : Bool) (first count : Nat) : String :=
  match d, negated with
  | postgres, false => field ++ " = ANY(" ++ d.placeholder first ++ ")"
  | postgres, true => field ++ " != ALL(" ++ d.placeholder first ++ ")"
  | sqlite, false => field ++ " IN (" ++ d.placeholders first count ++ ")"
  | sqlite, true => field ++ " NOT IN (" ++ d.placeholders first count ++ ")"

/-- The parameters of a membership test. -/
def memberParams : Dialect → List String → List Param
  | postgres, values => [.list values]
  | sqlite, values => values.map .text

/-- The number of indices, those of a machine word. -/
def indexRange : Nat := 0x10000000000000000

/-- A membership test with its parameters, the first one of the given index; every index is below
`indexRange`. -/
def member (d : Dialect) (field : String) (negated : Bool) (values : List String) (first : Nat) :
    Except IndexError Statement :=
  if d = sqlite ∧ values ≠ [] ∧ indexRange < first + values.length then .error .overflow
  else .ok ⟨d.memberText field negated first values.length, d.memberParams values⟩

end Dialect

end QuerySieve.Sql
