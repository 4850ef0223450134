import QuerySieve.Backend.Basic
import QuerySieve.LogRecord
import QuerySieve.Sql.Dialect
import QuerySieve.Sql.Identifier

/-!
# SELECT statements

* `Condition`: one test of a row, with the values it binds.
* `Select`: a query of one table.
* **`Select.statement`**: its text with placeholders, and its parameters.
* `Draft`: a query under construction, the backend that criteria are handed to; fields that are no
  identifiers are left out and remembered.
-/

namespace QuerySieve.Sql

/-- One test of a row. -/
inductive Condition where
  | compare (field : Identifier) (relation : Relation) (value : String)
  | like (field : Identifier) (pattern : String)
  | null (field : Identifier) (isNull : Bool)
  | member (field : Identifier) (negated : Bool) (values : List String)
  /-- The test that no row passes. -/
  | never
  deriving DecidableEq, Repr

namespace Condition

/-- The parameters that a test binds. -/
def params (d : Dialect) : Condition → List Param
  | compare _ _ value => [.text value]
  | like _ pattern => [.text pattern]
  | null _ _ => []
  | member _ _ values => d.memberParams values
  | never => []

/-- The text of a test, with placeholders from an index on. -/
def text (d : Dialect) (first : Nat) : Condition → String
  | compare field r _ => field.name ++ " " ++ r.symbol ++ " " ++ d.placeholder first
  | like field _ => field.name ++ " LIKE " ++ d.placeholder first
  | null field true => field.name ++ " IS NULL"
  | null field false => field.name ++ " IS NOT NULL"
  | member field negated values => d.memberText field.name negated first values.length
  | never => "1=0"

/-- The texts of tests, each with the placeholders after those of the tests before it. -/
def texts (d : Dialect) : Nat → List Condition → List String
  | _, [] => []
  | first, c :: cs => c.text d first :: texts d (first + (c.params d).length) cs

end Condition

/-- A query of one table. No columns stand for all of them. -/
structure Select where
  dialect : Dialect
  table : Identifier
  columns : List Identifier := []
  conditions : List Condition := []
  sorts : List (Identifier × Direction) := []
  limit : Option Nat := none
  deriving DecidableEq, Repr

/-- The word of a direction in a statement. -/
def directionWord : Direction → String
  | .asc => "ASC"
  | .desc => "DESC"

namespace Select

/-- The query of all rows of a table. -/
def start (d : Dialect) (table : String) : Except InvalidName Select :=
  (Identifier.require "table" table).map fun table => { dialect := d, table }

/-- Replace the columns. -/
def withColumns (q : Select) (columns : List String) : Except InvalidName Select :=
  (columns.mapM (Identifier.require "column")).map fun columns => { q with columns }

/-- Replace the bound on the number of rows. -/
def withLimit (q : Select) (limit : Nat) : Select :=
  { q with limit := some limit }

/-- Add a test. -/
def addCondition (q : Select) (c : Condition) : Select :=
  { q with conditions := q.conditions ++ [c] }

/-- Add a field to sort by, after the others. -/
def addSort (q : Select) (field : Identifier) (direction : Direction) : Select :=
  { q with sorts := q.sorts ++ [(field, direction)] }

/-- Add a membership test. Nothing is one of no values, and everything is none of them. -/
def addMember (q : Select) (field : Identifier) (negated : Bool) (values : List String) : Select :=
  match values, negated with
  | [], false => q.addCondition .never
  | [], true => q
  | values, negated => q.addCondition (.member field negated values)

/-- The columns of the result. -/
def columnsText (q : Select) : String :=
  if q.columns.isEmpty then "*" else ", ".intercalate (q.columns.map (·.name))

/-- The tests that a row has to pass. -/
def whereText (q : Select) : String :=
  if q.conditions.isEmpty then ""
  else " WHERE " ++ " AND ".intercalate (Condition.texts q.dialect 1 q.conditions)

/-- The order of the rows. -/
def orderText (q : Select) : String :=
  if q.sorts.isEmpty then ""
  else " ORDER BY " ++ ", ".intercalate (q.sorts.map fun s => s.1.name ++ " " ++ directionWord s.2)

/-- The bound on the number of rows. -/
def limitText (q : Select) : String :=
  match q.limit with
  | none => ""
  | some n => " LIMIT " ++ n.repr

/-- The text of the statement. -/
def sql (q : Select) : String :=
  "SELECT " ++ q.columnsText ++ " FROM " ++ q.table.name ++ q.whereText ++ q.orderText ++
    q.limitText

/-- The parameters of the statement. -/
def params (q : Select) : List Param :=
  q.conditions.flatMap (·.params q.dialect)

/-- The statement of a query. -/
def statement (q : Select) : Statement :=
  ⟨q.sql, q.params⟩

end Select

/-- A query under construction, and the fields that were left out as they are no identifiers. -/
structure Draft where
  query : Select
  skipped : List String := []
  deriving DecidableEq, Repr

namespace Draft

/-- Change the query by a field, or leave the field out. -/
def withField (d : Draft) (field : String) (change : Select → Identifier → Select) : Draft :=
  match Identifier.ofString? field with
  | some i => { d with query := change d.query i }
  | none => { d with skipped := d.skipped ++ [field] }

/-- Add a comparison. -/
def compare (d : Draft) (r : Relation) (field value : String) : Draft :=
  d.withField field fun q i => q.addCondition (.compare i r value)

instance : Backend Draft where
  equals d := d.compare .eq
  notEquals d := d.compare .ne
  lessThan d := d.compare .lt
  greaterThan d := d.compare .gt
  lessOrEqual d := d.compare .le
  greaterOrEqual d := d.compare .ge
  isNull d field := d.withField field fun q i => q.addCondition (.null i true)
  isNotNull d field := d.withField field fun q i => q.addCondition (.null i false)
  like d field pattern := d.withField field fun q i => q.addCondition (.like i pattern)
  inList d field values := d.withField field fun q i => q.addMember i false values
  notInList d field values := d.withField field fun q i => q.addMember i true values
  orderBy d field direction := d.withField field fun q i => q.addSort i direction

/-- The record of a field that was left out. -/
def skipRecord (field : String) : LogRecord where
  level := "warn"
  message := "field skipped, not a SQL identifier"
  fields := [("field", field)]

/-- The records of the fields that were left out. -/
def records (d : Draft) : List LogRecord :=
  d.skipped.map skipRecord

end Draft

end QuerySieve.Sql
