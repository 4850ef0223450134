import QuerySieve.Proofs.Sql.FieldNames
import QuerySieve.Proofs.Sql.Placeholders
import QuerySieve.Proofs.Sql.Readability

/-!
# Both dialects ask for the same rows

The dialects bind lists in different ways, so that the numbers in two statements drift apart after
the first list. Each test is read back from its text, with the values of the parameters that its
numbers refer to. Read in this way, the tests of both statements are those of the criteria.

* `BoundTest`, `readTest?`: a test with its values, read from a text and parameters.
* `Criterion.boundTest?`: the test that a criterion asks for.
* `mapM_paramAt?`, `Condition.readTest?_text`: the parameters of one test, and its text read back.
* `Condition.map_readTest?_texts`: the texts of all tests read back.
* **`Select.dialects_agree`**: the statements of the same criteria in both dialects.
-/

namespace QuerySieve

open Text Sql

namespace Sql

/-! ## Reading tests -/

/-- The texts in a parameter. -/
def Param.entries : Param → List String
  | text value => [value]
  | list values => values

/-- A parameter as parameters of one text each. -/
def Param.flattened (p : Param) : List Param :=
  p.entries.map .text

/-- The parameter that a number refers to; the first one is number 1. -/
def paramAt? (params : List Param) : Nat → Option Param
  | 0 => none
  | n + 1 => params[n]?

/-- A test with its values. -/
inductive BoundTest where
  /-- A field, what is asked of it, and the values in the order of their placeholders. -/
  | test (field : String) (test : Test) (values : List String)
  /-- The test that no row passes. -/
  | never
  deriving DecidableEq, Repr

/-- What follows the field in the text of a test. -/
def Test.tail (d : Dialect) (t : Test) (numbers : List Nat) : String :=
  t.opening d ++ (", ".intercalate (numbers.map d.placeholder) ++ t.closing)

/-- **Read a test**: the field up to where its name stops, the numbers of the placeholders after it,
and the one kind of test that is written so; the values are those of the parameters that the numbers
refer to. -/
def readTest? (d : Dialect) (params : List Param) (text : String) : Option BoundTest :=
  if text = "1=0" then some .never else
  let rest := text.toList.dropWhile isWordChar
  let numbers := numbersAfter d.sign rest
  (Test.all.find? fun t => (t.tail d numbers).toList = rest).bind fun t =>
    (numbers.mapM (paramAt? params)).map fun bound =>
      .test (String.ofList (text.toList.takeWhile isWordChar)) t (bound.flatMap Param.entries)

end Sql

/-- The test that a criterion asks for, if its field is an identifier. -/
def Criterion.boundTest? (c : Criterion) : Option BoundTest :=
  if isIdentifier c.key then
    match c with
    | comparison key r value => some (.test key (.compare r) [value])
    | patternMatch key pattern => some (.test key .like [pattern])
    | nullTest key isNull => some (.test key (.null isNull) [])
    | inclusionTest _ false [] => some .never
    | inclusionTest _ true [] => none
    | inclusionTest key negated values => some (.test key (.member negated) values)
    | sortDirective _ _ => none
  else none

namespace Sql

/-! ## Parameters -/

theorem paramAt?_append (done rest : List Param) (p : Param) :
    paramAt? (done ++ p :: rest) (done.length + 1) = some p := by
  simp [paramAt?]

theorem mapM_paramAt? : ∀ done ps rest : List Param,
    (List.range' (done.length + 1) ps.length).mapM (paramAt? (done ++ (ps ++ rest))) = some ps
  | _, [], _ => rfl
  | done, p :: ps, rest => by
    have ih := mapM_paramAt? (done ++ [p]) ps rest
    rw [List.length_append, List.length_singleton, List.append_assoc, List.singleton_append] at ih
    rw [List.length_cons, List.range'_succ, List.mapM_cons, List.cons_append, paramAt?_append, ih]
    rfl

namespace Condition

/-- The values of a test. -/
def values : Condition → List String
  | compare _ _ value => [value]
  | like _ pattern => [pattern]
  | null _ _ => []
  | member _ _ values => values
  | never => []

theorem flatMap_entries_params (d : Dialect) (c : Condition) :
    (c.params d).flatMap Param.entries = c.values := by
  cases c with
  | member field negated values =>
    cases d with
    | postgres => simp [params, Dialect.memberParams, Param.entries, Condition.values]
    | sqlite =>
      simp [params, Dialect.memberParams, Param.entries, Condition.values, List.flatMap_map]
  | _ => rfl

theorem flatMap_flattened_params (c : Condition) :
    (c.params .postgres).flatMap Param.flattened = c.params .sqlite := by
  cases c with
  | member field negated values =>
    simp [params, Dialect.memberParams, Param.flattened, Param.entries]
  | _ => rfl

/-- A test with its values. -/
def bound (c : Condition) : BoundTest :=
  match c.test? with
  | some (i, t) => .test i.name t c.values
  | none => .never

/-! ## Texts -/

theorem toList_tail (d : Dialect) (t : Test) (first count : Nat) :
    (t.tail d (List.range' first count)).toList =
      (t.opening d).toList ++ ((d.placeholders first count).toList ++ t.closing.toList) := by
  rw [Test.tail, String.toList_append, String.toList_append]
  rfl

theorem stops_after_opening (d : Dialect) (t : Test) (first count : Nat) :
    stops ((d.placeholders first count).toList ++ t.closing.toList) = true := by
  have hc := stops_closing t (r := []) rfl
  rw [List.append_nil] at hc
  exact stops_placeholders d first count hc

theorem stops_tail (d : Dialect) (t : Test) (first count : Nat) :
    stops (t.tail d (List.range' first count)).toList = true := by
  rw [toList_tail]
  exact stops_opening d t _

theorem find?_tail (d : Dialect) (t : Test) (first count : Nat) :
    (Test.all.find? fun u => (u.tail d (List.range' first count)).toList =
      (t.tail d (List.range' first count)).toList) = some t := by
  cases hf : Test.all.find? _ with
  | none =>
    have hn := List.find?_eq_none.mp hf t t.mem_all
    exact absurd (decide_eq_true rfl) hn
  | some u =>
    have hu := List.find?_some hf
    rw [decide_eq_true_eq, toList_tail, toList_tail] at hu
    have he := readable_opening d u t _ _ (stops_after_opening d u first count)
      (stops_after_opening d t first count) hu
    exact congrArg some he.1

/-- **A test is read back from its text**, wherever its parameters stand. -/
theorem readTest?_text (d : Dialect) (c : Condition) (done rest : List Param) :
    readTest? d (done ++ (c.params d ++ rest)) (c.text d (done.length + 1)) = some c.bound := by
  unfold bound
  cases h : c.test? with
  | none =>
    rw [eq_never_of_test? h]
    rfl
  | some p =>
    obtain ⟨i, t⟩ := p
    have hne : c.text d (done.length + 1) ≠ "1=0" := by
      intro he
      refine text_ne_never h d (done.length + 1) 0 [] [] ?_
      rw [he]
      rfl
    have htext : c.text d (done.length + 1) =
        i.name ++ t.tail d (List.range' (done.length + 1) (c.params d).length) :=
      text_of_test? h d _
    have hstops := stops_tail d t (done.length + 1) (c.params d).length
    have hnumbers := numbersAfter_text d (done.length + 1) c
    rw [htext, String.toList_append,
      numbersAfter_append_of_notMem (d.sign_notMem_word i.isWordChar_of_mem)] at hnumbers
    rw [readTest?, if_neg hne, htext, String.toList_append]
    simp only [takeWhile_word i.isWordChar_of_mem hstops, dropWhile_word i.isWordChar_of_mem hstops,
      hnumbers, find?_tail, mapM_paramAt?, Option.bind_some, Option.map_some,
      flatMap_entries_params, String.ofList_toList]

/-- **The texts of tests are read back**, each with its own parameters. -/
theorem map_readTest?_texts (d : Dialect) : ∀ (done : List Param) (cs : List Condition),
    (texts d (done.length + 1) cs).map (readTest? d (done ++ cs.flatMap (·.params d))) =
      cs.map fun c => some c.bound
  | _, [] => rfl
  | done, c :: cs => by
    have ih := map_readTest?_texts d (done ++ c.params d) cs
    rw [List.length_append, List.append_assoc] at ih
    have hfirst : done.length + 1 + (c.params d).length =
        done.length + (c.params d).length + 1 := by omega
    rw [texts, List.map_cons, List.map_cons, List.flatMap_cons, readTest?_text, hfirst, ih]

end Condition

end Sql

namespace Criterion

theorem map_bound_condition? (c : Criterion) : c.condition?.map (·.bound) = c.boundTest? := by
  unfold boundTest?
  cases h : isIdentifier c.key with
  | false => rw [condition?_of_invalid h]; rfl
  | true =>
    rw [condition?_of_valid h, if_pos rfl]
    cases c with
    | inclusionTest name negated values => cases values <;> cases negated <;> rfl
    | _ => rfl

end Criterion

/-! ## Statements -/

namespace Sql

theorem Identifier.exists_mapM_require (context : String) : ∀ {names : List String},
    (∀ name ∈ names, isIdentifier name = true) → ∃ is, names.mapM (require context) = .ok is
  | [], _ => ⟨[], rfl⟩
  | name :: names, h => by
    obtain ⟨is, his⟩ := exists_mapM_require context
      fun n hn => h n (List.mem_cons_of_mem _ hn)
    refine ⟨⟨name, h name List.mem_cons_self⟩ :: is, ?_⟩
    rw [List.mapM_cons, require_of_valid (h name List.mem_cons_self), his]
    rfl

/-- The tests of a statement, joined. -/
def whereClause (texts : List String) : String :=
  if texts.isEmpty then "" else " WHERE " ++ " AND ".intercalate texts

namespace Select

/-- The query of some columns of a table, with a bound on the number of rows if there is one and
with criteria handed over to it. -/
def rendered (d : Dialect) (table : String) (columns : List String) (limit : Option Nat)
    (cs : List Criterion) : Except InvalidName Select := do
  let q ← start d table
  let q ← q.withColumns columns
  return (limit.elim q q.withLimit).withCriteria cs

variable (q : Select)

/-- The text of the columns and the table. -/
def frontText : String :=
  "SELECT " ++ q.columnsText ++ " FROM " ++ q.table.name

/-- The texts of the tests. -/
def conditionTexts : List String :=
  Condition.texts q.dialect 1 q.conditions

theorem whereText_eq : q.whereText = whereClause q.conditionTexts := by
  unfold whereText whereClause conditionTexts
  cases q.conditions <;> rfl

theorem sql_eq :
    q.sql = q.frontText ++ whereClause q.conditionTexts ++ q.orderText ++ q.limitText := by
  rw [sql, q.whereText_eq, frontText]

theorem map_readTest?_conditionTexts :
    q.conditionTexts.map (readTest? q.dialect q.params) = q.conditions.map fun c => some c.bound :=
  Condition.map_readTest?_texts q.dialect [] q.conditions

/-- The same query in a dialect. -/
def inDialect (d : Dialect) : Select :=
  { q with dialect := d }

/-- Criteria make one query, whatever the dialect. -/
theorem exists_rendered {table : String} {columns : List String} (ht : isIdentifier table = true)
    (hc : ∀ name ∈ columns, isIdentifier name = true) (limit : Option Nat) (cs : List Criterion) :
    ∃ q : Select, q.conditions = cs.filterMap Criterion.condition? ∧
      ∀ d, rendered d table columns limit cs = .ok (q.inDialect d) := by
  obtain ⟨is, hi⟩ := Identifier.exists_mapM_require "column" hc
  refine ⟨⟨.postgres, ⟨table, ht⟩, is, cs.filterMap Criterion.condition?,
    cs.filterMap Criterion.sortTerm?, limit⟩, rfl, fun d => ?_⟩
  rw [rendered, start_of_valid d ht]
  simp only [bind, Except.bind, withColumns, hi, withCriteria, query_applyAll]
  cases limit <;> rfl

theorem flatMap_flattened_params :
    (q.inDialect .postgres).params.flatMap Param.flattened = (q.inDialect .sqlite).params := by
  show (q.conditions.flatMap _).flatMap _ = q.conditions.flatMap _
  rw [List.flatMap_assoc]
  exact congrArg (q.conditions.flatMap ·) (funext Condition.flatMap_flattened_params)

theorem sql_inDialect (d d' : Dialect) :
    (q.inDialect d).sql = (q.inDialect d').frontText ++
      whereClause (q.inDialect d).conditionTexts ++ (q.inDialect d').orderText ++
        (q.inDialect d').limitText :=
  (q.inDialect d).sql_eq

theorem map_readTest?_inDialect {cs : List Criterion}
    (hq : q.conditions = cs.filterMap Criterion.condition?) (d : Dialect) :
    (q.inDialect d).conditionTexts.map (readTest? d (q.inDialect d).params) =
      (cs.filterMap Criterion.boundTest?).map some := by
  have hd : (q.inDialect d).dialect = d := rfl
  have hc : (q.inDialect d).conditions = q.conditions := rfl
  have hread := (q.inDialect d).map_readTest?_conditionTexts
  rw [hd, hc, hq] at hread
  rw [hread, ← funext Criterion.map_bound_condition?, ← List.map_filterMap, List.map_map]
  rfl

/-- **Both dialects ask for the same rows.** The parameters are the same once lists are flattened.
The tests, read from the texts through their placeholders, are those of the criteria, and the rest
of the two texts is the same. -/
theorem dialects_agree {table : String} {columns : List String} (ht : isIdentifier table = true)
    (hc : ∀ name ∈ columns, isIdentifier name = true) (limit : Option Nat)
    (cs : List Criterion) :
    ∃ p s, rendered .postgres table columns limit cs = .ok p ∧
      rendered .sqlite table columns limit cs = .ok s ∧
      p.statement.params.flatMap Param.flattened = s.statement.params ∧
      p.conditionTexts.length = s.conditionTexts.length ∧
      p.conditionTexts.map (readTest? .postgres p.statement.params) =
        (cs.filterMap Criterion.boundTest?).map some ∧
      s.conditionTexts.map (readTest? .sqlite s.statement.params) =
        (cs.filterMap Criterion.boundTest?).map some ∧
      p.statement.sql =
        p.frontText ++ whereClause p.conditionTexts ++ p.orderText ++ p.limitText ∧
      s.statement.sql =
        p.frontText ++ whereClause s.conditionTexts ++ p.orderText ++ p.limitText := by
  obtain ⟨q, hq, hd⟩ := exists_rendered ht hc limit cs
  have hp := q.map_readTest?_inDialect hq .postgres
  have hs := q.map_readTest?_inDialect hq .sqlite
  have hl := congrArg List.length (hp.trans hs.symm)
  rw [List.length_map, List.length_map] at hl
  exact ⟨q.inDialect .postgres, q.inDialect .sqlite, hd .postgres, hd .sqlite,
    q.flatMap_flattened_params, hl, hp, hs,
    q.sql_inDialect .postgres .postgres, q.sql_inDialect .sqlite .postgres⟩

/-- After a list the numbers are not the same any more. -/
theorem dialects_agree_after_list :
    isIdentifier "users" = true ∧ (∀ name ∈ ["id", "name"], isIdentifier name = true) ∧
      ∃ p s, rendered .postgres "users" ["id", "name"] (some 5)
          [.inclusionTest "status" true ["a", "b"], .comparison "age" .ge "18",
            .sortDirective "name" .desc] = .ok p ∧
        rendered .sqlite "users" ["id", "name"] (some 5)
          [.inclusionTest "status" true ["a", "b"], .comparison "age" .ge "18",
            .sortDirective "name" .desc] = .ok s ∧
        p.conditionTexts = ["status != ALL($1)", "age >= $2"] ∧
        s.conditionTexts = ["status NOT IN (?1, ?2)", "age >= ?3"] ∧
        p.conditionTexts.map (readTest? .postgres p.statement.params) =
          [some (.test "status" (.member true) ["a", "b"]),
            some (.test "age" (.compare .ge) ["18"])] ∧
        s.conditionTexts.map (readTest? .sqlite s.statement.params) =
          [some (.test "status" (.member true) ["a", "b"]),
            some (.test "age" (.compare .ge) ["18"])] := by
  have ht : isIdentifier "users" = true := by decide
  have hc : ∀ name ∈ ["id", "name"], isIdentifier name = true := by decide
  obtain ⟨p, s, hp, hs, -, -, hrp, hrs, -, -⟩ := dialects_agree ht hc (some 5)
    [.inclusionTest "status" true ["a", "b"], .comparison "age" .ge "18",
      .sortDirective "name" .desc]
  refine ⟨ht, hc, p, s, hp, hs, ?_, ?_, hrp.trans (by decide +kernel),
    hrs.trans (by decide +kernel)⟩
  · cases hp
    decide +kernel
  · cases hs
    decide +kernel

end Select

end Sql

end QuerySieve
