import Mathlib.Tactic.Common
import QuerySieve.Sql.Select

/-!
# The making of a statement

A statement is made from a table by handing over criteria, one operation of the backend each, and by
setting columns and limit, in any order.

* `Step`, `Draft.step`, `Draft.make`: the steps and their runs.
* `Criterion.condition?`, `Criterion.sortTerm?`: what a criterion adds to a query.
* `Criterion.query_applyTo`, `Draft.stepped`: the query after one criterion, and after one step.
* **`Draft.made`**: the query after a run, part by part, from the steps alone.
-/

namespace QuerySieve

open Sql

/-! ## Identifiers -/

namespace Sql.Identifier

theorem ofString?_of_valid {name : String} (h : isIdentifier name = true) :
    ofString? name = some ⟨name, h⟩ :=
  dif_pos h

theorem ofString?_of_invalid {name : String} (h : isIdentifier name = false) :
    ofString? name = none :=
  dif_neg (by rw [h]; exact Bool.false_ne_true)

theorem require_of_valid {context name : String} (h : isIdentifier name = true) :
    require context name = .ok ⟨name, h⟩ := by
  rw [require, ofString?_of_valid h]

theorem name_of_ofString? {name : String} {i : Identifier} (h : ofString? name = some i) :
    i.name = name := by
  unfold ofString? at h
  split_ifs at h
  cases h
  rfl

theorem name_of_require {context name : String} {i : Identifier}
    (h : require context name = .ok i) : i.name = name := by
  unfold require at h
  split at h
  · next hi =>
    cases h
    exact name_of_ofString? hi
  · cases h

theorem names_of_require {context : String} :
    ∀ {names : List String} {is : List Identifier},
      names.mapM (require context) = .ok is → is.map (·.name) = names
  | [], is, h => by
    cases h
    rfl
  | name :: names, is, h => by
    rw [List.mapM_cons] at h
    cases hi : require context name with
    | error e => rw [hi] at h; cases h
    | ok i =>
      cases hr : names.mapM (require context) with
      | error e => rw [hi, hr] at h; cases h
      | ok rest =>
        rw [hi, hr] at h
        cases h
        rw [List.map_cons, name_of_require hi, names_of_require hr]

end Sql.Identifier

/-! ## Criteria -/

namespace Criterion

/-- The test that a criterion adds to a query, given the identifier of its field. -/
def conditionOn (i : Identifier) : Criterion → Option Condition
  | comparison _ r value => some (.compare i r value)
  | nullTest _ isNull => some (.null i isNull)
  | patternMatch _ pattern => some (.like i pattern)
  | inclusionTest _ false [] => some .never
  | inclusionTest _ true [] => none
  | inclusionTest _ negated values => some (.member i negated values)
  | sortDirective _ _ => none

/-- The direction of a sort. -/
def direction? : Criterion → Option Direction
  | sortDirective _ direction => some direction
  | _ => none

/-- Add the test or the sort of a criterion to a query, at the end. -/
def addTo (c : Criterion) (q : Select) (i : Identifier) : Select :=
  { q with
    conditions := q.conditions ++ (c.conditionOn i).toList
    sorts := q.sorts ++ (c.direction?.map (i, ·)).toList }

theorem addTo_of_condition {c : Criterion} {x : Condition} {i : Identifier} (q : Select)
    (hc : c.conditionOn i = some x) (hs : c.direction? = none) :
    q.addCondition x = c.addTo q i := by
  simp [addTo, Select.addCondition, hc, hs]

/-- **The draft after one criterion**, whatever its operation. -/
theorem applyTo_draft (d : Draft) (c : Criterion) : c.applyTo d = d.withField c.key c.addTo := by
  have key (f : Select → Identifier → Select) (hf : ∀ q i, f q i = c.addTo q i) :
      d.withField c.key f = d.withField c.key c.addTo :=
    congrArg (d.withField c.key) (funext fun q => funext (hf q))
  cases c with
  | comparison name r value => cases r <;> exact key _ fun q i => addTo_of_condition q rfl rfl
  | nullTest name isNull => cases isNull <;> exact key _ fun q i => addTo_of_condition q rfl rfl
  | patternMatch name pattern => exact key _ fun q i => addTo_of_condition q rfl rfl
  | inclusionTest name negated values =>
    cases negated <;> cases values
    · exact key _ fun q i => addTo_of_condition q rfl rfl
    · exact key _ fun q i => addTo_of_condition q rfl rfl
    · refine key (fun q i => q.addMember i true []) fun q i => ?_
      simp [addTo, conditionOn, direction?, Select.addMember]
    · exact key _ fun q i => addTo_of_condition q rfl rfl
  | sortDirective name direction =>
    refine key (fun q i => q.addSort i direction) fun q i => ?_
    simp [addTo, conditionOn, direction?, Select.addSort]

/-- The test that a criterion adds to a query, if its field is an identifier. -/
def condition? (c : Criterion) : Option Condition :=
  (Identifier.ofString? c.key).bind c.conditionOn

theorem condition?_of_valid {c : Criterion} (h : isIdentifier c.key = true) :
    c.condition? = c.conditionOn ⟨c.key, h⟩ := by
  rw [condition?, Identifier.ofString?_of_valid h, Option.bind_some]

theorem condition?_of_invalid {c : Criterion} (h : isIdentifier c.key = false) :
    c.condition? = none := by
  rw [condition?, Identifier.ofString?_of_invalid h, Option.bind_none]

/-- The sort that a criterion adds to a query, if its field is an identifier. -/
def sortTerm? (c : Criterion) : Option (Identifier × Direction) :=
  (Identifier.ofString? c.key).bind fun i => c.direction?.map (i, ·)

theorem query_applyTo (d : Draft) (c : Criterion) :
    (c.applyTo d).query =
      { d.query with
        conditions := d.query.conditions ++ c.condition?.toList
        sorts := d.query.sorts ++ c.sortTerm?.toList } := by
  rw [applyTo_draft, Draft.withField, condition?, sortTerm?]
  cases Identifier.ofString? c.key <;> simp [addTo]

end Criterion

/-! ## Runs -/

namespace Sql

/-- One step in the making of a statement. -/
inductive Step where
  /-- A criterion is handed over. -/
  | criterion (c : Criterion)
  /-- The columns are replaced. -/
  | columns (names : List String)
  /-- The bound on the number of rows is replaced. -/
  | limit (n : Nat)
  deriving DecidableEq, Repr

namespace Step

/-- The test that a step adds. -/
def condition? : Step → Option Condition
  | criterion c => c.condition?
  | _ => none

/-- The sort that a step adds. -/
def sortTerm? : Step → Option (Identifier × Direction)
  | criterion c => c.sortTerm?
  | _ => none

/-- The columns after a step. -/
def columnsAfter (current : List String) : Step → List String
  | columns names => names
  | _ => current

/-- The bound on the number of rows after a step. -/
def limitAfter (current : Option Nat) : Step → Option Nat
  | limit n => some n
  | _ => current

end Step

/-- **A query of a table that is an identifier can be started.** -/
theorem Select.start_of_valid (d : Dialect) {table : String} (h : isIdentifier table = true) :
    start d table = .ok { dialect := d, table := ⟨table, h⟩ } := by
  rw [start, Identifier.require_of_valid h]
  rfl

namespace Draft

/-- Make a step; columns that are no identifiers are refused. -/
def step (d : Draft) : Step → Except InvalidName Draft
  | .criterion c => .ok (c.applyTo d)
  | .columns names => (d.query.withColumns names).map fun query => { d with query }
  | .limit n => .ok { d with query := d.query.withLimit n }

/-- Make the steps one after the other. -/
def run (d : Draft) (steps : List Step) : Except InvalidName Draft :=
  steps.foldlM step d

/-- The draft that steps make from a table. -/
def make (dialect : Dialect) (table : String) (steps : List Step) : Except InvalidName Draft :=
  (Select.start dialect table).bind fun query => run { query } steps

/-- What a query holds after the steps from a table, part by part. -/
structure Made (dialect : Dialect) (table : String) (steps : List Step) (q : Select) : Prop where
  dialect_eq : q.dialect = dialect
  table_eq : q.table.name = table
  columns_eq : q.columns.map (·.name) = steps.foldl Step.columnsAfter []
  conditions_eq : q.conditions = steps.filterMap Step.condition?
  sorts_eq : q.sorts = steps.filterMap Step.sortTerm?
  limit_eq : q.limit = steps.foldl Step.limitAfter none

variable {dialect : Dialect} {table : String} {steps : List Step} {d d' : Draft} {s : Step}

/-- What a query holds after a step from another, part by part. -/
structure Stepped (q : Select) (s : Step) (q' : Select) : Prop where
  dialect_eq : q'.dialect = q.dialect
  table_eq : q'.table = q.table
  columns_eq : q'.columns.map (·.name) = Step.columnsAfter (q.columns.map (·.name)) s
  conditions_eq : q'.conditions = q.conditions ++ s.condition?.toList
  sorts_eq : q'.sorts = q.sorts ++ s.sortTerm?.toList
  limit_eq : q'.limit = Step.limitAfter q.limit s

/-- **What a step does** to each part of the query. -/
theorem stepped (h : d.step s = .ok d') : Stepped d.query s d'.query := by
  cases s with
  | criterion c =>
    cases h
    rw [Criterion.query_applyTo]
    exact ⟨rfl, rfl, rfl, rfl, rfl, rfl⟩
  | columns names =>
    simp only [Draft.step, Select.withColumns] at h
    cases hi : names.mapM (Identifier.require "column") with
    | error e => rw [hi] at h; cases h
    | ok is =>
      rw [hi] at h
      cases h
      exact ⟨rfl, rfl, Identifier.names_of_require hi, (List.append_nil _).symm,
        (List.append_nil _).symm, rfl⟩
  | limit n =>
    cases h
    exact ⟨rfl, rfl, rfl, (List.append_nil _).symm, (List.append_nil _).symm, rfl⟩

theorem made_start {q : Select} (h : Select.start dialect table = .ok q) :
    Made dialect table [] q := by
  unfold Select.start at h
  cases hi : Identifier.require "table" table with
  | error e => rw [hi] at h; cases h
  | ok i =>
    rw [hi] at h
    cases h
    exact ⟨rfl, Identifier.name_of_require hi, rfl, rfl, rfl, rfl⟩

theorem filterMap_concat {β : Type} (f : Step → Option β) (steps : List Step) (s : Step) :
    (steps ++ [s]).filterMap f = steps.filterMap f ++ (f s).toList := by
  rw [List.filterMap_append]
  cases hf : f s <;> simp [hf]

theorem Made.step (hm : Made dialect table steps d.query) (h : d.step s = .ok d') :
    Made dialect table (steps ++ [s]) d'.query := by
  have hs := stepped h
  refine ⟨?_, ?_, ?_, ?_, ?_, ?_⟩
  · rw [hs.dialect_eq, hm.dialect_eq]
  · rw [hs.table_eq, hm.table_eq]
  · rw [hs.columns_eq, hm.columns_eq, List.foldl_append, List.foldl_cons, List.foldl_nil]
  · rw [hs.conditions_eq, hm.conditions_eq, filterMap_concat]
  · rw [hs.sorts_eq, hm.sorts_eq, filterMap_concat]
  · rw [hs.limit_eq, hm.limit_eq, List.foldl_append, List.foldl_cons, List.foldl_nil]

theorem Made.run : ∀ {rest steps : List Step} {d : Draft}, Made dialect table steps d.query →
    d.run rest = .ok d' → Made dialect table (steps ++ rest) d'.query
  | [], steps, d, hm, h => by
    cases h
    rwa [List.append_nil]
  | s :: rest, steps, d, hm, h => by
    rw [Draft.run, List.foldlM_cons] at h
    cases hs : d.step s with
    | error e => rw [hs] at h; cases h
    | ok d₁ =>
      rw [hs] at h
      rw [List.append_cons]
      exact Made.run (hm.step hs) h

/-- **The query that steps make from a table**, from the steps alone. -/
theorem made (h : make dialect table steps = .ok d) : Made dialect table steps d.query := by
  unfold make at h
  cases hq : Select.start dialect table with
  | error e => rw [hq] at h; cases h
  | ok q =>
    rw [hq] at h
    exact (made_start hq).run h

end Draft

end Sql

end QuerySieve
