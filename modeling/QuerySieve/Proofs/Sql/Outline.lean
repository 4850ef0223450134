import QuerySieve.Proofs.Sql.Clauses
import QuerySieve.Proofs.Sql.Run

/-!
# The outline of a statement

The outline of a statement is all that its text can show: the names, what is asked of them, and, in
SQLite, how long the lists are. It leaves out the values.

* `ConditionShape`, `Outline`, `Outline.ofSteps`: the outline of the steps that make a statement.
* `Draft.Made.outline_eq`: a query has the outline of the steps that made it.
* **`Select.sql_eq_of_outline_eq`**: the text depends on nothing but the outline.
-/

namespace QuerySieve

open Text Sql

namespace Sql

/-- What the text shows of a test. -/
inductive ConditionShape where
  /-- A field, what is asked of it, and the length of a list where the text shows it. -/
  | test (field : String) (test : Test) (length : Option Nat)
  /-- The test that no row passes. -/
  | never
  deriving DecidableEq, Repr

/-- The length of a list as the text shows it: Postgres binds a list as a whole. -/
def Dialect.shownLength : Dialect → Nat → Option Nat
  | postgres, _ => none
  | sqlite, n => some n

end Sql

namespace Criterion

/-- What the text shows of a criterion that filters. -/
def shape? (d : Dialect) (c : Criterion) : Option ConditionShape :=
  if isIdentifier c.key then
    match c with
    | comparison key r _ => some (.test key (.compare r) none)
    | patternMatch key _ => some (.test key .like none)
    | nullTest key isNull => some (.test key (.null isNull) none)
    | inclusionTest _ false [] => some .never
    | inclusionTest _ true [] => none
    | inclusionTest key negated values =>
      some (.test key (.member negated) (d.shownLength values.length))
    | sortDirective _ _ => none
  else none

/-- What the text shows of a criterion that sorts. -/
def sortShape? : Criterion → Option (String × Direction)
  | sortDirective key direction => if isIdentifier key then some (key, direction) else none
  | _ => none

end Criterion

namespace Sql

/-- What the text shows of a statement. -/
structure Outline where
  table : String
  columns : List String
  conditions : List ConditionShape
  sorts : List (String × Direction)
  limit : Option Nat
  deriving DecidableEq, Repr

namespace Step

/-- What the text shows of a step that filters. -/
def shape? (d : Dialect) : Step → Option ConditionShape
  | criterion c => c.shape? d
  | _ => none

/-- What the text shows of a step that sorts. -/
def sortShape? : Step → Option (String × Direction)
  | criterion c => c.sortShape?
  | _ => none

end Step

/-- The outline of the steps from a table. -/
def Outline.ofSteps (d : Dialect) (table : String) (steps : List Step) : Outline where
  table
  columns := steps.foldl Step.columnsAfter []
  conditions := steps.filterMap (Step.shape? d)
  sorts := steps.filterMap Step.sortShape?
  limit := steps.foldl Step.limitAfter none

/-! ## Outlines of queries -/

namespace Test

/-- The length of a list as the text shows it, where the test is one of a list. -/
def shownLength (d : Dialect) (n : Nat) : Test → Option Nat
  | member _ => d.shownLength n
  | _ => none

/-- The number of placeholders where it is the same for all tests of the kind. -/
def size? (d : Dialect) : Test → Option Nat
  | compare _ => some 1
  | like => some 1
  | null _ => some 0
  | member _ =>
    match d with
    | .postgres => some 1
    | .sqlite => none

theorem shownLength_of_size? {d : Dialect} {t : Test} (h : t.size? d = none) (n : Nat) :
    t.shownLength d n = some n := by
  cases t with
  | member negated =>
    cases d with
    | postgres => cases h
    | sqlite => rfl
  | _ => cases h

end Test

namespace Condition

/-- What the text shows of a test. -/
def shape (d : Dialect) (c : Condition) : ConditionShape :=
  match c.test? with
  | some (i, t) => .test i.name t (t.shownLength d (c.params d).length)
  | none => .never

theorem length_params_of_size? {c : Condition} {i : Identifier} {t : Test} {n : Nat}
    {d : Dialect} (h : c.test? = some (i, t)) (hn : t.size? d = some n) :
    (c.params d).length = n := by
  cases c with
  | never => cases h
  | member field negated values =>
    cases h
    cases d with
    | postgres => cases hn; rfl
    | sqlite => cases hn
  | _ => cases h; cases hn; rfl

end Condition

/-- The outline of a query. -/
def Select.outline (q : Select) : Outline where
  table := q.table.name
  columns := q.columns.map (·.name)
  conditions := q.conditions.map (·.shape q.dialect)
  sorts := q.sorts.map fun s => (s.1.name, s.2)
  limit := q.limit

end Sql

namespace Criterion

theorem map_shape_condition? (d : Dialect) (c : Criterion) :
    c.condition?.map (·.shape d) = c.shape? d := by
  unfold shape?
  cases h : isIdentifier c.key with
  | false => rw [condition?_of_invalid h]; rfl
  | true =>
    rw [condition?_of_valid h, if_pos rfl]
    cases c with
    | comparison name r value => rfl
    | nullTest name isNull => rfl
    | patternMatch name pattern => rfl
    | inclusionTest name negated values =>
      cases values with
      | nil => cases negated <;> rfl
      | cons v values =>
        cases negated <;> cases d <;>
          simp [conditionOn, Condition.shape, Condition.test?, Test.shownLength, Condition.params,
            Dialect.shownLength, Dialect.memberParams, key]
    | sortDirective name direction => rfl

theorem map_sortTerm? (c : Criterion) :
    c.sortTerm?.map (fun s => (s.1.name, s.2)) = c.sortShape? := by
  unfold sortTerm?
  cases h : isIdentifier c.key with
  | false =>
    rw [Identifier.ofString?_of_invalid h]
    cases c with
    | sortDirective name direction =>
      have hn : isIdentifier name = false := h
      exact (if_neg (by rw [hn]; exact Bool.false_ne_true)).symm
    | _ => rfl
  | true =>
    rw [Identifier.ofString?_of_valid h]
    cases c with
    | sortDirective name direction => exact (if_pos h).symm
    | _ => rfl

end Criterion

namespace Sql

theorem Draft.Made.outline_eq {d : Dialect} {table : String} {steps : List Step} {q : Select}
    (h : Made d table steps q) : q.outline = Outline.ofSteps d table steps := by
  have hc : ∀ s : Step, s.condition?.map (·.shape d) = s.shape? d := by
    rintro (c | _ | _)
    · exact c.map_shape_condition? d
    · rfl
    · rfl
  have hs : ∀ s : Step, s.sortTerm?.map (fun s => (s.1.name, s.2)) = s.sortShape? := by
    rintro (c | _ | _)
    · exact c.map_sortTerm?
    · rfl
    · rfl
  unfold Select.outline Outline.ofSteps
  rw [h.table_eq, h.columns_eq, h.conditions_eq, h.sorts_eq, h.limit_eq, h.dialect_eq,
    List.map_filterMap, List.map_filterMap]
  simp only [hc, hs]

/-! ## From the outline to the text -/

namespace Condition

theorem text_eq_of_shape_eq {d : Dialect} {c c' : Condition} (h : c.shape d = c'.shape d)
    (first : Nat) :
    c.text d first = c'.text d first ∧ (c.params d).length = (c'.params d).length := by
  unfold shape at h
  cases ht : c.test? with
  | none =>
    cases ht' : c'.test? with
    | none => rw [eq_never_of_test? ht, eq_never_of_test? ht']; exact ⟨rfl, rfl⟩
    | some p => rw [ht, ht'] at h; cases h
  | some p =>
    cases ht' : c'.test? with
    | none => rw [ht, ht'] at h; cases h
    | some p' =>
      obtain ⟨i, t⟩ := p
      obtain ⟨i', t'⟩ := p'
      rw [ht, ht'] at h
      injection h with hi htt hl
      subst htt
      have hn : (c.params d).length = (c'.params d).length := by
        cases hs : t.size? d with
        | some n => rw [length_params_of_size? ht hs, length_params_of_size? ht' hs]
        | none =>
          rw [Test.shownLength_of_size? hs, Test.shownLength_of_size? hs] at hl
          exact Option.some.inj hl
      rw [text_of_test? ht, text_of_test? ht', hi, hn]
      exact ⟨rfl, rfl⟩

theorem texts_eq_of_shapes_eq {d : Dialect} :
    ∀ {cs cs' : List Condition} (first : Nat), cs.map (·.shape d) = cs'.map (·.shape d) →
      texts d first cs = texts d first cs'
  | [], [], _, _ => rfl
  | [], _ :: _, _, h => by cases h
  | _ :: _, [], _, h => by cases h
  | c :: cs, c' :: cs', first, h => by
    rw [List.map_cons, List.map_cons, List.cons.injEq] at h
    obtain ⟨ht, hn⟩ := text_eq_of_shape_eq h.1 first
    rw [texts, texts, ht, hn, texts_eq_of_shapes_eq _ h.2]

end Condition

namespace Select

theorem columnsText_eq (q : Select) :
    q.columnsText = if (q.columns.map (·.name)).isEmpty then "*"
      else ", ".intercalate (q.columns.map (·.name)) := by
  rw [columnsText, List.isEmpty_map]

theorem orderText_eq (q : Select) :
    q.orderText = if (q.sorts.map fun s => (s.1.name, s.2)).isEmpty then ""
      else " ORDER BY " ++ ", ".intercalate
        ((q.sorts.map fun s => (s.1.name, s.2)).map fun s => s.1 ++ " " ++ directionWord s.2) := by
  rw [orderText, List.isEmpty_map, List.map_map]
  rfl

/-- **The text depends on the outline alone**: no value reaches it. -/
theorem sql_eq_of_outline_eq {q q' : Select} (hd : q.dialect = q'.dialect)
    (h : q.outline = q'.outline) : q.sql = q'.sql := by
  obtain ⟨ht, hcol, hcon, hs, hl⟩ := Outline.mk.inj h
  have hw : q.whereText = q'.whereText := by
    have he : q.conditions.isEmpty = q'.conditions.isEmpty := by
      simpa only [List.isEmpty_map] using congrArg List.isEmpty hcon
    rw [hd] at hcon
    rw [whereText, whereText, he, hd, Condition.texts_eq_of_shapes_eq 1 hcon]
  rw [sql, sql, columnsText_eq, columnsText_eq, hcol, ht, hw, orderText_eq, orderText_eq, hs,
    limitText, limitText, hl]

end Select

end Sql

end QuerySieve
