import Mathlib.Data.List.Basic
import QuerySieve.Proofs.Sql.Identifier
import QuerySieve.Sql.Select

/-!
# The parts of a statement

The text of a statement, cut into words, signs and clauses.

* `Test`, `Test.opening`, `Test.closing`: what a test asks of its field, and the texts around its
  placeholders.
* `Condition.text_of_test?`: the text of a test.
* `Condition.numbered`: the tests with the indices of their first parameters.
* **`Select.toList_sql`**: the text of a statement.
-/

namespace QuerySieve.Sql

open Text

/-! ## Placeholders -/

/-- The sign of a placeholder. -/
def Dialect.sign : Dialect → Char
  | postgres => '$'
  | sqlite => '?'

theorem Dialect.toList_placeholder (d : Dialect) (n : Nat) :
    (d.placeholder n).toList = d.sign :: n.repr.toList := by
  cases d <;> simp [placeholder, sign]

theorem isDigit_of_mem_repr (n : Nat) : ∀ c ∈ n.repr.toList, c.isDigit = true := by
  intro c hc
  rw [Nat.repr, String.toList_ofList] at hc
  exact Nat.isDigit_of_mem_toDigits (by decide) (by decide) hc

theorem isWordChar_of_mem_repr (n : Nat) : ∀ c ∈ n.repr.toList, isWordChar c = true :=
  fun c hc => isWordChar_of_isDigit (isDigit_of_mem_repr n c hc)

theorem placeholders_zero (d : Dialect) (first : Nat) : d.placeholders first 0 = "" := by
  simp [Dialect.placeholders]

theorem placeholders_one (d : Dialect) (first : Nat) :
    d.placeholders first 1 = d.placeholder first := by
  simp [Dialect.placeholders]

/-! ## Tests -/

/-- What a test asks of its field. -/
inductive Test where
  | compare (relation : Relation)
  | like
  | null (isNull : Bool)
  | member (negated : Bool)
  deriving DecidableEq, Repr

namespace Test

/-- The text between a field and the first placeholder. -/
def opening (d : Dialect) : Test → String
  | compare r => " " ++ r.symbol ++ " "
  | like => " LIKE "
  | null true => " IS NULL"
  | null false => " IS NOT NULL"
  | member negated =>
    match d, negated with
    | .postgres, false => " = ANY("
    | .postgres, true => " != ALL("
    | .sqlite, false => " IN ("
    | .sqlite, true => " NOT IN ("

/-- The text after the last placeholder. -/
def closing : Test → String
  | member _ => ")"
  | _ => ""

/-- All that can be asked of a field. -/
def all : List Test :=
  [compare .eq, compare .ne, compare .lt, compare .gt, compare .le, compare .ge, like, null true,
    null false, member false, member true]

theorem mem_all (t : Test) : t ∈ all := by
  rcases t with r | _ | b | b
  · cases r <;> decide
  · decide
  · cases b <;> decide
  · cases b <;> decide

end Test

/-! ## Where words stop -/

theorem stops_placeholders (d : Dialect) (first count : Nat) {r : List Char}
    (hr : stops r = true) : stops ((d.placeholders first count).toList ++ r) = true := by
  cases count with
  | zero => simpa [placeholders_zero] using hr
  | succ count =>
    rw [Dialect.placeholders, toList_intercalate_map, List.range'_succ]
    simp only [clause, List.nil_append, d.toList_placeholder]
    cases d <;> rfl

theorem stops_opening (d : Dialect) (t : Test) (r : List Char) :
    stops ((t.opening d).toList ++ r) = true := by
  have h : ∀ t ∈ Test.all, (t.opening d).toList.head? = some ' ' := by
    cases d <;> decide +kernel
  obtain ⟨cs, hcs⟩ := List.head?_eq_some_iff.mp (h t t.mem_all)
  rw [hcs]
  rfl

theorem stops_closing (t : Test) {r : List Char} (hr : stops r = true) :
    stops (t.closing.toList ++ r) = true := by
  cases t with
  | member negated =>
    show stops (")".toList ++ r) = true
    rfl
  | _ => exact hr

namespace Condition

/-- The field of a test and what it asks of it; none for the test that no row passes. -/
def test? : Condition → Option (Identifier × Test)
  | compare field r _ => some (field, .compare r)
  | like field _ => some (field, .like)
  | null field isNull => some (field, .null isNull)
  | member field negated _ => some (field, .member negated)
  | never => none

/-- **The text of a test**: its placeholders between two fixed texts. -/
theorem text_of_test? {c : Condition} {i : Identifier} {t : Test} (h : c.test? = some (i, t))
    (d : Dialect) (first : Nat) :
    c.text d first =
      i.name ++ (t.opening d ++ (d.placeholders first (c.params d).length ++ t.closing)) := by
  cases c with
  | compare field r value =>
    cases h
    simp [text, params, placeholders_one, Test.opening, Test.closing, String.append_assoc]
  | like field pattern =>
    cases h
    simp [text, params, placeholders_one, Test.opening, Test.closing, String.append_assoc]
  | null field isNull =>
    cases h
    cases isNull <;> simp [text, params, placeholders_zero, Test.opening, Test.closing]
  | member field negated values =>
    cases h
    cases d <;> cases negated <;>
      simp [text, params, placeholders_one, Dialect.memberText, Dialect.memberParams, Test.opening,
        Test.closing, String.append_assoc]
  | never => cases h

theorem eq_never_of_test? {c : Condition} (h : c.test? = none) : c = never := by
  cases c with
  | never => rfl
  | _ => cases h

theorem toList_text_never (d : Dialect) (first : Nat) :
    (never.text d first).toList = ['1', '=', '0'] := by
  show "1=0".toList = _
  rfl

/-- Tests, each with the index of its first parameter. -/
def numbered (d : Dialect) : Nat → List Condition → List (Nat × Condition)
  | _, [] => []
  | first, c :: cs => (first, c) :: numbered d (first + (c.params d).length) cs

theorem texts_eq_map (d : Dialect) (first : Nat) (cs : List Condition) :
    texts d first cs = (numbered d first cs).map fun p => p.2.text d p.1 := by
  induction cs generalizing first with
  | nil => rfl
  | cons c cs ih => rw [texts, numbered, List.map_cons, ih]

theorem map_numbered {β : Type} (f : Condition → β) (d : Dialect) (first : Nat)
    (cs : List Condition) : ((numbered d first cs).map fun p => f p.2) = cs.map f := by
  induction cs generalizing first with
  | nil => rfl
  | cons c cs ih => rw [numbered, List.map_cons, List.map_cons, ih]

end Condition

/-! ## Statements -/

namespace Select

variable (q : Select)

/-- The text of a sort. -/
def sortText (s : Identifier × Direction) : String :=
  s.1.name ++ " " ++ directionWord s.2

theorem toList_columnsText :
    q.columnsText.toList =
      match q.columns with
      | [] => ['*']
      | i :: is => clause [] ", ".toList (fun i : Identifier => i.name.toList) (i :: is) := by
  unfold columnsText
  cases q.columns with
  | nil => rfl
  | cons i is => exact toList_intercalate_map ", " _ (i :: is)

theorem toList_whereText :
    q.whereText.toList = clause " WHERE ".toList " AND ".toList
      (fun p => (p.2.text q.dialect p.1).toList) (Condition.numbered q.dialect 1 q.conditions) := by
  rw [← toList_opening_intercalate, ← Condition.texts_eq_map, whereText]
  cases q.conditions <;> rfl

theorem toList_orderText :
    q.orderText.toList =
      clause " ORDER BY ".toList ", ".toList (fun s => (sortText s).toList) q.sorts := by
  rw [← toList_opening_intercalate]
  rfl

theorem limitText_cases :
    q.limitText.toList = [] ∨
      ∃ n : Nat, q.limitText.toList = " LIMIT ".toList ++ n.repr.toList := by
  unfold limitText
  cases q.limit with
  | none => exact .inl rfl
  | some n => exact .inr ⟨n, String.toList_append⟩

theorem stops_limitText : stops q.limitText.toList = true := by
  obtain h | ⟨n, h⟩ := q.limitText_cases <;> rw [h] <;> rfl

theorem stops_orderText : stops (q.orderText.toList ++ q.limitText.toList) = true := by
  rw [toList_orderText]
  exact stops_clause (fun _ => rfl) q.stops_limitText _

theorem stops_whereText :
    stops (q.whereText.toList ++ (q.orderText.toList ++ q.limitText.toList)) = true := by
  rw [toList_whereText]
  exact stops_clause (fun _ => rfl) q.stops_orderText _

/-- **The text of a statement**, part by part. -/
theorem toList_sql :
    q.sql.toList = "SELECT ".toList ++ (q.columnsText.toList ++ (" FROM ".toList ++
      (q.table.name.toList ++ (q.whereText.toList ++ (q.orderText.toList ++
        q.limitText.toList))))) := by
  simp only [sql, String.toList_append, List.append_assoc]

end Select

end QuerySieve.Sql
