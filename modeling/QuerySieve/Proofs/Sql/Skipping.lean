import QuerySieve.Proofs.Sql.Bounds
import QuerySieve.Proofs.Sql.Placeholders

/-!
# Fields that are left out

A criterion whose field is no identifier is left out of a statement and put on record. It changes
nothing else, so that the criteria around it make the same statement as without it.

* `Criterion.applyTo_of_invalid`, `Criterion.skipped_applyTo_of_valid`: one criterion, left out or
  taken in.
* `Draft.query_applyAll_accepted`, `Draft.skipped_applyAll`: a whole run.
* `Criterion.length_boundParams_postgres`: the parameters of one criterion in Postgres.
* **`Draft.applyAll_skips_invalid`**: the query and the records of a run.
-/

namespace QuerySieve

open Sql

namespace Criterion

/-- Whether the field of a criterion may stand in a statement. -/
def isAccepted (c : Criterion) : Bool :=
  isIdentifier c.key

/-- The criteria whose fields may stand in a statement, in order. -/
def accepted (cs : List Criterion) : List Criterion :=
  cs.filter isAccepted

/-- The other criteria, in order. -/
def refused (cs : List Criterion) : List Criterion :=
  cs.filter (!·.isAccepted)

/-- Whether a criterion has a value to bind: a comparison, a pattern or a list that is not empty. -/
def bindsValue : Criterion → Bool
  | comparison _ _ _ => true
  | patternMatch _ _ => true
  | inclusionTest _ _ values => !values.isEmpty
  | nullTest _ _ => false
  | sortDirective _ _ => false

variable {c : Criterion}

/-! ## One criterion -/

/-- **A criterion that is left out** is remembered, and that is all. -/
theorem applyTo_of_invalid (h : c.isAccepted = false) (d : Draft) :
    c.applyTo d = { d with skipped := d.skipped ++ [c.key] } := by
  rw [applyTo_draft, Draft.withField, Identifier.ofString?_of_invalid h]

theorem skipped_applyTo_of_valid (h : c.isAccepted = true) (d : Draft) :
    (c.applyTo d).skipped = d.skipped := by
  rw [applyTo_draft, Draft.withField, Identifier.ofString?_of_valid h]

theorem length_boundParams_postgres (c : Criterion) :
    (c.boundParams .postgres).length = if c.isAccepted && c.bindsValue then 1 else 0 := by
  unfold boundParams isAccepted
  cases isIdentifier c.key with
  | false => rfl
  | true =>
    cases c with
    | inclusionTest name negated values => cases values <;> rfl
    | _ => rfl

end Criterion

open Criterion

/-! ## Runs -/

namespace Sql

theorem Select.length_params_withCriteria_postgres {q : Select} (hd : q.dialect = .postgres)
    (hq : q.conditions = []) (cs : List Criterion) :
    (q.withCriteria cs).params.length = cs.countP fun c => c.isAccepted && c.bindsValue := by
  rw [Select.params, Select.conditions_withCriteria hq, Select.dialect_withCriteria, hd,
    List.filterMap_eq_flatMap_toList, List.flatMap_assoc]
  induction cs with
  | nil => rfl
  | cons c cs ih =>
    rw [List.flatMap_cons, List.length_append, ih, params_condition?, length_boundParams_postgres,
      List.countP_cons, Nat.add_comm]

namespace Draft

theorem query_applyAll_congr {d d' : Draft} (h : d.query = d'.query) (cs : List Criterion) :
    (applyAll d cs).query = (applyAll d' cs).query := by
  rw [query_applyAll, query_applyAll, h]

/-- **Criteria that are left out do not change the query.** -/
theorem query_applyAll_accepted (d : Draft) (cs : List Criterion) :
    (applyAll d (accepted cs)).query = (applyAll d cs).query := by
  induction cs generalizing d with
  | nil => rfl
  | cons c cs ih =>
    cases h : c.isAccepted with
    | true =>
      rw [accepted, List.filter_cons_of_pos h]
      exact ih (c.applyTo d)
    | false =>
      -- The two runs go on from drafts that differ in what was left out, not in the query.
      rw [accepted, List.filter_cons_of_neg (by rw [h]; exact Bool.false_ne_true), applyAll_cons,
        applyTo_of_invalid h]
      have hd : d.query = ({ d with skipped := d.skipped ++ [c.key] } : Draft).query := rfl
      exact (ih d).trans (query_applyAll_congr hd cs)

/-- **Each criterion that is left out is remembered**, in order. -/
theorem skipped_applyAll (d : Draft) (cs : List Criterion) :
    (applyAll d cs).skipped = d.skipped ++ (refused cs).map key := by
  induction cs generalizing d with
  | nil => exact (List.append_nil _).symm
  | cons c cs ih =>
    rw [applyAll_cons, ih, refused]
    cases h : c.isAccepted with
    | true => simp [skipped_applyTo_of_valid h, h, refused]
    | false => simp [applyTo_of_invalid h, h, refused]

theorem refused_accepted (cs : List Criterion) : refused (accepted cs) = [] := by
  simp [refused, accepted, List.filter_filter]

/-- **Fields that are no identifiers leave a query untouched.** Each is written as a warning, in
order, and the query is that of the other criteria, with a parameter in Postgres for each
comparison, pattern and list with a value among them. -/
theorem applyAll_skips_invalid (d : Draft) (cs : List Criterion) :
    (applyAll d cs).query = (applyAll d (cs.filter fun c => isIdentifier c.key)).query ∧
      LogRecord.emitted true (applyAll d cs).records =
        LogRecord.emitted true d.records ++
          ((cs.filter fun c => !isIdentifier c.key).map fun c =>
            { level := "warn"
              message := "field skipped, not a SQL identifier"
              fields := [("field", c.key)] }) ∧
      (applyAll d (cs.filter fun c => isIdentifier c.key)).records = d.records ∧
      LogRecord.emitted false (applyAll d cs).records = [] ∧
      ∀ table, isIdentifier table = true →
        ∃ q, Select.start .postgres table = .ok q ∧
          (applyAll ({ query := q } : Draft) cs).query.statement.params.length =
            cs.countP fun c => isIdentifier c.key && c.bindsValue := by
  refine ⟨(d.query_applyAll_accepted cs).symm, ?_, ?_, rfl, fun table ht => ?_⟩
  · show (applyAll d cs).skipped.map skipRecord = d.skipped.map skipRecord ++ _
    rw [skipped_applyAll, List.map_append, List.map_map]
    rfl
  · show (applyAll d (accepted cs)).skipped.map skipRecord = d.skipped.map skipRecord
    rw [skipped_applyAll, refused_accepted, List.map_nil, List.append_nil]
  · exact ⟨_, Select.start_of_valid .postgres ht,
      Select.length_params_withCriteria_postgres rfl rfl cs⟩

/-- A draft of a statement about staff that left out a field already. -/
def refusingDraft : Draft where
  query := { dialect := .sqlite, table := ⟨"staff", rfl⟩ }
  skipped := ["a b"]

/-- A name that would close a statement, a sort by a number, and a list of nothing. -/
def oddCriteria : List Criterion :=
  [.inclusionTest "status" false ["a", "b"], .comparison "name; --" .eq "x",
    .inclusionTest "role" true [], .sortDirective "1=1" .asc, .patternMatch "name" "a%"]

theorem applyAll_skips_oddCriteria :
    isIdentifier "staff" = true ∧
      (applyAll refusingDraft oddCriteria).query =
        (applyAll refusingDraft [.inclusionTest "status" false ["a", "b"],
          .inclusionTest "role" true [], .patternMatch "name" "a%"]).query ∧
      (LogRecord.emitted true (applyAll refusingDraft oddCriteria).records).map (·.fields) =
        [[("field", "a b")], [("field", "name; --")], [("field", "1=1")]] ∧
      ∃ q, Select.start .postgres "staff" = .ok q ∧
        (applyAll ({ query := q } : Draft) oddCriteria).query.statement.params.length = 2 := by
  have ht : isIdentifier "staff" = true := by decide
  obtain ⟨hq, hr, -, -, hp⟩ := applyAll_skips_invalid refusingDraft oddCriteria
  obtain ⟨q, hs, hn⟩ := hp "staff" ht
  refine ⟨ht, hq.trans ?_, ?_, q, hs, hn.trans ?_⟩
  · decide +kernel
  · rw [hr]
    decide +kernel
  · decide +kernel

end Draft

end Sql

end QuerySieve
