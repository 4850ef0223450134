import Mathlib.Algebra.Group.Action.Defs
import Mathlib.Algebra.Order.BigOperators.Group.List
import Mathlib.Algebra.Order.Ring.Nat
import QuerySieve.Proofs.Fragments
import QuerySieve.Proofs.Sql.Agreement

/-!
# Limits on statements

The limits on the fragments of a query and on the values of a list go through to the statement: they
bound the number of its parameters. A list has a value at least, so that no test of a statement
comes from an empty list and none is left out for one.

* `Criterion.Listed`: the criteria of which a list has at least one value and at most so many.
* `Criterion.listed_of_ofToken`, `Sieve.length_le_and_listed`: such are the criteria of a token and
  of a query.
* `Limits.paramsEach`, `Criterion.length_params_le`: the parameters of one criterion.
* `Criterion.boundTest?_of_listed`: the test of one criterion.
* **`Sieve.limits_bound_statement`**: the statement of a query.
-/

namespace QuerySieve

open Sql

/-! ## Lists -/

namespace Criterion

/-- If there is a list, it has at least one value and at most `max` of them. -/
def Listed (max : Nat) (c : Criterion) : Prop :=
  ∀ values, c.values? = some values → 1 ≤ values.length ∧ values.length ≤ max

theorem listed_of_values? {max : Nat} {c : Criterion} (h : c.values? = none) : c.Listed max := by
  intro values hv
  rw [h] at hv
  cases hv

theorem listed_of_ofMembership {g : Gate} {name value : String} {negated : Bool} {c : Criterion}
    {max : Nat} (hg : g.maxListValues = some max)
    (h : ofMembership g name negated value = .ok c) : c.Listed max := by
  unfold ofMembership at h
  simp only at h
  split_ifs at h with ha
  cases h
  rintro values ⟨⟩
  rw [Gate.admitsLength, hg] at ha
  exact ⟨List.length_pos_iff.mpr (Text.splitOn_ne_nil ',' value), of_decide_eq_true ha⟩

/-- **One token**: its list has a value, and no more than are let through. -/
theorem listed_of_ofToken {g : Gate} {t : Token} {c : Criterion} {max : Nat}
    (hg : g.maxListValues = some max) (h : ofToken g t = .ok c) : c.Listed max := by
  unfold ofToken at h
  cases ho : FragmentOperator.ofSymbol? t.operator with
  | none => simp [ho] at h
  | some o =>
    simp only [ho] at h
    split_ifs at h
    cases o with
    | compare r => exact listed_of_values? (values?_of_ofComparison h)
    | member negated => exact listed_of_ofMembership hg h

end Criterion

/-! ## Queries -/

namespace Sieve

variable {s : Sieve}

theorem listed_of_criterion? {fragment : String} {c : Criterion}
    (h : s.criterion? fragment = some c) : c.Listed s.limits.listValues := by
  obtain ⟨t, -, he⟩ := exists_ofToken_of_criterion? h
  exact Criterion.listed_of_ofToken rfl he

variable (s) in
theorem length_criteria_read_le (query : String) :
    (s.read query).criteria.length ≤ s.limits.fragments := by
  rw [criteria_read]
  exact (List.length_filterMap_le _ _).trans (List.length_take_le _ _)

variable (s) in
theorem length_criteria_readEncoded_le (raw : Option String) :
    (s.readEncoded raw).criteria.length ≤ s.limits.fragments := by
  rw [criteria_readEncoded]
  cases s.limits.decoded? raw with
  | none => exact Nat.zero_le _
  | some query => exact s.length_criteria_read_le query

theorem length_le_and_listed {query : String} {raw : Option String} {cs : List Criterion}
    (hcs : cs ∈ [(s.read query).criteria, (s.readEncoded raw).criteria]) :
    cs.length ≤ s.limits.fragments ∧ ∀ c ∈ cs, c.Listed s.limits.listValues := by
  simp only [List.mem_cons, List.not_mem_nil, or_false] at hcs
  constructor
  · obtain rfl | rfl := hcs
    · exact s.length_criteria_read_le query
    · exact s.length_criteria_readEncoded_le raw
  · intro c hc
    have hm : c ∈ (s.read query).criteria ∨ c ∈ (s.readEncoded raw).criteria := by
      obtain rfl | rfl := hcs
      · exact .inl hc
      · exact .inr hc
    obtain ⟨f, hf⟩ := exists_criterion?_of_mem hm
    exact listed_of_criterion? hf

end Sieve

/-! ## Tests -/

/-- The most parameters of one test: one for a whole list, or one for each value. -/
def Limits.paramsEach (l : Limits) : Dialect → Nat
  | .postgres => 1
  | .sqlite => max 1 l.listValues

namespace Criterion

variable {c : Criterion} {l : Limits}

theorem length_params_le (hc : c.Listed l.listValues) (d : Dialect) {x : Condition}
    (hx : c.condition? = some x) : (x.params d).length ≤ l.paramsEach d := by
  have one : 1 ≤ l.paramsEach d := by
    cases d with
    | postgres => exact Nat.le_refl 1
    | sqlite => exact Nat.le_max_left 1 _
  obtain ⟨i, -, hi⟩ := Option.bind_eq_some_iff.mp hx
  cases c with
  | inclusionTest name negated values =>
    -- The list is not empty, so that its test is a membership test with all of its values.
    obtain ⟨hpos, hmax⟩ := hc values rfl
    cases values with
    | nil => cases hpos
    | cons v values =>
      have hm : x = .member i negated (v :: values) := by cases negated <;> cases hi <;> rfl
      subst hm
      cases d with
      | postgres => exact one
      | sqlite =>
        show ((v :: values).map Param.text).length ≤ _
        rw [List.length_map]
        exact hmax.trans (Nat.le_max_right 1 _)
  | nullTest name isNull =>
    cases hi
    exact Nat.zero_le _
  | sortDirective name direction => cases hi
  | _ =>
    cases hi
    exact one

/-- **The test of one criterion**: each filter on an identifier has one. -/
theorem boundTest?_of_listed {max : Nat} (hc : c.Listed max) :
    c.boundTest?.isSome = (!c.isSort && isIdentifier c.key) ∧ c.boundTest? ≠ some .never := by
  unfold boundTest?
  cases hk : isIdentifier c.key with
  | false => simp
  | true =>
    cases c with
    | inclusionTest name negated values =>
      cases values with
      | nil => cases (hc [] rfl).1
      | cons v values => simp [isSort]
    | _ => simp [isSort]

end Criterion

/-! ## Statements -/

namespace Sql.Select

variable {cs : List Criterion} {l : Limits} {q : Select}

theorem conditions_withCriteria (hq : q.conditions = []) :
    (q.withCriteria cs).conditions = cs.filterMap Criterion.condition? := by
  rw [withCriteria, query_applyAll]
  simp [hq]

theorem dialect_withCriteria : (q.withCriteria cs).dialect = q.dialect := by
  rw [withCriteria, query_applyAll]

theorem length_params_withCriteria_le (hq : q.conditions = [])
    (hcs : ∀ c ∈ cs, c.Listed l.listValues) :
    (q.withCriteria cs).params.length ≤ cs.length * l.paramsEach q.dialect := by
  have each : ∀ n ∈ (cs.filterMap Criterion.condition?).map fun x => (x.params q.dialect).length,
      n ≤ l.paramsEach q.dialect := by
    intro n hn
    obtain ⟨x, hx, rfl⟩ := List.mem_map.mp hn
    obtain ⟨c, hc, hcx⟩ := List.mem_filterMap.mp hx
    exact Criterion.length_params_le (hcs c hc) q.dialect hcx
  have hsum := List.sum_le_card_nsmul _ _ each
  rw [List.length_map, smul_eq_mul] at hsum
  rw [params, conditions_withCriteria hq, dialect_withCriteria, List.length_flatMap]
  exact hsum.trans (Nat.mul_le_mul_right _ (List.length_filterMap_le _ _))

/-- The tests of criteria, read back from the statement. -/
theorem map_readTest?_withCriteria (hq : q.conditions = []) {max : Nat}
    (hcs : ∀ c ∈ cs, c.Listed max) :
    (q.withCriteria cs).conditionTexts.map
        (readTest? q.dialect (q.withCriteria cs).statement.params) =
      (cs.filter fun c => !c.isSort && isIdentifier c.key).map Criterion.boundTest? := by
  have hread := (q.withCriteria cs).map_readTest?_conditionTexts
  rw [dialect_withCriteria, conditions_withCriteria hq] at hread
  have hkeep : (cs.filter fun c => !c.isSort && isIdentifier c.key) =
      cs.filter (Option.isSome ∘ Criterion.boundTest?) :=
    List.filter_congr fun c hc => (Criterion.boundTest?_of_listed (hcs c hc)).1.symm
  rw [hkeep, ← List.filter_map, ← List.map_filterMap_some_eq_filter_map_isSome,
    ← funext Criterion.map_bound_condition?, ← List.map_filterMap, List.map_map]
  exact hread

theorem never_notMem_conditionTexts (hq : q.conditions = []) {max : Nat}
    (hcs : ∀ c ∈ cs, c.Listed max) : "1=0" ∉ (q.withCriteria cs).conditionTexts := by
  intro hm
  have hread : some .never ∈ (q.withCriteria cs).conditionTexts.map
      (readTest? q.dialect (q.withCriteria cs).statement.params) :=
    List.mem_map.mpr ⟨_, hm, if_pos rfl⟩
  rw [map_readTest?_withCriteria hq hcs] at hread
  obtain ⟨c, hc, hn⟩ := List.mem_map.mp hread
  exact (Criterion.boundTest?_of_listed (hcs c (List.mem_of_mem_filter hc))).2 hn

end Sql.Select

namespace Sieve

/-- **The limits bound the whole way from a query to its statement.** There are no more criteria
than fragments are looked at, and each list has a value and no more than are allowed, which bounds
the parameters. Every filter on an identifier has its test. -/
theorem limits_bound_statement (s : Sieve) (query : String) (raw : Option String) {table : String}
    (ht : isIdentifier table = true) :
    ∀ cs ∈ [(s.read query).criteria, (s.readEncoded raw).criteria],
      cs.length ≤ s.limits.fragments ∧
      (∀ name negated values, .inclusionTest name negated values ∈ cs →
        1 ≤ values.length ∧ values.length ≤ s.limits.listValues) ∧
      ∀ dialect, ∃ q, Select.start dialect table = .ok q ∧
        (q.withCriteria cs).statement.params.length ≤
          s.limits.fragments * s.limits.paramsEach dialect ∧
        (q.withCriteria cs).whereText = whereClause (q.withCriteria cs).conditionTexts ∧
        "1=0" ∉ (q.withCriteria cs).conditionTexts ∧
        (q.withCriteria cs).conditionTexts.map
            (readTest? dialect (q.withCriteria cs).statement.params) =
          (cs.filter fun c => !c.isSort && isIdentifier c.key).map Criterion.boundTest? := by
  intro cs hcs
  obtain ⟨hlen, hlist⟩ := length_le_and_listed hcs
  refine ⟨hlen, fun name negated values hm => hlist _ hm values rfl, fun dialect => ?_⟩
  obtain ⟨q, hq, rfl, hc⟩ : ∃ q, Select.start dialect table = .ok q ∧ q.dialect = dialect ∧
      q.conditions = [] := ⟨_, Select.start_of_valid dialect ht, rfl, rfl⟩
  refine ⟨q, hq, ?_, Select.whereText_eq _, Select.never_notMem_conditionTexts hc hlist,
    Select.map_readTest?_withCriteria hc hlist⟩
  exact (Select.length_params_withCriteria_le hc hlist).trans (Nat.mul_le_mul_right _ hlen)

/-- A sieve that looks at three fragments and lets lists of two through. -/
def narrowSieve : Sieve where
  policy := .unrestricted
  limits := { fragments := 3, listValues := 2 }

/-- The second list is too long, and the fourth fragment comes too late. -/
def longQuery : String := "status~a,b&grade~1,2,3&role!~x&age=4"

theorem limits_bound_narrowSieve :
    isIdentifier "staff" = true ∧
      (narrowSieve.read longQuery).criteria =
        [.inclusionTest "status" false ["a", "b"], .inclusionTest "role" true ["x"]] ∧
      ∃ q, Select.start .sqlite "staff" = .ok q ∧
        (q.withCriteria (narrowSieve.read longQuery).criteria).statement.params.length = 3 ∧
        3 ≤ narrowSieve.limits.fragments * narrowSieve.limits.paramsEach .sqlite ∧
        (q.withCriteria (narrowSieve.read longQuery).criteria).conditionTexts.map
            (readTest? .sqlite
              (q.withCriteria (narrowSieve.read longQuery).criteria).statement.params) =
          [some (.test "status" (.member false) ["a", "b"]),
            some (.test "role" (.member true) ["x"])] := by
  have ht : isIdentifier "staff" = true := by decide
  have hcs : (narrowSieve.read longQuery).criteria =
      [.inclusionTest "status" false ["a", "b"], .inclusionTest "role" true ["x"]] := by
    decide +kernel
  obtain ⟨-, -, hd⟩ := limits_bound_statement narrowSieve longQuery none ht _ List.mem_cons_self
  obtain ⟨q, hq, hle, -, -, hread⟩ := hd .sqlite
  have hp : (q.withCriteria (narrowSieve.read longQuery).criteria).statement.params.length = 3 := by
    cases hq
    decide +kernel
  rw [hp] at hle
  refine ⟨ht, hcs, q, hq, hp, hle, hread.trans ?_⟩
  rw [hcs]
  decide +kernel

end Sieve

end QuerySieve
