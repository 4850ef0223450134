import QuerySieve.Proofs.Sql.Agreement

/-!
# Filters, sorts and settings in any order

A draft takes filters, sorts, columns and a bound on the number of rows. Each of these kinds changes
its own part of the query. So a statement does not depend on how the kinds are mixed, only on the
order within filters and within sorts, and on the last columns and the last bound.

* `Draft.tests_applyTo`: what one criterion adds to the tests and their parameters.
* `Draft.query_applyAll_eq`: criteria with the same filters and the same sorts make one query.
* `Draft.override`, `Draft.applyTo_override`: columns and bound replaced, before a criterion as
  well as after it.
* `Draft.Settled`: what a run comes to, and `exists_settled`, that every run comes to it.
* **`Draft.statement_of_mixed_steps`**: filters, sorts and settings, mixed in any way.
-/

namespace QuerySieve

open Sql

/-! ## Filters and sorts -/

namespace Criterion

theorem condition?_eq_none {c : Criterion} (h : c.isSort = true) : c.condition? = none := by
  cases c with
  | sortDirective key direction => exact Option.bind_eq_none_iff.mpr fun _ _ => rfl
  | _ => cases h

theorem sortTerm?_eq_none {c : Criterion} (h : c.isSort = false) : c.sortTerm? = none := by
  cases c with
  | sortDirective key direction => cases h
  | _ => exact Option.bind_eq_none_iff.mpr fun _ _ => rfl

theorem filterMap_condition?_filters (cs : List Criterion) :
    (filters cs).filterMap condition? = cs.filterMap condition? := by
  rw [filters, List.filterMap_filter]
  refine List.filterMap_congr fun c _ => ?_
  cases h : c.isSort with
  | false => rfl
  | true => exact (condition?_eq_none h).symm

theorem filterMap_sortTerm?_sorts (cs : List Criterion) :
    (sorts cs).filterMap sortTerm? = cs.filterMap sortTerm? := by
  rw [sorts, List.filterMap_filter]
  refine List.filterMap_congr fun c _ => ?_
  cases h : c.isSort with
  | false => exact (sortTerm?_eq_none h).symm
  | true => rfl

end Criterion

namespace Sql

theorem Condition.texts_concat (d : Dialect) (first : Nat) (cs : List Condition) (c : Condition) :
    texts d first (cs ++ [c]) =
      texts d first cs ++ [c.text d (first + (cs.flatMap (·.params d)).length)] := by
  induction cs generalizing first with
  | nil => rfl
  | cons c' cs ih =>
    rw [List.cons_append, texts, texts, ih, List.flatMap_cons, List.length_append, Nat.add_assoc,
      List.cons_append]

namespace Draft

/-- **One criterion** adds at most one test, numbered from the parameters there are. -/
theorem tests_applyTo (d : Draft) (c : Criterion) :
    (c.applyTo d).query.conditionTexts = d.query.conditionTexts ++
        c.condition?.toList.map (·.text d.query.dialect (d.query.params.length + 1)) ∧
      (c.applyTo d).query.params =
        d.query.params ++ c.condition?.toList.flatMap (·.params d.query.dialect) := by
  rw [Criterion.query_applyTo]
  refine ⟨?_, List.flatMap_append⟩
  cases c.condition? with
  | none => simp [Select.conditionTexts]
  | some x =>
    show Condition.texts _ 1 (d.query.conditions ++ [x]) = _
    rw [Condition.texts_concat, Nat.add_comm 1]
    rfl

/-- **Filters and sorts do not interact** in a query. -/
theorem query_applyAll_eq (d : Draft) {cs es : List Criterion}
    (hf : Criterion.filters cs = Criterion.filters es)
    (hs : Criterion.sorts cs = Criterion.sorts es) :
    (applyAll d cs).query = (applyAll d es).query := by
  rw [query_applyAll, query_applyAll, ← Criterion.filterMap_condition?_filters cs, hf,
    Criterion.filterMap_condition?_filters, ← Criterion.filterMap_sortTerm?_sorts cs, hs,
    Criterion.filterMap_sortTerm?_sorts]

end Draft

/-! ## Settings -/

namespace Step

/-- The criterion that a step hands over. -/
def criterion? : Step → Option Criterion
  | criterion c => some c
  | _ => none

/-- Whether a step replaces the columns. -/
def setsColumns : Step → Bool
  | columns _ => true
  | _ => false

/-- Whether a step replaces the bound on the number of rows. -/
def setsLimit : Step → Bool
  | limit _ => true
  | _ => false

/-- Whether the columns of a step are identifiers. -/
def isAccepted : Step → Bool
  | columns names => names.all isIdentifier
  | _ => true

/-- The criteria that steps hand over, in order. -/
def criteria (steps : List Step) : List Criterion :=
  steps.filterMap criterion?

/-- The steps that replace columns or bound, in order. -/
def settings (steps : List Step) : List Step :=
  steps.filter fun s => s.setsColumns || s.setsLimit

/-- The last step of a kind, if there is one. -/
def lastOf (kind : Step → Bool) (steps : List Step) : List Step :=
  (steps.filter kind).getLast?.toList

/-- The last step that replaces the columns, and the last one that replaces the bound. -/
def lastSettings (steps : List Step) : List Step :=
  lastOf setsColumns steps ++ lastOf setsLimit steps

theorem criteria_concat (steps : List Step) (s : Step) :
    criteria (steps ++ [s]) = criteria steps ++ s.criterion?.toList :=
  Draft.filterMap_concat criterion? steps s

theorem lastOf_concat {kind : Step → Bool} {s : Step} (h : kind s = true) (steps : List Step) :
    lastOf kind (steps ++ [s]) = [s] := by
  simp [lastOf, h]

theorem lastOf_concat_other {kind : Step → Bool} {s : Step} (h : kind s = false)
    (steps : List Step) : lastOf kind (steps ++ [s]) = lastOf kind steps := by
  simp [lastOf, h]

theorem criteria_settings (steps : List Step) : criteria (settings steps) = [] := by
  rw [criteria, settings, List.filterMap_filter, List.filterMap_eq_nil_iff]
  intro s _
  cases s <;> rfl

theorem lastSettings_settings (steps : List Step) :
    lastSettings (settings steps) = lastSettings steps := by
  have key (kind : Step → Bool) (h : ∀ s, (kind s && (s.setsColumns || s.setsLimit)) = kind s) :
      lastOf kind (settings steps) = lastOf kind steps := by
    simp only [lastOf, settings, List.filter_filter, h]
  unfold lastSettings
  rw [key setsColumns fun s => by cases s <;> rfl, key setsLimit fun s => by cases s <;> rfl]

end Step

namespace Draft

open Step

/-- A draft with columns and a bound in the place of its own, where they are given. -/
def override (d : Draft) (columns : Option (List Identifier)) (limit : Option Nat) : Draft :=
  { d with query := { d.query with
      columns := columns.getD d.query.columns
      limit := limit.or d.query.limit } }

theorem override_override (d : Draft) (cs cs' : Option (List Identifier)) (n n' : Option Nat) :
    (d.override cs n).override cs' n' = d.override (cs'.or cs) (n'.or n) := by
  cases cs' <;> cases n' <;> rfl

/-- **A criterion and a setting commute.** -/
theorem applyTo_override (c : Criterion) (d : Draft) (columns : Option (List Identifier))
    (limit : Option Nat) :
    c.applyTo (d.override columns limit) = (c.applyTo d).override columns limit := by
  rw [Criterion.applyTo_draft, Criterion.applyTo_draft]
  unfold withField
  cases Identifier.ofString? c.key <;> rfl

theorem run_append (d : Draft) (steps rest : List Step) :
    d.run (steps ++ rest) = (d.run steps).bind (·.run rest) :=
  List.foldlM_append

theorem run_singleton (d : Draft) (s : Step) : d.run [s] = d.step s :=
  bind_pure (d.step s)

theorem run_concat {d d' : Draft} {steps : List Step} (h : d.run steps = .ok d') (s : Step) :
    d.run (steps ++ [s]) = d'.step s := by
  rw [run_append, h]
  exact d'.run_singleton s

theorem exists_step_columns {names : List String} (h : (columns names).isAccepted = true) :
    ∃ is, ∀ d : Draft, d.step (.columns names) = .ok (d.override (some is) none) := by
  obtain ⟨is, hi⟩ := Identifier.exists_mapM_require "column" (List.all_eq_true.mp h)
  refine ⟨is, fun d => ?_⟩
  rw [step, Select.withColumns, hi]
  rfl

/-- What steps come to from any draft: their criteria, and then columns and a bound that their last
settings alone give as well. -/
structure Settled (steps : List Step) (columns : Option (List Identifier))
    (limit : Option Nat) : Prop where
  run_eq : ∀ d : Draft, d.run steps = .ok ((applyAll d (criteria steps)).override columns limit)
  columns_eq : ∀ d : Draft, d.run (lastOf setsColumns steps) = .ok (d.override columns none)
  limit_eq : ∀ d : Draft, d.run (lastOf setsLimit steps) = .ok (d.override none limit)

namespace Settled

variable {steps : List Step} {cs : Option (List Identifier)} {n : Option Nat}

theorem criterion (hs : Settled steps cs n) (c : Criterion) :
    Settled (steps ++ [.criterion c]) cs n where
  run_eq d := by
    rw [run_concat (hs.run_eq d), step, applyTo_override, criteria_concat, applyAll_append]
    rfl
  columns_eq d := by rw [lastOf_concat_other rfl, hs.columns_eq]
  limit_eq d := by rw [lastOf_concat_other rfl, hs.limit_eq]

theorem columns (hs : Settled steps cs n) {names : List String} {is : List Identifier}
    (hi : ∀ d : Draft, d.step (.columns names) = .ok (d.override (some is) none)) :
    Settled (steps ++ [.columns names]) (some is) n where
  run_eq d := by
    rw [run_concat (hs.run_eq d), hi, override_override, criteria_concat, applyAll_append]
    rfl
  columns_eq d := by rw [lastOf_concat rfl, run_singleton, hi]
  limit_eq d := by rw [lastOf_concat_other rfl, hs.limit_eq]

theorem limit (hs : Settled steps cs n) (m : Nat) :
    Settled (steps ++ [.limit m]) cs (some m) where
  run_eq d := by
    have hm (d : Draft) : d.step (.limit m) = .ok (d.override none (some m)) := rfl
    rw [run_concat (hs.run_eq d), hm, override_override, criteria_concat, applyAll_append]
    rfl
  columns_eq d := by rw [lastOf_concat_other rfl, hs.columns_eq]
  limit_eq d := by rw [lastOf_concat rfl, run_singleton]; rfl

end Settled

/-- **Every run comes to criteria and settings.** -/
theorem exists_settled (steps : List Step) (h : ∀ s ∈ steps, s.isAccepted = true) :
    ∃ cs n, Settled steps cs n := by
  -- On the last step: a criterion passes the settings before it, a setting replaces its own kind.
  induction steps using List.reverseRecOn with
  | nil => exact ⟨none, none, fun _ => rfl, fun _ => rfl, fun _ => rfl⟩
  | append_singleton steps s ih =>
    obtain ⟨cs, n, hs⟩ := ih fun s hs => h s (List.mem_append_left _ hs)
    have ha := h s (List.mem_append_right _ List.mem_cons_self)
    cases s with
    | criterion c => exact ⟨cs, n, hs.criterion c⟩
    | columns names =>
      obtain ⟨is, hi⟩ := exists_step_columns ha
      exact ⟨some is, n, hs.columns hi⟩
    | limit m => exact ⟨cs, some m, hs.limit m⟩

theorem Settled.run_lastSettings {steps : List Step} {cs : Option (List Identifier)}
    {n : Option Nat} (hs : Settled steps cs n) (d : Draft) :
    d.run (lastSettings steps) = .ok (d.override cs n) := by
  rw [lastSettings, run_append, hs.columns_eq]
  show (d.override cs none).run _ = _
  rw [hs.limit_eq, override_override]
  simp

theorem run_eq_run_lastSettings {steps : List Step} (h : ∀ s ∈ steps, s.isAccepted = true)
    (d : Draft) : d.run steps = (applyAll d (criteria steps)).run (lastSettings steps) := by
  obtain ⟨cs, n, hs⟩ := exists_settled steps h
  rw [hs.run_eq, hs.run_lastSettings]

/-- **Filters, sorts and settings do not interact.** Criteria with the same filters and the same
sorts give the same statement, from any draft. Settings come to the same among the criteria as after
them, and only the last ones count. -/
theorem statement_of_mixed_steps (d : Draft) :
    (∀ c : Criterion,
      (c.applyTo d).query.conditionTexts = d.query.conditionTexts ++
          c.condition?.toList.map (·.text d.query.dialect (d.query.params.length + 1)) ∧
        (c.applyTo d).query.params =
          d.query.params ++ c.condition?.toList.flatMap (·.params d.query.dialect)) ∧
    (∀ cs es : List Criterion, Criterion.filters cs = Criterion.filters es →
      Criterion.sorts cs = Criterion.sorts es →
      (applyAll d cs).query.statement = (applyAll d es).query.statement) ∧
    ∀ steps : List Step, (∀ s ∈ steps, s.isAccepted = true) →
      ∃ d', d.run steps = .ok d' ∧
        (applyAll d (criteria steps)).run (settings steps) = .ok d' ∧
        (applyAll d (criteria steps)).run (lastSettings steps) = .ok d' := by
  refine ⟨d.tests_applyTo,
    fun cs es hf hs => congrArg Select.statement (d.query_applyAll_eq hf hs), fun steps h => ?_⟩
  obtain ⟨cs, n, hr⟩ := exists_settled steps h
  have hset : ∀ s ∈ settings steps, s.isAccepted = true :=
    fun s hs => h s (List.mem_of_mem_filter hs)
  refine ⟨_, hr.run_eq d, ?_, hr.run_lastSettings _⟩
  rw [run_eq_run_lastSettings hset, criteria_settings, lastSettings_settings, applyAll_nil,
    hr.run_lastSettings]

/-- An empty draft of a statement about staff. -/
def staffDraft : Draft where
  query := { dialect := .sqlite, table := ⟨"staff", by decide⟩ }

/-- Columns are set twice and the bound between a filter and a sort. -/
def staffSteps : List Step :=
  [.columns ["id"], .criterion (.inclusionTest "status" false ["a", "b"]), .limit 5,
    .criterion (.sortDirective "name" .desc), .columns ["id", "name"],
    .criterion (.comparison "age" .ge "18")]

/-- The sort stands between two filters that share the numbering of parameters. -/
theorem statement_of_staffSteps :
    Criterion.filters (criteria staffSteps) =
        [.inclusionTest "status" false ["a", "b"], .comparison "age" .ge "18"] ∧
      Criterion.sorts (criteria staffSteps) = [.sortDirective "name" .desc] ∧
      (∀ s ∈ staffSteps, s.isAccepted = true) ∧
      lastSettings staffSteps = [.columns ["id", "name"], .limit 5] ∧
      (applyAll staffDraft (criteria staffSteps)).query.statement =
        (applyAll staffDraft [.sortDirective "name" .desc,
          .inclusionTest "status" false ["a", "b"],
          .comparison "age" .ge "18"]).query.statement ∧
      ∃ d, staffDraft.run staffSteps = .ok d ∧
        (applyAll staffDraft (criteria staffSteps)).run
          [.columns ["id", "name"], .limit 5] = .ok d ∧
        d.query.statement =
          ⟨"SELECT id, name FROM staff WHERE status IN (?1, ?2) AND age >= ?3" ++
            " ORDER BY name DESC LIMIT 5", [.text "a", .text "b", .text "18"]⟩ := by
  have ha : ∀ s ∈ staffSteps, s.isAccepted = true := by decide
  have hl : lastSettings staffSteps = [.columns ["id", "name"], .limit 5] := by decide
  obtain ⟨-, hc, hs⟩ := statement_of_mixed_steps staffDraft
  obtain ⟨d, hd, -, hlast⟩ := hs staffSteps ha
  refine ⟨by decide, by decide, ha, hl, hc _ _ (by decide) (by decide), d, hd, hl ▸ hlast, ?_⟩
  cases hd
  decide +kernel

end Draft

end Sql

end QuerySieve
