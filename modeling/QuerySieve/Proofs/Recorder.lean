import Mathlib.Tactic.Common
import QuerySieve.Backend.Recorder

/-!
# What the recorder shows

The twelve operations are tabled three times: by the criterion that asks for one, by the hand-over
of a criterion to a backend, and by the recorder. The tables agree, so that the calls of a recorder,
made on any backend, do what the criteria do there. One such backend keeps the criteria themselves;
hence the calls tell all about them.

* `Criterion.call`: the call that a criterion makes.
* `Criterion.applyTo_recorder`, `Criterion.perform?_call`: one call, recorded and made again.
* `calls_applyAll`, `replay?_map_call`: the calls of a run, and the run that they make.
* `Collector`: the backend that keeps criteria.
* **`Recorder.calls_show_criteria`**: the calls of a recorder.
-/

namespace QuerySieve

namespace Criterion

/-- The arguments of the operation that carries a criterion out, as texts. -/
def arguments : Criterion → List String
  | comparison _ _ value => [value]
  | nullTest _ _ => []
  | patternMatch _ pattern => [pattern]
  | inclusionTest _ _ values => values
  | sortDirective _ direction => [direction.name]

/-- The call that a criterion makes. -/
def call (c : Criterion) : Call :=
  ⟨c.operation, c.key, c.arguments⟩

/-- **One criterion, recorded.** -/
theorem applyTo_recorder (r : Recorder) (c : Criterion) :
    c.applyTo r = { calls := r.calls ++ [c.call] } := by
  cases c with
  | comparison key relation value => cases relation <;> rfl
  | nullTest key isNull => cases isNull <;> rfl
  | patternMatch key pattern => rfl
  | inclusionTest key negated values => cases negated <;> rfl
  | sortDirective key direction => rfl

/-- **One call, made again.** -/
theorem perform?_call {σ : Type} [Backend σ] (s : σ) (c : Criterion) :
    c.call.perform? s = some (c.applyTo s) := by
  cases c with
  | comparison key relation value => cases relation <;> rfl
  | nullTest key isNull => cases isNull <;> rfl
  | patternMatch key pattern => rfl
  | inclusionTest key negated values => cases negated <;> rfl
  | sortDirective key direction =>
    show (Direction.ofText? direction.name).map (Backend.orderBy s key) = _
    rw [direction.ofText?_name]
    rfl

end Criterion

/-! ## Runs -/

theorem calls_applyAll (r : Recorder) (cs : List Criterion) :
    (applyAll r cs).calls = r.calls ++ cs.map Criterion.call := by
  induction cs generalizing r with
  | nil => simp
  | cons c cs ih =>
    rw [applyAll_cons, ih, Criterion.applyTo_recorder, List.map_cons, List.append_assoc,
      List.singleton_append]

theorem calls_applyAll_empty (cs : List Criterion) :
    (applyAll ({} : Recorder) cs).calls = cs.map Criterion.call :=
  calls_applyAll {} cs

theorem replay?_map_call {σ : Type} [Backend σ] (s : σ) (cs : List Criterion) :
    replay? s (cs.map Criterion.call) = some (applyAll s cs) := by
  induction cs generalizing s with
  | nil => rfl
  | cons c cs ih =>
    rw [List.map_cons, replay?, List.foldlM_cons, Criterion.perform?_call]
    exact ih (c.applyTo s)

/-! ## Criteria kept as they are -/

/-- The criteria handed over so far. -/
structure Collector where
  criteria : List Criterion := []
  deriving DecidableEq, Repr

/-- Keep one more criterion. -/
def Collector.push (r : Collector) (c : Criterion) : Collector :=
  { criteria := r.criteria ++ [c] }

instance : Backend Collector where
  equals r field value := r.push (.comparison field .eq value)
  notEquals r field value := r.push (.comparison field .ne value)
  lessThan r field value := r.push (.comparison field .lt value)
  greaterThan r field value := r.push (.comparison field .gt value)
  lessOrEqual r field value := r.push (.comparison field .le value)
  greaterOrEqual r field value := r.push (.comparison field .ge value)
  isNull r field := r.push (.nullTest field true)
  isNotNull r field := r.push (.nullTest field false)
  like r field pattern := r.push (.patternMatch field pattern)
  inList r field values := r.push (.inclusionTest field false values)
  notInList r field values := r.push (.inclusionTest field true values)
  orderBy r field direction := r.push (.sortDirective field direction)

theorem Criterion.applyTo_collector (r : Collector) (c : Criterion) : c.applyTo r = r.push c := by
  cases c with
  | comparison key relation value => cases relation <;> rfl
  | nullTest key isNull => cases isNull <;> rfl
  | patternMatch key pattern => rfl
  | inclusionTest key negated values => cases negated <;> rfl
  | sortDirective key direction => rfl

theorem criteria_applyAll (r : Collector) (cs : List Criterion) :
    (applyAll r cs).criteria = r.criteria ++ cs := by
  induction cs generalizing r with
  | nil => simp
  | cons c cs ih =>
    rw [applyAll_cons, ih, Criterion.applyTo_collector, Collector.push, List.append_assoc,
      List.singleton_append]

theorem eq_of_map_call_eq {cs ds : List Criterion}
    (h : cs.map Criterion.call = ds.map Criterion.call) : cs = ds := by
  have hc := replay?_map_call ({} : Collector) cs
  rw [h, replay?_map_call, Option.some.injEq] at hc
  have hcs := criteria_applyAll {} cs
  rw [← hc, criteria_applyAll] at hcs
  exact hcs.symm

/-- **The recorder shows what any backend gets**: one call for each criterion, in order. Made again
on any backend, the calls come to what the criteria come to, and different criteria never give the
same calls. -/
theorem Recorder.calls_show_criteria (cs : List Criterion) :
    (applyAll ({} : Recorder) cs).calls.map (fun k => (k.operation, k.field)) =
        cs.map (fun c => (c.operation, c.key)) ∧
      (∀ (σ : Type) [Backend σ] (s : σ),
        replay? s (applyAll ({} : Recorder) cs).calls = some (applyAll s cs)) ∧
      ∀ ds : List Criterion,
        (applyAll ({} : Recorder) cs).calls = (applyAll ({} : Recorder) ds).calls ↔ cs = ds := by
  simp only [calls_applyAll_empty]
  refine ⟨?_, fun σ _ s => replay?_map_call s cs, fun ds => ⟨eq_of_map_call_eq, congrArg _⟩⟩
  rw [List.map_map]
  rfl

end QuerySieve
