import QuerySieve.Criterion.Basic

/-!
# Backends

* `Backend`: a state that takes in filters and sorts, one operation each.
* `Criterion.applyTo`, **`applyAll`**: criteria handed to a backend in order.
-/

namespace QuerySieve

/-- A state that takes in filters and sorts. -/
class Backend (σ : Type) where
  equals : σ → (field value : String) → σ
  notEquals : σ → (field value : String) → σ
  lessThan : σ → (field value : String) → σ
  greaterThan : σ → (field value : String) → σ
  lessOrEqual : σ → (field value : String) → σ
  greaterOrEqual : σ → (field value : String) → σ
  isNull : σ → (field : String) → σ
  isNotNull : σ → (field : String) → σ
  like : σ → (field pattern : String) → σ
  inList : σ → (field : String) → (values : List String) → σ
  notInList : σ → (field : String) → (values : List String) → σ
  orderBy : σ → (field : String) → (direction : Direction) → σ

section

variable {σ : Type} [Backend σ]

/-- Hand a comparison to a backend. -/
def Relation.applyTo (r : Relation) (s : σ) (field value : String) : σ :=
  match r with
  | .eq => Backend.equals s field value
  | .ne => Backend.notEquals s field value
  | .lt => Backend.lessThan s field value
  | .gt => Backend.greaterThan s field value
  | .le => Backend.lessOrEqual s field value
  | .ge => Backend.greaterOrEqual s field value

/-- Hand a criterion to a backend. -/
def Criterion.applyTo (s : σ) : Criterion → σ
  | .comparison key r value => r.applyTo s key value
  | .nullTest key true => Backend.isNull s key
  | .nullTest key false => Backend.isNotNull s key
  | .patternMatch key pattern => Backend.like s key pattern
  | .inclusionTest key false values => Backend.inList s key values
  | .inclusionTest key true values => Backend.notInList s key values
  | .sortDirective key direction => Backend.orderBy s key direction

/-- Hand criteria to a backend in order. -/
def applyAll (s : σ) (cs : List Criterion) : σ :=
  cs.foldl Criterion.applyTo s

@[simp]
theorem applyAll_nil (s : σ) : applyAll s [] = s := rfl

@[simp]
theorem applyAll_cons (s : σ) (c : Criterion) (cs : List Criterion) :
    applyAll s (c :: cs) = applyAll (c.applyTo s) cs := rfl

/-- Criteria can be handed over in two runs. -/
theorem applyAll_append (s : σ) (cs ds : List Criterion) :
    applyAll s (cs ++ ds) = applyAll (applyAll s cs) ds :=
  List.foldl_append

end

end QuerySieve
