import QuerySieve.Backend.Basic

/-!
# The recorder

* `Call`: an operation, a field and the arguments as texts.
* `Recorder`: the backend that keeps the calls it gets.
* **`Call.perform?`**: a call made on any backend.
-/

namespace QuerySieve

/-- A call to a backend, with its arguments as texts. -/
structure Call where
  operation : Operation
  field : String
  arguments : List String
  deriving DecidableEq, Repr

/-- The calls made so far. -/
structure Recorder where
  calls : List Call := []
  deriving DecidableEq, Repr

/-- Keep one more call. -/
def Recorder.push (r : Recorder) (operation : Operation) (field : String)
    (arguments : List String) : Recorder :=
  { calls := r.calls ++ [⟨operation, field, arguments⟩] }

instance : Backend Recorder where
  equals r field value := r.push .equals field [value]
  notEquals r field value := r.push .notEquals field [value]
  lessThan r field value := r.push .lessThan field [value]
  greaterThan r field value := r.push .greaterThan field [value]
  lessOrEqual r field value := r.push .lessOrEqual field [value]
  greaterOrEqual r field value := r.push .greaterOrEqual field [value]
  isNull r field := r.push .isNull field []
  isNotNull r field := r.push .isNotNull field []
  like r field pattern := r.push .like field [pattern]
  inList r field values := r.push .inList field values
  notInList r field values := r.push .notInList field values
  orderBy r field direction := r.push .orderBy field [direction.name]

section

variable {σ : Type} [Backend σ]

/-- Make a call on a backend; none if the arguments do not fit the operation. -/
def Call.perform? (s : σ) : Call → Option σ
  | ⟨.equals, field, [value]⟩ => some (Backend.equals s field value)
  | ⟨.notEquals, field, [value]⟩ => some (Backend.notEquals s field value)
  | ⟨.lessThan, field, [value]⟩ => some (Backend.lessThan s field value)
  | ⟨.greaterThan, field, [value]⟩ => some (Backend.greaterThan s field value)
  | ⟨.lessOrEqual, field, [value]⟩ => some (Backend.lessOrEqual s field value)
  | ⟨.greaterOrEqual, field, [value]⟩ => some (Backend.greaterOrEqual s field value)
  | ⟨.isNull, field, []⟩ => some (Backend.isNull s field)
  | ⟨.isNotNull, field, []⟩ => some (Backend.isNotNull s field)
  | ⟨.like, field, [pattern]⟩ => some (Backend.like s field pattern)
  | ⟨.inList, field, values⟩ => some (Backend.inList s field values)
  | ⟨.notInList, field, values⟩ => some (Backend.notInList s field values)
  | ⟨.orderBy, field, [direction]⟩ => (Direction.ofText? direction).map (Backend.orderBy s field)
  | _ => none

/-- Make the calls one after the other. -/
def replay? (s : σ) (calls : List Call) : Option σ :=
  calls.foldlM Call.perform? s

end

end QuerySieve
