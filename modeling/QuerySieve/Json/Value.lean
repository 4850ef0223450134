/-!
# JSON values

* `Value`: a JSON value. Members keep their order and may repeat a name; a number keeps apart
  whether it was written as an integer.
* `Value.member?`: the last member of a name.
* Views of a value as one of a kind: `asString?`, `asBool?`, `asItems?`, `asMembers?`, `asNat?`.
-/

namespace QuerySieve.Json

/-- A JSON value. -/
inductive Value where
  | null
  | bool (b : Bool)
  /-- A number written with neither fraction nor exponent. -/
  | int (n : Int)
  /-- Any other number, as it was written; so is a date or a time of a document that has them. -/
  | real (literal : String)
  | str (s : String)
  | arr (items : List Value)
  | obj (members : List (String × Value))
  deriving Repr

namespace Value

/-- A text. -/
def asString? : Value → Option String
  | .str s => some s
  | _ => none

/-- A truth value. -/
def asBool? : Value → Option Bool
  | .bool b => some b
  | _ => none

/-- The items of a list. -/
def asItems? : Value → Option (List Value)
  | .arr items => some items
  | _ => none

/-- The members of an object. -/
def asMembers? : Value → Option (List (String × Value))
  | .obj members => some members
  | _ => none

/-- A whole number that is not negative. -/
def asNat? : Value → Option Nat
  | .int (.ofNat n) => some n
  | _ => none

/-- A list of texts. -/
def asStrings? (v : Value) : Option (List String) :=
  v.asItems?.bind (·.mapM asString?)

/-- The last member of a name. -/
def member? (v : Value) (name : String) : Option Value :=
  v.asMembers?.bind fun members => (members.reverse.find? (·.1 = name)).map (·.2)

/-- A list of texts as a value. -/
def strings (ss : List String) : Value :=
  .arr (ss.map .str)

theorem mapM_asString? (ss : List String) : (ss.map Value.str).mapM asString? = some ss := by
  induction ss with
  | nil => rfl
  | cons s ss ih => simp [asString?, ih]

/-- A written list of texts is read back. -/
theorem asStrings?_strings (ss : List String) : (strings ss).asStrings? = some ss := by
  rw [asStrings?, strings, asItems?, Option.bind_some, mapM_asString?]

end Value

end QuerySieve.Json
