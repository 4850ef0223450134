import QuerySieve.Criterion.Basic
import QuerySieve.Json.Value
import QuerySieve.Limits
import QuerySieve.Policy
import QuerySieve.Sql.Dialect

/-!
# Domain values as JSON

For each type that is written as JSON, `toJson` gives the value and `ofJson?` reads it. A record is
an object, or a list of its parts in order. An enumeration is its name, or an object with the name
and `null`; as a part of a criterion, also one with the name and an empty object.

* `Criterion.toJson`, `Criterion.ofJson?`: objects told apart by their member `kind`.
* `Policy.toJson`, `Policy.ofJson?`, `Limits.toJson`, `Limits.ofJson?`: a missing part has its
  default, an unknown one is refused.
* `Param.toJson`, `Statement.toJson` and their readers.
-/

namespace QuerySieve

open Json

/-! ## Records and enumerations -/

namespace Json

/-- The parts of a record, by name in an object and by place in a list, none for a missing one. -/
def partsOf? (names : List String) : Value → Option (List (Option Value))
  | .arr items =>
    if items.length ≤ names.length then
      some (items.map some ++ List.replicate (names.length - items.length) none)
    else none
  | v => v.asMembers?.map fun _ => names.map v.member?

/-- Whether all members of an object are among the names. -/
def hasOnly (names : List String) (v : Value) : Bool :=
  (v.asMembers?.getD []).all (·.1 ∈ names)

/-- The parts of a record that takes no other members. -/
def closedPartsOf? (names : List String) (v : Value) : Option (List (Option Value)) :=
  if hasOnly names v then partsOf? names v else none

/-- A part read, or its default where it is missing. -/
def partOr {α : Type} (fallback : α) (read : Value → Option α) : Option Value → Option α
  | none => some fallback
  | some v => read v

/-- The name of an enumeration's value. -/
def enumName? : Value → Option String
  | .str s => some s
  | .obj [(s, .null)] => some s
  | _ => none

/-- The name of an enumeration's value that is a part of a criterion; an empty object is as good as
`null` there. -/
def innerName? : Value → Option String
  | .obj [(s, .obj [])] => some s
  | v => enumName? v

/-- A whole number that fits a bound. -/
def boundOf? (v : Value) : Option Nat :=
  v.asNat?.filter (· < Limits.range)

end Json

/-! ## Enumerations -/

/-- A comparison is its symbol. -/
def Relation.toJson (r : Relation) : Value := .str r.symbol

/-- The comparison of a symbol. -/
def Relation.ofJson? (v : Value) : Option Relation :=
  (enumName? v).bind ofSymbol?

/-- A direction is its name. -/
def Direction.toJson (d : Direction) : Value := .str d.name

/-- The direction of a name, in small letters. -/
def Direction.ofJson? (v : Value) : Option Direction :=
  (enumName? v).bind ofName?

/-- An operation is its name. -/
def Operation.toJson (o : Operation) : Value := .str o.name

/-- The operation of a name. -/
def Operation.ofJson? (v : Value) : Option Operation :=
  (enumName? v).bind ofName?

/-! ## Limits and policies -/

namespace Limits

/-- The names of the bounds. -/
def partNames : List String := ["max_query_len", "max_fragments", "max_list_values"]

/-- The three bounds. -/
def toJson (l : Limits) : Value :=
  .obj [("max_query_len", .int l.queryBytes), ("max_fragments", .int l.fragments),
    ("max_list_values", .int l.listValues)]

/-- The limits with the given bounds, the others built in. -/
def ofJson? (v : Value) : Option Limits := do
  match ← closedPartsOf? partNames v with
  | [queryBytes, fragments, listValues] =>
    return { queryBytes := ← partOr builtIn.queryBytes boundOf? queryBytes
             fragments := ← partOr builtIn.fragments boundOf? fragments
             listValues := ← partOr builtIn.listValues boundOf? listValues }
  | _ => none

end Limits

namespace Allowance

/-- All fields are `*`, others a list. -/
def toJson : Allowance → Value
  | .all => .str everyField
  | .only names => .strings names

/-- The allowance of a list of names, of which each counts once. -/
def ofNames (names : List String) : Allowance :=
  if everyField ∈ names then .all else .only names.eraseDups

/-- The allowance of one name or a list of names. -/
def ofJson? : Value → Option Allowance
  | .str name => some (if name = everyField then .all else .only [name])
  | v => v.asStrings?.map ofNames

end Allowance

namespace Policy

/-- The allowed and the hidden fields. -/
def toJson (p : Policy) : Value :=
  .obj [("allow", p.allowance.toJson), ("hidden", .strings p.hidden)]

/-- The policy of given parts; a missing one is empty. -/
def ofJson? (v : Value) : Option Policy := do
  match ← closedPartsOf? ["allow", "hidden"] v with
  | [allowance, hidden] =>
    return { allowance := ← partOr (.only []) Allowance.ofJson? allowance
             hidden := ← partOr [] Value.asStrings? hidden }
  | _ => none

end Policy

/-! ## Criteria -/

namespace Criterion

/-- A criterion with its kind in front. -/
def toJson : Criterion → Value
  | comparison key r value =>
    .obj [("kind", .str "comparison"), ("key", .str key), ("op", r.toJson), ("value", .str value)]
  | nullTest key isNull =>
    .obj [("kind", .str "null_test"), ("key", .str key), ("is_null", .bool isNull)]
  | patternMatch key pattern =>
    .obj [("kind", .str "pattern_match"), ("key", .str key), ("pattern", .str pattern)]
  | inclusionTest key negated values =>
    .obj [("kind", .str "inclusion_test"), ("key", .str key), ("negated", .bool negated),
      ("values", .strings values)]
  | sortDirective key direction =>
    .obj [("kind", .str "sort_directive"), ("key", .str key), ("direction", direction.toJson)]

/-- The kind of a criterion, and the value that holds its parts. -/
def kindOf? : Value → Option (String × Value)
  | .arr (.str kind :: items) => some (kind, .arr items)
  | v => do
    let kind ← (← v.member? "kind").asString?
    return (kind, v)

/-- The criterion of a kind. -/
def ofKind? (kind : String) (v : Value) : Option Criterion :=
  match kind with
  | "comparison" => do
    match ← partsOf? ["key", "op", "value"] v with
    | [some key, some r, some value] =>
      return .comparison (← key.asString?) (← (innerName? r).bind Relation.ofSymbol?)
        (← value.asString?)
    | _ => none
  | "null_test" => do
    match ← partsOf? ["key", "is_null"] v with
    | [some key, some isNull] => return .nullTest (← key.asString?) (← isNull.asBool?)
    | _ => none
  | "pattern_match" => do
    match ← partsOf? ["key", "pattern"] v with
    | [some key, some pattern] => return .patternMatch (← key.asString?) (← pattern.asString?)
    | _ => none
  | "inclusion_test" => do
    match ← partsOf? ["key", "negated", "values"] v with
    | [some key, some negated, some values] =>
      return .inclusionTest (← key.asString?) (← negated.asBool?) (← values.asStrings?)
    | _ => none
  | "sort_directive" => do
    match ← partsOf? ["key", "direction"] v with
    | [some key, some direction] =>
      return .sortDirective (← key.asString?) (← (innerName? direction).bind Direction.ofName?)
    | _ => none
  | _ => none

/-- The criterion that a value writes. -/
def ofJson? (v : Value) : Option Criterion := do
  let (kind, parts) ← kindOf? v
  ofKind? kind parts

/-- A list of criteria. -/
def listToJson (cs : List Criterion) : Value :=
  .arr (cs.map toJson)

/-- The criteria that a list writes. -/
def listOfJson? (v : Value) : Option (List Criterion) := do
  (← v.asItems?).mapM ofJson?

end Criterion

/-! ## Statements -/

namespace Sql

/-- A text, or a list of texts. -/
def Param.toJson : Param → Value
  | .text value => .str value
  | .list values => .strings values

/-- The parameter that a text or a list of texts writes. -/
def Param.ofJson? : Value → Option Param
  | .str s => some (.text s)
  | v => v.asStrings?.map .list

/-- A list of parameters. -/
def Param.listToJson (ps : List Param) : Value :=
  .arr (ps.map Param.toJson)

/-- The parameters that a list writes. -/
def Param.listOfJson? (v : Value) : Option (List Param) := do
  (← v.asItems?).mapM Param.ofJson?

/-- The text and the parameters of a statement. -/
def Statement.toJson (s : Statement) : Value :=
  .obj [("sql", .str s.sql), ("params", Param.listToJson s.params)]

/-- The statement that a value writes. -/
def Statement.ofJson? (v : Value) : Option Statement := do
  match ← partsOf? ["sql", "params"] v with
  | [some sql, some params] => return ⟨← sql.asString?, ← Param.listOfJson? params⟩
  | _ => none

end Sql

end QuerySieve
