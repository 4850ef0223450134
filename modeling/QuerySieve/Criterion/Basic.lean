import QuerySieve.Text.LetterCase

/-!
# Criteria

A criterion is one filter or one sort that a client asks for.

* `Relation`, `Direction`: the six comparisons and the two directions, with their spellings.
* `Operation`: the twelve things a backend can be asked to do, with their names.
* **`Criterion`**, with the field it is about and the operation that carries it out.
-/

namespace QuerySieve

/-- The six comparisons. -/
inductive Relation where
  | eq
  | ne
  | lt
  | gt
  | le
  | ge
  deriving DecidableEq, Repr

namespace Relation

/-- The symbol of a comparison. -/
def symbol : Relation → String
  | eq => "="
  | ne => "!="
  | lt => "<"
  | gt => ">"
  | le => "<="
  | ge => ">="

/-- The comparison of a symbol. -/
def ofSymbol? : String → Option Relation
  | "=" => some eq
  | "!=" => some ne
  | "<" => some lt
  | ">" => some gt
  | "<=" => some le
  | ">=" => some ge
  | _ => none

/-- A comparison's symbol is read back as that comparison. -/
theorem ofSymbol?_symbol (r : Relation) : ofSymbol? r.symbol = some r := by
  cases r <;> rfl

end Relation

/-- The two directions of a sort. -/
inductive Direction where
  | asc
  | desc
  deriving DecidableEq, Repr

namespace Direction

/-- The name of a direction. -/
def name : Direction → String
  | asc => "asc"
  | desc => "desc"

/-- The direction of a name. -/
def ofName? : String → Option Direction
  | "asc" => some asc
  | "desc" => some desc
  | _ => none

/-- The direction of a name in any letter case. -/
def ofText? (s : String) : Option Direction :=
  ofName? (Text.asciiLowered s)

/-- A direction's name is read back as that direction. -/
theorem ofText?_name (d : Direction) : ofText? d.name = some d := by
  cases d <;> decide

end Direction

/-- What a backend can be asked to do. -/
inductive Operation where
  | equals
  | notEquals
  | lessThan
  | greaterThan
  | lessOrEqual
  | greaterOrEqual
  | isNull
  | isNotNull
  | like
  | inList
  | notInList
  | orderBy
  deriving DecidableEq, Repr

namespace Operation

/-- The name of an operation. -/
def name : Operation → String
  | equals => "equals"
  | notEquals => "not_equals"
  | lessThan => "less_than"
  | greaterThan => "greater_than"
  | lessOrEqual => "less_or_equal"
  | greaterOrEqual => "greater_or_equal"
  | isNull => "is_null"
  | isNotNull => "is_not_null"
  | like => "like"
  | inList => "in_list"
  | notInList => "not_in_list"
  | orderBy => "order_by"

/-- The operation of a name. -/
def ofName? : String → Option Operation
  | "equals" => some equals
  | "not_equals" => some notEquals
  | "less_than" => some lessThan
  | "greater_than" => some greaterThan
  | "less_or_equal" => some lessOrEqual
  | "greater_or_equal" => some greaterOrEqual
  | "is_null" => some isNull
  | "is_not_null" => some isNotNull
  | "like" => some like
  | "in_list" => some inList
  | "not_in_list" => some notInList
  | "order_by" => some orderBy
  | _ => none

/-- The operation that carries out a comparison. -/
def ofRelation : Relation → Operation
  | .eq => equals
  | .ne => notEquals
  | .lt => lessThan
  | .gt => greaterThan
  | .le => lessOrEqual
  | .ge => greaterOrEqual

end Operation

/-- One filter or one sort. -/
inductive Criterion where
  /-- The field compares to a value. -/
  | comparison (key : String) (relation : Relation) (value : String)
  /-- The field is null, or is not. -/
  | nullTest (key : String) (isNull : Bool)
  /-- The field matches a pattern in which `%` stands for any text. -/
  | patternMatch (key : String) (pattern : String)
  /-- The field is one of the values, or is none of them. -/
  | inclusionTest (key : String) (negated : Bool) (values : List String)
  /-- The rows are sorted by the field. -/
  | sortDirective (key : String) (direction : Direction)
  deriving DecidableEq, Repr

namespace Criterion

/-- The field that a criterion is about. -/
def key : Criterion → String
  | comparison key _ _ => key
  | nullTest key _ => key
  | patternMatch key _ => key
  | inclusionTest key _ _ => key
  | sortDirective key _ => key

/-- The operation that carries a criterion out. -/
def operation : Criterion → Operation
  | comparison _ r _ => .ofRelation r
  | nullTest _ true => .isNull
  | nullTest _ false => .isNotNull
  | patternMatch _ _ => .like
  | inclusionTest _ false _ => .inList
  | inclusionTest _ true _ => .notInList
  | sortDirective _ _ => .orderBy

/-- Whether a criterion sorts, and filters nothing. -/
def isSort : Criterion → Bool
  | sortDirective _ _ => true
  | _ => false

/-- The filters among the criteria, in order. -/
def filters (cs : List Criterion) : List Criterion :=
  cs.filter (!·.isSort)

/-- The sorts among the criteria, in order. -/
def sorts (cs : List Criterion) : List Criterion :=
  cs.filter isSort

end Criterion

end QuerySieve
