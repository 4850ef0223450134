import QuerySieve.Criterion.Basic
import QuerySieve.FieldName
import QuerySieve.Text.Basic
import QuerySieve.Token

/-!
# From tokens to criteria

* `Gate`: what a token is judged by.
* `Refusal`: why a fragment gives no criterion.
* `likePattern?`: the pattern of a value with a wildcard at an end.
* **`Criterion.ofToken`**: the criterion of a token whose key is a field name already.
-/

namespace QuerySieve

/-- What a token is judged by. -/
structure Gate where
  /-- The field that a client's spelling means. -/
  normalize : Normalizer
  /-- Whether a field may be used. -/
  authorizes : String → Bool
  /-- The most values of a list, if there is a bound. -/
  maxListValues : Option Nat := none

/-- Whether a list of some length is within the bound. -/
def Gate.admitsLength (g : Gate) (n : Nat) : Bool :=
  g.maxListValues.all (n ≤ ·)

/-- Why a fragment gives no criterion. -/
inductive Refusal where
  | malformed
  | unauthorized
  | unsupportedOperator
  | invalidDirection
  | listTooLong
  deriving DecidableEq, Repr

/-- The wording of a refusal. -/
def Refusal.reason : Refusal → String
  | malformed => "malformed"
  | unauthorized => "unauthorized"
  | unsupportedOperator => "unsupported operator"
  | invalidDirection => "invalid sort direction"
  | listTooLong => "list too long"

/-- The eight operators of fragments: a comparison, or membership in a list. -/
inductive FragmentOperator where
  | compare (relation : Relation)
  | member (negated : Bool)
  deriving DecidableEq, Repr

namespace FragmentOperator

/-- The symbol of an operator. -/
def symbol : FragmentOperator → String
  | compare r => r.symbol
  | member false => "~"
  | member true => "!~"

/-- The operator of a symbol. -/
def ofSymbol? (s : String) : Option FragmentOperator :=
  match Relation.ofSymbol? s with
  | some r => some (compare r)
  | none => if s = "~" then some (member false) else if s = "!~" then some (member true) else none

/-- An operator's symbol is read back as that operator. -/
theorem ofSymbol?_symbol (o : FragmentOperator) : ofSymbol? o.symbol = some o := by
  rcases o with r | b
  · simp [ofSymbol?, symbol, Relation.ofSymbol?_symbol]
  · cases b <;> rfl

end FragmentOperator

/-- The value that asks for a null test. -/
def nullWord : String := "null"

/-- The key of a fragment that asks for a sort. -/
def sortKey : String := "order_by"

/-- A leading `*` turned into `%`. -/
def openFront : List Char → List Char
  | '*' :: cs => '%' :: cs
  | cs => cs

/-- A trailing `*` turned into `%`. -/
def openBack (cs : List Char) : List Char :=
  (openFront cs.reverse).reverse

/-- The pattern of a value that begins or ends with the wildcard `*`. -/
def likePattern? (value : String) : Option String :=
  let cs := value.toList
  if cs.head? = some '*' ∨ cs.getLast? = some '*' then
    some (String.ofList (openBack (openFront cs)))
  else none

namespace Criterion

/-- The sort that a value asks for: a field, and a direction if there are exactly two parts. -/
def ofSortValue (g : Gate) (value : String) : Except Refusal Criterion :=
  let parts := Text.splitOn ',' value
  let field := g.normalize (parts.headD "")
  if !g.authorizes field then .error .unauthorized else
  match parts with
  | [_, direction] =>
    match Direction.ofText? direction with
    | some d => .ok (.sortDirective field d)
    | none => .error .invalidDirection
  | _ => .ok (.sortDirective field .asc)

/-- The criterion of a comparison with a field that may be used. Whatever the comparison, the value
`null` asks for a null test and a wildcard at an end for a pattern; a value with a wildcard inside
is compared as it is. -/
def ofComparison (g : Gate) (key : String) (r : Relation) (value : String) :
    Except Refusal Criterion :=
  if value = nullWord then .ok (.nullTest key (r = .eq)) else
  match likePattern? value with
  | some pattern => .ok (.patternMatch key pattern)
  | none =>
    if key = sortKey ∧ '*' ∉ value.toList then ofSortValue g value
    else .ok (.comparison key r value)

/-- The criterion of a list and a field that may be used. -/
def ofMembership (g : Gate) (key : String) (negated : Bool) (value : String) :
    Except Refusal Criterion :=
  let values := Text.splitOn ',' value
  if g.admitsLength values.length then .ok (.inclusionTest key negated values)
  else .error .listTooLong

/-- The criterion of a token whose key is a field name. -/
def ofToken (g : Gate) (t : Token) : Except Refusal Criterion :=
  match FragmentOperator.ofSymbol? t.operator with
  | none => .error .unsupportedOperator
  | some o =>
    if !g.authorizes t.key then .error .unauthorized else
    match o with
    | .compare r => ofComparison g t.key r t.value
    | .member negated => ofMembership g t.key negated t.value

end Criterion

end QuerySieve
