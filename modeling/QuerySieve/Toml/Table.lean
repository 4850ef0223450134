import QuerySieve.Json.Value

/-!
# TOML tables

A document builds its tables line by line, and no line may change what another one has defined.

* `Node`: a value, or a table with the way it came about.
* `putPair`: a key and its value, under the keys in front of it.
* `openTable`: a table named by a header.
* `Node.toValue`: the finished value.
-/

namespace QuerySieve.Toml

open Json (Value)

/-- How a table came about: by a header under it, by a dotted key, or by its own header. -/
inductive Origin where
  | implied
  | dotted
  | defined
  deriving DecidableEq, Repr

/-- A value, or a table that can still grow. -/
inductive Node where
  | leaf (v : Value)
  | table (origin : Origin) (entries : List (String × Node))

/-- The entries of a table, in the order they were written. -/
abbrev Entries := List (String × Node)

/-- The entry of a key. -/
def Entries.get? (es : Entries) (key : String) : Option Node :=
  (es.find? (·.1 = key)).map (·.2)

/-- Replace the entry of a key, or add it at the end. -/
def Entries.set (es : Entries) (key : String) (n : Node) : Entries :=
  if es.any (·.1 = key) then es.map fun e => if e.1 = key then (key, n) else e
  else es ++ [(key, n)]

/-- Add a pair under a path of keys. The tables of the path are new or came about the same way, and
the last key is new. -/
def putPair (es : Entries) (path : List String) (key : String) (v : Value) : Option Entries :=
  match path with
  | [] => if (es.get? key).isSome then none else some (es ++ [(key, .leaf v)])
  | k :: ks =>
    match es.get? k with
    | none => (putPair [] ks key v).map fun inner => es ++ [(k, .table .dotted inner)]
    | some (.table .dotted inner) =>
      (putPair inner ks key v).map fun inner => es.set k (.table .dotted inner)
    | some _ => none

/-- Add a pair to the table of a header. -/
def putUnder (es : Entries) (header path : List String) (key : String) (v : Value) :
    Option Entries :=
  match header with
  | [] => putPair es path key v
  | k :: ks =>
    match es.get? k with
    | some (.table origin inner) =>
      (putUnder inner ks path key v).map fun inner => es.set k (.table origin inner)
    | _ => none

/-- Define the table of a header; it has had no definition yet. -/
def openTable (es : Entries) : List String → Option Entries
  | [] => none
  | [k] =>
    match es.get? k with
    | none => some (es ++ [(k, .table .defined [])])
    | some (.table .implied inner) => some (es.set k (.table .defined inner))
    | some _ => none
  | k :: ks =>
    match es.get? k with
    | none => (openTable [] ks).map fun inner => es ++ [(k, .table .implied inner)]
    | some (.table origin inner) =>
      (openTable inner ks).map fun inner => es.set k (.table origin inner)
    | some (.leaf _) => none

mutual

/-- The value of a node. -/
def Node.toValue : Node → Value
  | .leaf v => v
  | .table _ entries => .obj (membersOf entries)

/-- The members of a table. -/
def membersOf : List (String × Node) → List (String × Value)
  | [] => []
  | e :: es => (e.1, e.2.toValue) :: membersOf es

end

end QuerySieve.Toml
