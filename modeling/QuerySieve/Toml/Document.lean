import QuerySieve.Toml.Lexeme
import QuerySieve.Toml.Scalar
import QuerySieve.Toml.Table

/-!
# TOML documents

Tables by header, by dotted keys and inline, with strings, words and lists as values. A table of a
list by header has no place in a policy, and is refused.

* `readValue`: a value.
* **`read?`**: the value of a whole document.
-/

namespace QuerySieve.Toml

open Json (Value)

mutual

/-- A value. The first argument bounds the depth of the calls, the second one tells how many
brackets may still open. -/
def readValue : Nat → Nat → List Char → Option (Value × List Char)
  | 0, _, _ => none
  | fuel + 1, depth, cs =>
    match cs, depth with
    | '[' :: _, 0 => none
    | '[' :: rest, depth + 1 =>
      (readItems fuel depth rest).map fun (vs, rest) => (.arr vs, rest)
    | '\x7b' :: _, 0 => none
    | '\x7b' :: rest, depth + 1 =>
      (readPairs fuel depth [] rest).map fun (es, rest) => (.obj (membersOf es), rest)
    | '"' :: _, _ => (readText cs).map fun (s, rest) => (.str s, rest)
    | '\'' :: _, _ => (readText cs).map fun (s, rest) => (.str s, rest)
    | _, _ =>
      let (word, rest) := readWord cs
      (scalar? word).map (·, rest)

/-- The items of a list, through its closing bracket. -/
def readItems : Nat → Nat → List Char → Option (List Value × List Char)
  | 0, _, _ => none
  | fuel + 1, depth, cs => do
    match ← skipTrivia false cs with
    | ']' :: rest => return ([], rest)
    | cs =>
      let (v, rest) ← readValue fuel depth cs
      match ← skipTrivia false rest with
      | ',' :: rest =>
        let (vs, rest) ← readItems fuel depth rest
        return (v :: vs, rest)
      | ']' :: rest => return ([v], rest)
      | _ => none

/-- The pairs of an inline table, added to those before them, through its closing brace. Lines may
end anywhere but within a path of keys. -/
def readPairs : Nat → Nat → Entries → List Char → Option (Entries × List Char)
  | 0, _, _, _ => none
  | fuel + 1, depth, es, cs => do
    match ← skipTrivia false cs with
    | '\x7d' :: rest => return (es, rest)
    | cs =>
      let (path, rest) ← readPath maxDepth cs
      match ← skipTrivia false rest with
      | '=' :: rest =>
        let (v, rest) ← readValue fuel depth (← skipTrivia false rest)
        let es ← putPair es path.dropLast (path.getLastD "") v
        match ← skipTrivia false rest with
        | ',' :: rest => readPairs fuel depth es rest
        | '\x7d' :: rest => return (es, rest)
        | _ => none
      | _ => none

end

/-- A path of keys, an equals sign and a value, from one line of a document on. -/
def readPair (cs : List Char) : Option (List String × Value × List Char) := do
  let (path, rest) ← readPath maxDepth cs
  match rest with
  | '=' :: rest =>
    let (v, rest) ← readValue (2 * rest.length + 2) maxDepth (skipSpace rest)
    return (path, v, rest)
  | _ => none

/-- The path of a header, from after its opening bracket on. -/
def readHeader (cs : List Char) : Option (List String × List Char) := do
  let (path, rest) ← readPath maxDepth cs
  match rest with
  | ']' :: rest => return (path, rest)
  | _ => none

/-- The entries of the lines of a document, added to those before them; `header` names the table
that the lines belong to. -/
def readDocument : Nat → Entries → List String → List Char → Option Entries
  | 0, _, _, _ => none
  | fuel + 1, es, header, cs => do
    match ← skipTrivia false cs with
    | [] => return es
    | '[' :: rest =>
      let (path, rest) ← readHeader rest
      let es ← openTable es path
      if atLineEnd rest then readDocument fuel es path rest else none
    | cs =>
      let (path, v, rest) ← readPair cs
      let es ← putUnder es header path.dropLast (path.getLastD "") v
      if atLineEnd rest then readDocument fuel es header rest else none

/-- The text after a byte order mark, if it begins with one. -/
def skipMark : List Char → List Char
  | '\uFEFF' :: cs => cs
  | cs => cs

/-- The value of a document. -/
def read? (text : String) : Option Value := do
  let cs := skipMark text.toList
  return .obj (membersOf (← readDocument (cs.length + 1) [] [] cs))

end QuerySieve.Toml
