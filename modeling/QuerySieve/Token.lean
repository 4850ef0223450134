/-!
# Tokens

A fragment of a query string is a key, an operator and a value, with nothing between them.

* `isOperatorChar`: the characters that operators are made of.
* `pieces`: a fragment cut into single operator characters and the stretches between them.
* **`tokenize`**: the token of a fragment.
-/

namespace QuerySieve

/-- The characters that operators are made of. -/
def operatorChars : List Char := ['!', '=', '<', '>', '~']

/-- Whether operators are made of the character. -/
def isOperatorChar (c : Char) : Bool :=
  operatorChars.contains c

/-- Whether a piece begins with an operator character. -/
def isOperatorPiece (p : List Char) : Bool :=
  p.head?.any isOperatorChar

/-- Put a character that is no operator in front of the pieces of the text after it. -/
def consPiece (c : Char) : List (List Char) → List (List Char)
  | [] => [[c]]
  | p :: ps => if isOperatorPiece p then [c] :: p :: ps else (c :: p) :: ps

/-- The text cut into its operator characters and the stretches between them; none is empty. -/
def pieces : List Char → List (List Char)
  | [] => []
  | c :: cs => if isOperatorChar c then [c] :: pieces cs else consPiece c (pieces cs)

/-- A character in front of pieces is in front of their text. -/
theorem flatten_consPiece (c : Char) (ps : List (List Char)) :
    (consPiece c ps).flatten = c :: ps.flatten := by
  cases ps with
  | nil => rfl
  | cons p ps => simp only [consPiece]; split <;> simp

/-- The pieces are the text. -/
theorem flatten_pieces (cs : List Char) : (pieces cs).flatten = cs := by
  induction cs with
  | nil => rfl
  | cons c cs ih =>
    simp only [pieces]
    split
    · simp [ih]
    · rw [flatten_consPiece, ih]

/-- A key, an operator and a value as a fragment spells them. -/
structure Token where
  key : String
  operator : String
  value : String
  deriving DecidableEq, Repr

/-- The token of a list of pieces: key, operator and value, or, where there are more than three, an
operator of two pieces. Anything after the value is left out. -/
def Token.ofPieces? : List (List Char) → Option Token
  | [k, o, v] => some ⟨String.ofList k, String.ofList o, String.ofList v⟩
  | k :: o₁ :: o₂ :: v :: _ => some ⟨String.ofList k, String.ofList (o₁ ++ o₂), String.ofList v⟩
  | _ => none

/-- The token of a fragment. -/
def tokenize (fragment : String) : Option Token :=
  Token.ofPieces? (pieces fragment.toList)

end QuerySieve
