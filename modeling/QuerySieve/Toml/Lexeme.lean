import QuerySieve.Text.Basic

/-!
# The smallest parts of TOML

Blanks, comments, strings and keys. A reader returns what it read and the text after it, or nothing
where the text breaks the rules.

* `skipTrivia`: blanks, line ends and comments.
* `readText`: a string of any of the four forms.
* `readPath`: bare or quoted keys with dots between them.
-/

namespace QuerySieve.Toml

/-- A blank within a line. -/
def isSpace (c : Char) : Bool :=
  c = ' ' || c = '\t'

/-- The text after the blanks at its front. -/
def skipSpace (cs : List Char) : List Char :=
  cs.dropWhile isSpace

/-- A character that may stand in a comment or a literal string. -/
def isPlain (c : Char) : Bool :=
  c = '\t' || (0x20 ≤ c.toNat && c.toNat != 0x7F)

/-- The text after blanks, line ends and comments; the first argument tells whether it begins in a
comment. -/
def skipTrivia : Bool → List Char → Option (List Char)
  | _, [] => some []
  | inComment, c :: cs =>
    if c = '\n' then skipTrivia false cs
    else if c = '\r' then if cs.head? = some '\n' then skipTrivia false cs else none
    else if inComment then if isPlain c then skipTrivia true cs else none
    else if isSpace c then skipTrivia false cs
    else if c = '#' then skipTrivia true cs
    else some (c :: cs)

/-- Whether nothing but a comment is left on the line. -/
def atLineEnd (cs : List Char) : Bool :=
  match skipSpace cs with
  | [] => true
  | c :: _ => c = '\n' || c = '\r' || c = '#'

/-! ## Strings -/

/-- The character of an escape by number, if there is such a character. -/
def escapedChar? (digits : List Char) : Option Char := do
  let n ← Text.hexNumber? digits
  if n < 0xD800 ∨ (0xE000 ≤ n ∧ n < 0x110000) then some (Char.ofNat n) else none

/-- The character of an escape with a letter of its own. -/
def shortEscape? (c : Char) : Option Char :=
  if c = '"' ∨ c = '\\' then some c
  else if c = 'b' then some '\x08'
  else if c = 't' then some '\t'
  else if c = 'n' then some '\n'
  else if c = 'f' then some '\x0c'
  else if c = 'r' then some '\r'
  else if c = 'e' then some '\x1b'
  else none

/-- The character of an escape and the text after it, from after the backslash on. -/
def readEscape : List Char → Option (Char × List Char)
  | 'x' :: a :: b :: rest => (escapedChar? [a, b]).map (·, rest)
  | 'u' :: a :: b :: c :: d :: rest => (escapedChar? [a, b, c, d]).map (·, rest)
  | 'U' :: a :: b :: c :: d :: e :: f :: g :: h :: rest =>
    (escapedChar? [a, b, c, d, e, f, g, h]).map (·, rest)
  | c :: rest => (shortEscape? c).map (·, rest)
  | [] => none

/-- An escape takes up some of the text. -/
theorem length_readEscape {cs rest : List Char} {c : Char} (h : readEscape cs = some (c, rest)) :
    rest.length < cs.length := by
  unfold readEscape at h
  split at h
  all_goals
    simp only [Option.map_eq_some_iff, Prod.mk.injEq, reduceCtorEq] at h
    try obtain ⟨_, _, _, rfl⟩ := h
    try simp only [List.length_cons]
    try omega

/-- A string in double quotes on one line, from after the opening quote on. -/
def readBasic : List Char → Option (List Char × List Char)
  | [] => none
  | c :: cs =>
    if c = '"' then some ([], cs)
    else if c = '\\' then
      match h : readEscape cs with
      | none => none
      | some (c, rest) =>
        have := length_readEscape h
        (readBasic rest).map fun (s, rest) => (c :: s, rest)
    else if isPlain c then (readBasic cs).map fun (s, rest) => (c :: s, rest)
    else none
termination_by cs => cs.length

/-- A string in single quotes on one line, from after the opening quote on. -/
def readLiteral : List Char → Option (List Char × List Char)
  | [] => none
  | c :: cs =>
    if c = '\'' then some ([], cs)
    else if isPlain c then (readLiteral cs).map fun (s, rest) => (c :: s, rest)
    else none

/-- The text after a line end, if it begins with one. -/
def skipNewline : List Char → Option (List Char)
  | '\n' :: rest => some rest
  | '\r' :: '\n' :: rest => some rest
  | _ => none

/-- The text after blanks and line ends. -/
def skipFold : List Char → List Char
  | [] => []
  | c :: cs =>
    if isSpace c || c = '\n' || (c = '\r' && cs.head? = some '\n') then skipFold cs else c :: cs

/-- The text after a fold, from after its backslash on: blanks, a line end, and the blanks and line
ends that follow. -/
def afterFold? (cs : List Char) : Option (List Char) :=
  (skipNewline (skipSpace cs)).map skipFold

/-- Leaving out blanks and line ends does not add to the text. -/
theorem length_skipFold (cs : List Char) : (skipFold cs).length ≤ cs.length := by
  induction cs with
  | nil => simp [skipFold]
  | cons c cs ih => grind [skipFold]

/-- A fold does not add to the text. -/
theorem length_afterFold? {cs rest : List Char} (h : afterFold? cs = some rest) :
    rest.length ≤ cs.length := by
  obtain ⟨mid, hm, rfl⟩ := Option.map_eq_some_iff.1 h
  have h₁ : (skipSpace cs).length ≤ cs.length := (List.dropWhile_sublist _).length_le
  have h₂ : mid.length ≤ (skipSpace cs).length := by
    unfold skipNewline at hm
    split at hm <;> grind
  exact Nat.le_trans (length_skipFold mid) (Nat.le_trans h₂ h₁)

/-- A string over several lines, from after its opening on; `quote` is the quote it is written in,
and only a string in double quotes has escapes. Line ends stay as they are, and up to two quotes may
stand right before the end. -/
def readLines (quote : Char) : List Char → Option (List Char × List Char)
  | [] => none
  | c :: cs =>
    let quotes := (c :: cs).takeWhile (· = quote)
    if 3 ≤ quotes.length then
      if quotes.length ≤ 5 then some (quotes.drop 3, (c :: cs).drop quotes.length) else none
    else if c = '\\' ∧ quote = '"' then
      match hf : afterFold? cs with
      | some rest =>
        have := length_afterFold? hf
        readLines quote rest
      | none =>
        match he : readEscape cs with
        | none => none
        | some (c, rest) =>
          have := length_readEscape he
          (readLines quote rest).map fun (s, rest) => (c :: s, rest)
    else if isPlain c || c = '\n' || (c = '\r' && cs.head? = some '\n') then
      (readLines quote cs).map fun (s, rest) => (c :: s, rest)
    else none
termination_by cs => cs.length
decreasing_by
  all_goals
    simp only [List.length_cons]
    omega

/-- A string over several lines; a line end right after its opening is left out. -/
def readMultiline (quote : Char) (cs : List Char) : Option (List Char × List Char) :=
  readLines quote ((skipNewline cs).getD cs)

/-- A string on one line. -/
def readLineText : List Char → Option (String × List Char)
  | '"' :: rest => (readBasic rest).map fun (s, rest) => (String.ofList s, rest)
  | '\'' :: rest => (readLiteral rest).map fun (s, rest) => (String.ofList s, rest)
  | _ => none

/-- A string of any form. -/
def readText : List Char → Option (String × List Char)
  | '"' :: '"' :: '"' :: rest =>
    (readMultiline '"' rest).map fun (s, rest) => (String.ofList s, rest)
  | '\'' :: '\'' :: '\'' :: rest =>
    (readMultiline '\'' rest).map fun (s, rest) => (String.ofList s, rest)
  | cs => readLineText cs

/-! ## Keys -/

/-- A character of a bare key. -/
def isBare (c : Char) : Bool :=
  c.isAlphanum || c = '_' || c = '-'

/-- A bare or quoted key. -/
def readKey (cs : List Char) : Option (String × List Char) :=
  if cs.head? = some '"' ∨ cs.head? = some '\'' then readLineText cs
  else if (cs.takeWhile isBare).isEmpty then none
  else some (String.ofList (cs.takeWhile isBare), cs.dropWhile isBare)

/-- Keys joined by dots, one at least and `n` at most, and the blanks after them; each is between
blanks at most. -/
def readPath : Nat → List Char → Option (List String × List Char)
  | 0, _ => none
  | n + 1, cs => do
    let (key, rest) ← readKey (skipSpace cs)
    match skipSpace rest with
    | '.' :: rest =>
      let (path, rest) ← readPath n rest
      return (key :: path, rest)
    | rest => return ([key], rest)

/-- How many keys may be joined, and how deep brackets may nest. -/
def maxDepth : Nat := 80

end QuerySieve.Toml
