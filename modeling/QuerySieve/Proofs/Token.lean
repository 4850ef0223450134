import Mathlib.Data.List.Basic
import Mathlib.Tactic.Common
import QuerySieve.Sieve

/-!
# Tokens from their texts

A token is written as its key, its operator and its value with nothing between them. If key and
value are plain, the token is read back from that.

* `Plain`: texts without operator characters and without the separator of fragments.
* `pieces_stretch`, `pieces_operators`: the pieces of a text that begins with a stretch without
  operator characters, or with operator characters.
* `Token.text`, `Token.Legible`, **`Token.tokenize_text`**: writing a token, and reading it back.
* **`fragments_intercalate`**: the fragments of texts that are joined.
-/

namespace QuerySieve

/-! ## Plain texts -/

/-- A text that neither holds an operator character nor ends a fragment. -/
def Plain (text : String) : Prop :=
  ∀ c ∈ text.toList, isOperatorChar c = false ∧ c ≠ '&'

-- By the characters of the text; the search for an instance may go through all characters instead.
instance (text : String) : Decidable (Plain text) :=
  List.decidableBAll _ text.toList

theorem Plain.append {s t : String} (hs : Plain s) (ht : Plain t) : Plain (s ++ t) := by
  intro c hc
  rw [String.toList_append, List.mem_append] at hc
  exact hc.elim (hs c) (ht c)

theorem plain_intercalate {sep : String} {texts : List String} (hsep : Plain sep)
    (h : ∀ t ∈ texts, Plain t) : Plain (sep.intercalate texts) := by
  intro c hc
  rw [String.toList_intercalate] at hc
  induction texts with
  | nil => simp at hc
  | cons t texts ih =>
    cases texts with
    | nil => exact h t List.mem_cons_self c (by simpa using hc)
    | cons u texts =>
      rw [List.map_cons, List.map_cons, List.intercalate_cons_cons, List.mem_append,
        List.mem_append] at hc
      obtain (hc | hc) | hc := hc
      · exact h t List.mem_cons_self c hc
      · exact hsep c hc
      · exact ih (fun v hv => h v (List.mem_cons_of_mem _ hv)) hc

/-! ## Pieces -/

/-- A text that begins with an operator character, if with anything. -/
def AtOperator (cs : List Char) : Prop :=
  ∀ c ∈ cs.head?, isOperatorChar c = true

instance (cs : List Char) : Decidable (AtOperator cs) :=
  decidable_of_iff (cs.head?.all isOperatorChar = true) (by cases cs <;> simp [AtOperator])

theorem atOperator_nil : AtOperator [] := by
  intro c hc
  cases hc

theorem atOperator_cons {c : Char} (h : isOperatorChar c = true) (cs : List Char) :
    AtOperator (c :: cs) := by
  intro d hd
  obtain rfl : c = d := by simpa using hd
  exact h

theorem consPiece_pieces {cs : List Char} (h : AtOperator cs) (c : Char) :
    consPiece c (pieces cs) = [c] :: pieces cs := by
  cases cs with
  | nil => rfl
  | cons d cs =>
    have hd : isOperatorChar d = true := h d rfl
    simp [pieces, consPiece, isOperatorPiece, hd]

theorem pieces_stretch {cs : List Char} (hne : cs ≠ []) (hcs : ∀ c ∈ cs, isOperatorChar c = false)
    {rest : List Char} (hr : AtOperator rest) : pieces (cs ++ rest) = cs :: pieces rest := by
  induction cs with
  | nil => exact absurd rfl hne
  | cons c cs ih =>
    have hc : isOperatorChar c = false := hcs c List.mem_cons_self
    have hp : pieces (c :: cs ++ rest) = consPiece c (pieces (cs ++ rest)) := by
      simp [pieces, hc]
    rw [hp]
    cases cs with
    | nil => exact consPiece_pieces hr c
    | cons d cs =>
      -- The piece that follows begins with `d` and takes `c` in.
      have hd : isOperatorChar d = false := hcs d (by simp)
      rw [ih (List.cons_ne_nil _ _) fun x hx => hcs x (List.mem_cons_of_mem _ hx)]
      simp [consPiece, isOperatorPiece, hd]

theorem pieces_stretch_self {cs : List Char} (hne : cs ≠ [])
    (hcs : ∀ c ∈ cs, isOperatorChar c = false) : pieces cs = [cs] := by
  have h := pieces_stretch hne hcs atOperator_nil
  rwa [List.append_nil] at h

theorem pieces_operators {os : List Char} (h : ∀ c ∈ os, isOperatorChar c = true)
    (rest : List Char) : pieces (os ++ rest) = os.map (fun c => [c]) ++ pieces rest := by
  induction os with
  | nil => rfl
  | cons o os ih =>
    have ho : isOperatorChar o = true := h o List.mem_cons_self
    rw [List.cons_append, pieces, if_pos ho, ih fun c hc => h c (List.mem_cons_of_mem _ hc)]
    rfl

/-! ## Tokens -/

namespace FragmentOperator

theorem isOperatorChar_of_mem_symbol (o : FragmentOperator) :
    ∀ c ∈ o.symbol.toList, isOperatorChar c = true ∧ c ≠ '&' := by
  have h : o.symbol.toList.all (fun c => isOperatorChar c && c != '&') = true := by
    rcases o with r | negated
    · cases r <;> decide
    · cases negated <;> decide
  intro c hc
  simpa using List.all_eq_true.mp h c hc

theorem length_symbol (o : FragmentOperator) :
    o.symbol.toList.length = 1 ∨ o.symbol.toList.length = 2 := by
  rcases o with r | negated
  · cases r <;> decide
  · cases negated <;> decide

theorem atOperator_symbol_append (o : FragmentOperator) (cs : List Char) :
    AtOperator (o.symbol.toList ++ cs) := by
  cases hs : o.symbol.toList with
  | nil =>
    have := o.length_symbol
    simp [hs] at this
  | cons c symbol =>
    have hc := o.isOperatorChar_of_mem_symbol c (by simp [hs])
    exact atOperator_cons hc.1 _

end FragmentOperator

namespace Token

/-- A token as a fragment writes it. -/
def text (t : Token) : String :=
  t.key ++ t.operator ++ t.value

/-- A token whose text can be told apart again. -/
structure Legible (t : Token) : Prop where
  operator : ∃ o : FragmentOperator, t.operator = o.symbol
  key_ne : t.key ≠ ""
  value_ne : t.value ≠ ""
  key : Plain t.key
  value : Plain t.value

theorem ofPieces?_cons {k v os : List Char} (h : os.length = 1 ∨ os.length = 2) :
    ofPieces? (k :: (os.map (fun c => [c]) ++ [v])) =
      some ⟨String.ofList k, String.ofList os, String.ofList v⟩ := by
  obtain h | h := h
  · obtain ⟨a, rfl⟩ := List.length_eq_one_iff.mp h
    rfl
  · obtain ⟨a, b, rfl⟩ := List.length_eq_two.mp h
    rfl

theorem pieces_text {t : Token} (h : t.Legible) :
    pieces t.text.toList =
      t.key.toList :: (t.operator.toList.map (fun c => [c]) ++ [t.value.toList]) := by
  obtain ⟨o, ho⟩ := h.operator
  have hop := o.isOperatorChar_of_mem_symbol
  rw [← ho] at hop
  have hk : t.key.toList ≠ [] := by simpa using h.key_ne
  have hv : t.value.toList ≠ [] := by simpa using h.value_ne
  have hr : AtOperator (t.operator.toList ++ t.value.toList) := ho ▸ o.atOperator_symbol_append _
  have hvalue := pieces_stretch_self hv fun c hc => (h.value c hc).1
  rw [text, String.toList_append, String.toList_append, List.append_assoc,
    pieces_stretch hk (fun c hc => (h.key c hc).1) hr,
    pieces_operators (fun c hc => (hop c hc).1), hvalue]

/-- **A legible token is read back from its text.** -/
theorem tokenize_text {t : Token} (h : t.Legible) : tokenize t.text = some t := by
  obtain ⟨o, ho⟩ := h.operator
  have hlen := o.length_symbol
  rw [← ho] at hlen
  rw [tokenize, pieces_text h, ofPieces?_cons hlen]
  simp

theorem separator_notMem_text {t : Token} (h : t.Legible) : '&' ∉ t.text.toList := by
  obtain ⟨o, ho⟩ := h.operator
  have hop := o.isOperatorChar_of_mem_symbol
  rw [← ho] at hop
  intro hc
  rw [text, String.toList_append, String.toList_append, List.mem_append, List.mem_append] at hc
  obtain (hc | hc) | hc := hc
  · exact (h.key _ hc).2 rfl
  · exact (hop _ hc).2 rfl
  · exact (h.value _ hc).2 rfl

end Token

/-! ## Joined texts -/

/-- Joined texts are told apart again where none holds the separator. -/
theorem Text.splitOn_intercalate {sep : String} {c : Char} (hsep : sep.toList = [c])
    {texts : List String} (hne : texts ≠ []) (h : ∀ t ∈ texts, c ∉ t.toList) :
    Text.splitOn c (sep.intercalate texts) = texts := by
  have hs : ([c].intercalate (texts.map String.toList)).splitOn c = texts.map String.toList :=
    List.splitOn_intercalate c (by simpa using h) (by simpa using hne)
  rw [splitOn, String.toList_intercalate, hsep, hs, List.map_map]
  simp [Function.comp_def]

theorem fragments_intercalate {texts : List String} (hne : texts ≠ [])
    (h : ∀ t ∈ texts, '&' ∉ t.toList) : fragments ("&".intercalate texts) = texts :=
  Text.splitOn_intercalate rfl hne h

end QuerySieve
