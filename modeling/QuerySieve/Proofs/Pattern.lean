import Mathlib.Data.List.Basic
import Mathlib.Tactic.Common
import QuerySieve.Criterion.OfToken

/-!
# Patterns from the values that ask for them

A `*` at an end of a value is a `%` of the pattern. The value that asks for a pattern has it the
other way round, and the pattern is read back unless a `*` of its own stands at an end.

* `turnEnds`: a text with one character for another at its ends.
* `HasAtEnd`, `likePattern?_eq`: the values that ask for a pattern, and for which.
* `wildValue`, **`likePattern?_wildValue`**: the value that asks for a pattern, and the pattern
  read back.
-/

namespace QuerySieve

/-- One character for another. -/
def turn (x y c : Char) : Char :=
  if c = x then y else c

/-- One character for another at both ends of a text. -/
def turnEnds (x y : Char) (cs : List Char) : List Char :=
  ((cs.modifyHead (turn x y)).reverse.modifyHead (turn x y)).reverse

/-- A text that begins or ends with a character. -/
def HasAtEnd (c : Char) (cs : List Char) : Prop :=
  cs.head? = some c ∨ cs.getLast? = some c

instance (c : Char) (cs : List Char) : Decidable (HasAtEnd c cs) :=
  inferInstanceAs (Decidable (_ ∨ _))

theorem not_hasAtEnd_of_notMem {c : Char} {cs : List Char} (h : c ∉ cs) : ¬ HasAtEnd c cs := by
  rintro (he | he)
  · exact h (List.mem_of_head? he)
  · exact h (List.mem_of_getLast? he)

theorem turn_turn {x y c : Char} (h : c ≠ y) : turn y x (turn x y c) = c := by
  unfold turn
  split_ifs with hx hy
  · exact hx.symm
  · exact absurd rfl hy
  · rfl

theorem turn_turn_self (x y c : Char) : turn x y (turn x y c) = turn x y c := by
  unfold turn
  split_ifs <;> rfl

theorem turn_self (x y : Char) : turn x y x = y :=
  if_pos rfl

theorem turnEnds_singleton (x y c : Char) : turnEnds x y [c] = [turn x y c] := by
  simp [turnEnds, turn_turn_self]

theorem turnEnds_cons_concat (x y a b : Char) (cs : List Char) :
    turnEnds x y (a :: (cs ++ [b])) = turn x y a :: (cs ++ [turn x y b]) := by
  simp [turnEnds]

theorem ends_cases (cs : List Char) :
    cs = [] ∨ (∃ c, cs = [c]) ∨ ∃ a m b, cs = a :: (m ++ [b]) := by
  cases cs with
  | nil => exact .inl rfl
  | cons a cs =>
    obtain rfl | ⟨m, b, rfl⟩ := List.eq_nil_or_concat cs
    · exact .inr (.inl ⟨a, rfl⟩)
    · exact .inr (.inr ⟨a, m, b, by rw [List.concat_eq_append]⟩)

theorem hasAtEnd_cons_concat {x a b : Char} {cs : List Char} :
    HasAtEnd x (a :: (cs ++ [b])) ↔ a = x ∨ b = x := by
  rw [HasAtEnd, ← List.cons_append, List.getLast?_concat]
  simp

theorem turnEnds_turnEnds {x y : Char} {cs : List Char} (h : ¬ HasAtEnd y cs) :
    turnEnds y x (turnEnds x y cs) = cs := by
  obtain rfl | ⟨c, rfl⟩ | ⟨a, m, b, rfl⟩ := ends_cases cs
  · rfl
  · have hc : c ≠ y := by simpa [HasAtEnd] using h
    rw [turnEnds_singleton, turnEnds_singleton, turn_turn hc]
  · rw [hasAtEnd_cons_concat, not_or] at h
    rw [turnEnds_cons_concat, turnEnds_cons_concat, turn_turn h.1, turn_turn h.2]

theorem hasAtEnd_turnEnds {x y : Char} {cs : List Char} (h : HasAtEnd x cs) :
    HasAtEnd y (turnEnds x y cs) := by
  obtain rfl | ⟨c, rfl⟩ | ⟨a, m, b, rfl⟩ := ends_cases cs
  · simp [HasAtEnd] at h
  · obtain rfl : c = x := by simpa [HasAtEnd] using h
    rw [turnEnds_singleton, turn_self]
    exact .inl rfl
  · rw [hasAtEnd_cons_concat] at h
    rw [turnEnds_cons_concat, hasAtEnd_cons_concat]
    obtain rfl | rfl := h
    · exact .inl (turn_self a y)
    · exact .inr (turn_self b y)

theorem mem_turnEnds {x y c : Char} {cs : List Char} (h : c ∈ turnEnds x y cs) :
    c = y ∨ c ∈ cs := by
  have hturn : ∀ d, turn x y d = y ∨ turn x y d = d := fun d => by
    unfold turn
    split_ifs
    · exact .inl rfl
    · exact .inr rfl
  obtain rfl | ⟨d, rfl⟩ | ⟨a, m, b, rfl⟩ := ends_cases cs
  · exact .inr h
  · rw [turnEnds_singleton, List.mem_singleton] at h
    have := hturn d
    grind
  · rw [turnEnds_cons_concat] at h
    have := hturn a
    have := hturn b
    grind

theorem openFront_eq (cs : List Char) : openFront cs = cs.modifyHead (turn '*' '%') := by
  cases cs with
  | nil => rfl
  | cons c cs =>
    by_cases hc : c = '*'
    · subst hc
      rfl
    · simp [openFront, turn, hc]

theorem likePattern?_eq (value : String) :
    likePattern? value =
      if HasAtEnd '*' value.toList then some (String.ofList (turnEnds '*' '%' value.toList))
      else none := by
  simp only [likePattern?, openBack, openFront_eq]
  rfl

theorem likePattern?_eq_none {value : String} (h : ¬ HasAtEnd '*' value.toList) :
    likePattern? value = none := by
  rw [likePattern?_eq, if_neg h]

/-- The value that asks for a pattern: `*` for a `%` at an end. -/
def wildValue (pattern : String) : String :=
  String.ofList (turnEnds '%' '*' pattern.toList)

/-- **A pattern is read back** from the value that asks for it. -/
theorem likePattern?_wildValue {pattern : String} (hp : HasAtEnd '%' pattern.toList)
    (hs : ¬ HasAtEnd '*' pattern.toList) : likePattern? (wildValue pattern) = some pattern := by
  rw [likePattern?_eq, wildValue, String.toList_ofList, if_pos (hasAtEnd_turnEnds hp),
    turnEnds_turnEnds hs, String.ofList_toList]

end QuerySieve
