import Mathlib.Data.List.Infix
import QuerySieve.Proofs.Asking

/-!
# Wildcards and patterns

A client's `*` at an end of a value stands for any text, and all else for itself. The pattern made of
the value has more wildcards, since `%` and `_` are not escaped. It matches the same texts if and only
if the value has neither of them: without them, matching goes character by character, and with them
there is a text that only the pattern matches.

* `like`: the texts that a pattern matches.
* `Wildcards`, `Wildcards.Matches`: a value between its wildcards, and the texts that it matches.
* `Wildcards.turnEnds_eq_fill`: the pattern made of a value.
* `like_append_of_literal`: a pattern that begins with characters that stand for themselves.
* `specimen`: a text that a pattern matches, no longer than the pattern.
* **`Criterion.like_iff_matches_iff`**: when value and pattern match the same texts.
-/

namespace QuerySieve

/-! ## Patterns -/

/-- Whether a pattern matches a text: `%` stands for any run of characters, `_` for any one
character, and any other character for itself. -/
def like : List Char → List Char → Bool
  | [], text => text.isEmpty
  | p :: ps, text =>
    if p = '%' then text.tails.any (like ps)
    else text.head?.any (fun c => p = '_' || p = c) && like ps text.tail

theorem like_nil {text : List Char} : like [] text = true ↔ text = [] := by
  rw [like, List.isEmpty_iff]

theorem like_percent {ps text : List Char} :
    like ('%' :: ps) text = true ↔ ∃ run rest, text = run ++ rest ∧ like ps rest = true := by
  rw [like, if_pos rfl, List.any_eq_true]
  constructor
  · rintro ⟨rest, hs, h⟩
    obtain ⟨run, rfl⟩ := (List.mem_tails rest text).mp hs
    exact ⟨run, rest, rfl, h⟩
  · rintro ⟨run, rest, rfl, h⟩
    exact ⟨rest, (List.mem_tails rest _).mpr (List.suffix_append run rest), h⟩

theorem like_cons {p : Char} (hp : p ≠ '%') {ps text : List Char} :
    like (p :: ps) text = true ↔
      ∃ c cs, text = c :: cs ∧ (p = '_' ∨ p = c) ∧ like ps cs = true := by
  rw [like, if_neg hp]
  cases text with
  | nil => simp
  | cons c cs => simp

theorem like_append_of_literal {body : List Char} (h : '%' ∉ body ∧ '_' ∉ body)
    {ps text : List Char} :
    like (body ++ ps) text = true ↔ ∃ rest, text = body ++ rest ∧ like ps rest = true := by
  induction body generalizing text with
  | nil => simp
  | cons p body ih =>
    simp only [List.mem_cons, not_or] at h
    obtain ⟨⟨hp, hbody⟩, ⟨hu, hbody'⟩⟩ := h
    rw [List.cons_append, like_cons (Ne.symm hp)]
    constructor
    · rintro ⟨c, cs, rfl, hc, hl⟩
      obtain rfl : p = c := hc.resolve_left (Ne.symm hu)
      obtain ⟨rest, rfl, hr⟩ := (ih ⟨hbody, hbody'⟩).mp hl
      exact ⟨rest, rfl, hr⟩
    · rintro ⟨rest, rfl, hr⟩
      exact ⟨p, body ++ rest, rfl, .inr rfl, (ih ⟨hbody, hbody'⟩).mpr ⟨rest, rfl, hr⟩⟩

/-- A text that a pattern matches: nothing for a `%`, and the letter `a` for a `_`. -/
def specimen : List Char → List Char
  | [] => []
  | p :: ps =>
    if p = '%' then specimen ps else if p = '_' then 'a' :: specimen ps else p :: specimen ps

theorem like_append_specimen (body : List Char) {ps rest : List Char} (h : like ps rest = true) :
    like (body ++ ps) (specimen body ++ rest) = true := by
  induction body with
  | nil => exact h
  | cons p body ih =>
    rw [specimen, List.cons_append]
    by_cases hp : p = '%'
    · subst hp
      exact like_percent.mpr ⟨[], specimen body ++ rest, rfl, ih⟩
    · rw [if_neg hp, like_cons hp]
      by_cases hu : p = '_'
      · exact ⟨'a', specimen body ++ rest, by rw [if_pos hu]; rfl, .inl hu, ih⟩
      · exact ⟨p, specimen body ++ rest, by rw [if_neg hu]; rfl, .inr rfl, ih⟩

theorem length_specimen_le (body : List Char) : (specimen body).length ≤ body.length := by
  induction body with
  | nil => exact Nat.le_refl 0
  | cons p body ih =>
    rw [specimen]
    split_ifs <;> simp only [List.length_cons] <;> omega

theorem notMem_specimen (body : List Char) : '%' ∉ specimen body ∧ '_' ∉ specimen body := by
  induction body with
  | nil => simp [specimen]
  | cons p body ih =>
    rw [specimen]
    split_ifs with hp hu
    · exact ih
    · simpa using ih
    · simp [ih, Ne.symm hp, Ne.symm hu]

/-! ## Values -/

/-- A value between the wildcards at its ends, where it has them. A lone `*` counts once. -/
structure Wildcards where
  front : Bool
  body : List Char
  back : Bool
  deriving DecidableEq, Repr

namespace Wildcards

/-- The wildcards of a value and what is between them. -/
def ofValue (value : List Char) : Wildcards :=
  let front : Bool := value.head? = some '*'
  let rest := if front then value.tail else value
  let back : Bool := rest.getLast? = some '*'
  ⟨front, if back then rest.dropLast else rest, back⟩

/-- The texts that a value matches: the wildcards stand for any text, and what is between them for
itself. -/
def Matches (w : Wildcards) (text : List Char) : Prop :=
  ∃ before after, text = before ++ w.body ++ after ∧ (w.front = false → before = []) ∧
    (w.back = false → after = [])

/-- One character, or none. -/
def mark (c : Char) (b : Bool) : List Char :=
  if b then [c] else []

/-- What is between the wildcards, with a character in the place of each. -/
def fill (c : Char) (w : Wildcards) : List Char :=
  mark c w.front ++ w.body ++ mark c w.back

theorem ofValue_singleton (c : Char) :
    ofValue [c] = ⟨c = '*', if c = '*' then [] else [c], false⟩ := by
  by_cases hc : c = '*' <;> simp [ofValue, hc]

theorem ofValue_cons_concat (a b : Char) (m : List Char) :
    ofValue (a :: (m ++ [b])) =
      ⟨a = '*', (if a = '*' then [] else [a]) ++ m ++ (if b = '*' then [] else [b]), b = '*'⟩ := by
  by_cases ha : a = '*'
  · by_cases hb : b = '*' <;> simp [ofValue, ha, hb]
  · have hlast : (a :: (m ++ [b])).getLast? = some b := by
      rw [← List.cons_append, List.getLast?_concat]
    have hdrop : (a :: (m ++ [b])).dropLast = a :: m := by
      rw [← List.cons_append, List.dropLast_concat]
    have hvalue : ofValue (a :: (m ++ [b])) =
        ⟨false, if b = '*' then a :: m else a :: (m ++ [b]), b = '*'⟩ := by
      simp [ofValue, ha, hlast, hdrop]
    rw [hvalue]
    by_cases hb : b = '*' <;> simp [ha, hb]

theorem fill_ofValue (value : List Char) : (ofValue value).fill '*' = value := by
  obtain rfl | ⟨c, rfl⟩ | ⟨a, m, b, rfl⟩ := ends_cases value
  · rfl
  · rw [ofValue_singleton]
    by_cases hc : c = '*' <;> simp [fill, mark, hc]
  · rw [ofValue_cons_concat]
    by_cases ha : a = '*' <;> by_cases hb : b = '*' <;> simp [fill, mark, ha, hb]

/-- The pattern made of a value has `%` for each of its wildcards. -/
theorem turnEnds_eq_fill (value : List Char) :
    turnEnds '*' '%' value = (ofValue value).fill '%' := by
  obtain rfl | ⟨c, rfl⟩ | ⟨a, m, b, rfl⟩ := ends_cases value
  · rfl
  · rw [turnEnds_singleton, ofValue_singleton]
    by_cases hc : c = '*' <;> simp [fill, mark, turn, hc]
  · rw [turnEnds_cons_concat, ofValue_cons_concat]
    by_cases ha : a = '*' <;> by_cases hb : b = '*' <;> simp [fill, mark, turn, ha, hb]

theorem like_mark_append {b : Bool} {ps text : List Char} :
    like (mark '%' b ++ ps) text = true ↔
      ∃ before rest, text = before ++ rest ∧ (b = false → before = []) ∧ like ps rest = true := by
  cases b with
  | true => simp [mark, like_percent]
  | false => simp [mark]

theorem like_mark {b : Bool} {text : List Char} :
    like (mark '%' b) text = true ↔ (b = false → text = []) := by
  cases b with
  | true =>
    have h : like ['%'] text = true := like_percent.mpr ⟨text, [], by simp, like_nil.mpr rfl⟩
    simp [mark, h]
  | false => simp [mark, like_nil]

theorem like_fill_iff {w : Wildcards} (h : '%' ∉ w.body ∧ '_' ∉ w.body) (text : List Char) :
    like (w.fill '%') text = true ↔ w.Matches text := by
  rw [fill, List.append_assoc, like_mark_append]
  simp only [like_append_of_literal h, like_mark]
  constructor
  · rintro ⟨before, rest, rfl, hb, after, rfl, ha⟩
    exact ⟨before, after, by rw [List.append_assoc], hb, ha⟩
  · rintro ⟨before, after, rfl, hb, ha⟩
    exact ⟨before, w.body ++ after, by rw [List.append_assoc], hb, after, rfl, ha⟩

theorem like_fill_specimen (w : Wildcards) : like (w.fill '%') (specimen w.body) = true := by
  have hback : like (mark '%' w.back) [] = true := like_mark.mpr fun _ => rfl
  have hbody := like_append_specimen w.body hback
  rw [List.append_nil] at hbody
  rw [fill, List.append_assoc, like_mark_append]
  exact ⟨[], specimen w.body, rfl, fun _ => rfl, hbody⟩

theorem eq_specimen_of_matches {w : Wildcards} (h : w.Matches (specimen w.body)) :
    specimen w.body = w.body := by
  obtain ⟨before, after, he, -, -⟩ := h
  have hl := congrArg List.length he
  have hle := length_specimen_le w.body
  simp only [List.length_append] at hl
  have hbefore : before = [] := List.length_eq_zero_iff.mp (by omega)
  have hafter : after = [] := List.length_eq_zero_iff.mp (by omega)
  rw [hbefore, hafter, List.nil_append, List.append_nil] at he
  exact he

/-- **Wildcards and their pattern match the same texts** where all between them is literal, and
nowhere else. -/
theorem like_fill_iff_matches_iff (w : Wildcards) :
    (∀ text, like (w.fill '%') text = true ↔ w.Matches text) ↔ '%' ∉ w.body ∧ '_' ∉ w.body := by
  constructor
  · intro h
    have hs := eq_specimen_of_matches ((h _).mp w.like_fill_specimen)
    have hn := notMem_specimen w.body
    rwa [hs] at hn
  · exact like_fill_iff

end Wildcards

/-- The value of a token between its wildcards. -/
def Token.wildcards (t : Token) : Wildcards :=
  .ofValue t.value.toList

namespace Criterion

theorem exists_patternMatch_iff {g : Gate} {t : Token} {key : String} :
    (∃ pattern, ofToken g t = .ok (.patternMatch key pattern)) ↔
      g.authorizes t.key = true ∧ t.key = key ∧ (∃ r : Relation, t.operator = r.symbol) ∧
        HasAtEnd '*' t.value.toList := by
  simp only [ofToken_eq_ok_iff_asksFor]
  constructor
  · rintro ⟨pattern, ha, r, value, rfl, hw, -⟩
    exact ⟨ha, rfl, ⟨r, rfl⟩, hw⟩
  · rintro ⟨ha, rfl, ⟨r, hr⟩, hw⟩
    obtain ⟨key, operator, value⟩ := t
    obtain rfl : operator = r.symbol := hr
    exact ⟨_, ha, r, value, rfl, hw, rfl⟩

theorem toList_pattern {g : Gate} {t : Token} {key pattern : String}
    (h : ofToken g t = .ok (.patternMatch key pattern)) :
    pattern.toList = t.wildcards.fill '%' := by
  obtain ⟨-, r, value, rfl, -, rfl⟩ := asksFor_of_ofToken h
  rw [String.toList_ofList]
  exact Wildcards.turnEnds_eq_fill value.toList

/-- **When a pattern means what the value means.** A token gives a pattern if and only if it
compares a field that may be used with a value that begins or ends with `*`; the two match the same
texts if and only if neither `%` nor `_` stands between. -/
theorem like_iff_matches_iff (g : Gate) (t : Token) (key : String) :
    ((∃ pattern, ofToken g t = .ok (.patternMatch key pattern)) ↔
      g.authorizes t.key = true ∧ t.key = key ∧ (∃ r : Relation, t.operator = r.symbol) ∧
        HasAtEnd '*' t.value.toList) ∧
    t.value.toList = t.wildcards.fill '*' ∧
    ∀ pattern, ofToken g t = .ok (.patternMatch key pattern) →
      pattern.toList = t.wildcards.fill '%' ∧
      ((∀ text : String,
          like pattern.toList text.toList = true ↔ t.wildcards.Matches text.toList) ↔
        '%' ∉ t.wildcards.body ∧ '_' ∉ t.wildcards.body) := by
  refine ⟨exists_patternMatch_iff, (Wildcards.fill_ofValue _).symm, fun pattern h => ?_⟩
  have hp := toList_pattern h
  refine ⟨hp, ?_⟩
  rw [hp, ← Wildcards.like_fill_iff_matches_iff]
  constructor
  · intro hall text
    simpa using hall (String.ofList text)
  · intro hall text
    exact hall text.toList

/-- A `*` inside a value stands for itself, and a `_` for itself in the value alone. -/
theorem like_iff_matches_iff_plainGate :
    ofToken plainGate ⟨"name", "=", "*a*b*"⟩ = .ok (.patternMatch "name" "%a*b%") ∧
      (∀ text : String, like "%a*b%".toList text.toList = true ↔
        (Token.mk "name" "=" "*a*b*").wildcards.Matches text.toList) ∧
      ofToken plainGate ⟨"name", "=", "a_*"⟩ = .ok (.patternMatch "name" "a_%") ∧
      ¬ ∀ text : String, like "a_%".toList text.toList = true ↔
        (Token.mk "name" "=" "a_*").wildcards.Matches text.toList := by
  have h : ofToken plainGate ⟨"name", "=", "*a*b*"⟩ = .ok (.patternMatch "name" "%a*b%") := by
    decide
  have h' : ofToken plainGate ⟨"name", "=", "a_*"⟩ = .ok (.patternMatch "name" "a_%") := by
    decide
  obtain ⟨-, -, hsame⟩ := like_iff_matches_iff plainGate ⟨"name", "=", "*a*b*"⟩ "name"
  obtain ⟨-, -, hother⟩ := like_iff_matches_iff plainGate ⟨"name", "=", "a_*"⟩ "name"
  refine ⟨h, (hsame _ h).2.mpr (by decide), h', fun hall => ?_⟩
  exact absurd ((hother _ h').2.mp hall) (by decide)

end Criterion

end QuerySieve
