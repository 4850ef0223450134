import Mathlib.Tactic.Common
import QuerySieve.FieldName

/-!
# The characters of names in snake case

* `IsInner`, `snakeFrom_cons_cases`: what becomes of one character.
* `mem_snakeFrom`: where the characters of a name in snake case come from.
* `isUpper_of_ascii`: the capitals within ASCII.
* `isUpper_eq_false_of_mem_lowered`: no lower case has a capital letter of ASCII.
* **`isUpper_eq_false_of_mem_snakeCase`**: neither has a name in snake case.

Core's `Char.isUpper` is about the letters `A` to `Z`, and `Text.isUpper` about all of Unicode.
-/

namespace QuerySieve

namespace Text

theorem isUpper_ofNat {n : Nat} (h : 0x5B ≤ n) : (Char.ofNat n).isUpper = false := by
  by_cases hv : n.isValidChar
  · rw [Char.ofNat, dif_pos hv]
    refine decide_eq_false fun hu => ?_
    have hz : n ≤ 0x5A := UInt32.le_iff_toNat_le.mp hu.2
    omega
  · rw [Char.ofNat, dif_neg hv]
    rfl

theorem isUpper_eq_false {c : Char} (h : isUpper c = false) : c.isUpper = false := by
  refine decide_eq_false fun hu => ?_
  have h₁ : 0x41 ≤ c.toNat := UInt32.le_iff_toNat_le.mp hu.1
  have h₂ : c.toNat ≤ 0x5A := UInt32.le_iff_toNat_le.mp hu.2
  have hr : (⟨⟨0x0041, 0x005A, 1⟩, 0x0061⟩ : CapitalRun) ∈ capitalRuns := List.mem_cons_self
  have hc : (capitalRun? c).isSome = true :=
    List.find?_isSome.mpr ⟨_, hr, by simp [CaseRun.holds, h₁, h₂, Nat.mod_one]⟩
  rw [isUpper, hc] at h
  cases h

theorem isUpper_of_ascii {c : Char} (h : c.toNat < 0x80) : isUpper c = c.isUpper := by
  have hruns : ∀ r ∈ capitalRuns, r.first = 0x41 ∧ r.last = 0x5A ∨ 0x80 ≤ r.first := by
    decide +kernel
  cases hc : c.isUpper with
  | true =>
    by_contra hn
    rw [isUpper_eq_false (Bool.eq_false_iff.mpr hn)] at hc
    cases hc
  | false =>
    refine Option.isSome_eq_false_iff.mpr (Option.isNone_iff_eq_none.mpr ?_)
    refine List.find?_eq_none.mpr fun r hr hh => of_decide_eq_false hc ?_
    simp only [CaseRun.holds, Bool.and_eq_true, decide_eq_true_eq] at hh
    have := hruns r hr
    exact ⟨UInt32.le_iff_toNat_le.mpr (show 0x41 ≤ c.toNat by omega),
      UInt32.le_iff_toNat_le.mpr (show c.toNat ≤ 0x5A by omega)⟩

-- Besides `A` to `Z`, only the Kelvin sign and the dotted `I` have a lower case with ASCII in it.
theorem isUpper_eq_false_of_mem_lowered {c x : Char} (h : x ∈ lowered c) : x.isUpper = false := by
  have hsmall : ∀ r ∈ capitalRuns, 0x5B ≤ r.small := by decide +kernel
  unfold lowered at h
  split_ifs at h with hi
  · obtain rfl | rfl : x = 'i' ∨ x = '\u0307' := by simpa using h
    all_goals rfl
  · split at h
    · next r hr =>
      rw [List.mem_singleton] at h
      subst h
      have := hsmall r (List.mem_of_find?_eq_some hr)
      exact isUpper_ofNat (by omega)
    · next hr =>
      rw [List.mem_singleton] at h
      subst h
      exact isUpper_eq_false (by rw [isUpper, hr]; rfl)

theorem asciiLowered_eq_self {s : String} (h : ∀ c ∈ s.toList, c.isUpper = false) :
    asciiLowered s = s := by
  have hc : ∀ c ∈ s.toList, asciiLower c = c := fun c hc => if_neg (of_decide_eq_false (h c hc))
  rw [asciiLowered, List.map_congr_left hc, List.map_id', String.ofList_toList]

end Text

namespace FieldName

open Text

/-- A character that is no separator. -/
def IsInner (c : Char) : Prop :=
  c ≠ '_' ∧ c ≠ '-' ∧ isBlank c = false

instance (c : Char) : Decidable (IsInner c) :=
  inferInstanceAs (Decidable (_ ∧ _))

/-- **One character**, by its kind and by what came before. -/
theorem snakeFrom_cons_cases (before : Before) (c : Char) (cs : List Char) :
    (c = '_' ∧ snakeFrom before (c :: cs) = '_' :: snakeFrom .separator cs) ∨
      ((c = '-' ∨ isBlank c = true) ∧ snakeFrom before (c :: cs) =
        (if before = .separator then [] else ['_']) ++ snakeFrom .separator cs) ∨
      (IsInner c ∧ isUpper c = true ∧ snakeFrom before (c :: cs) =
        (if beginsWord before cs then ['_'] else []) ++ lowered c ++ snakeFrom .capital cs) ∨
      (IsInner c ∧ isUpper c = false ∧ snakeFrom before (c :: cs) = c :: snakeFrom .other cs) := by
  rw [snakeFrom]
  by_cases hu : c = '_'
  · exact .inl ⟨hu, if_pos hu⟩
  by_cases hs : c = '-' ∨ isBlank c = true
  · exact .inr (.inl ⟨hs, by rw [if_neg hu, if_pos hs]⟩)
  have hi : IsInner c := by simpa [IsInner, hu] using hs
  by_cases hc : isUpper c = true
  · exact .inr (.inr (.inl ⟨hi, hc, by rw [if_neg hu, if_neg hs, if_pos hc]⟩))
  · exact .inr (.inr (.inr ⟨hi, by simpa using hc, by rw [if_neg hu, if_neg hs, if_neg hc]⟩))

/-- **A character in snake case** is a separator, or comes from a character that is none. -/
theorem mem_snakeFrom {x : Char} {before : Before} {cs : List Char} (h : x ∈ snakeFrom before cs) :
    x = '_' ∨ ∃ c ∈ cs, ¬ (c = '_' ∨ c = '-' ∨ isBlank c) ∧
      (isUpper c = true ∧ x ∈ lowered c ∨ isUpper c = false ∧ x = c) := by
  induction cs generalizing before with
  | nil => simp [snakeFrom] at h
  | cons c cs ih =>
    have rest {b : Before} (hx : x ∈ snakeFrom b cs) :
        x = '_' ∨ ∃ d ∈ c :: cs, ¬ (d = '_' ∨ d = '-' ∨ isBlank d) ∧
          (isUpper d = true ∧ x ∈ lowered d ∨ isUpper d = false ∧ x = d) :=
      (ih hx).imp_right fun ⟨d, hd, hs⟩ => ⟨d, List.mem_cons_of_mem _ hd, hs⟩
    have mark {p : Prop} [Decidable p] (hx : x ∈ if p then ['_'] else []) : x = '_' := by
      split_ifs at hx
      · exact List.mem_singleton.mp hx
      · cases hx
    obtain ⟨-, he⟩ | ⟨-, he⟩ | ⟨hi, hc, he⟩ | ⟨hi, hc, he⟩ := snakeFrom_cons_cases before c cs
    · rw [he, List.mem_cons] at h
      exact h.elim .inl rest
    · rw [he, List.mem_append, ← ite_not] at h
      exact h.elim (fun hx => .inl (mark hx)) rest
    · rw [he, List.mem_append, List.mem_append] at h
      obtain (hx | hx) | hx := h
      · exact .inl (mark hx)
      · exact .inr ⟨c, List.mem_cons_self, by simpa [IsInner] using hi, .inl ⟨hc, hx⟩⟩
      · exact rest hx
    · rw [he, List.mem_cons] at h
      obtain rfl | hx := h
      · exact .inr ⟨x, List.mem_cons_self, by simpa [IsInner] using hi, .inr ⟨hc, rfl⟩⟩
      · exact rest hx

theorem isUpper_eq_false_of_mem_snakeCase {s : String} {x : Char} (h : x ∈ (snakeCase s).toList) :
    x.isUpper = false := by
  rw [snakeCase, String.toList_ofList] at h
  obtain rfl | ⟨c, -, -, ⟨-, hx⟩ | ⟨hc, rfl⟩⟩ := mem_snakeFrom h
  · rfl
  · exact isUpper_eq_false_of_mem_lowered hx
  · exact isUpper_eq_false hc

end FieldName

end QuerySieve
