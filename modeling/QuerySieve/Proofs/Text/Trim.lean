import Mathlib.Data.List.Basic
import Mathlib.Data.List.TakeWhile
import QuerySieve.Text.Basic

/-!
# Blanks around a text

* **`exists_trim`**: a text is what trimming leaves of it, with blanks on both sides.
* `mem_of_mem_trim`, `mem_trim`: the characters that are left.
* **`trim_append`**, `trim_eq_self`: what is trimmed to a text that neither begins nor ends with a
  blank.
-/

namespace QuerySieve.Text

theorem exists_trimStart (cs : List Char) :
    ∃ front, cs = front ++ trimStart cs ∧ ∀ c ∈ front, isBlank c = true :=
  ⟨cs.takeWhile isBlank, List.takeWhile_append_dropWhile.symm, fun _ => List.mem_takeWhile_imp⟩

/-- **What trimming takes away** is blank. -/
theorem exists_trim (cs : List Char) :
    ∃ front back, cs = front ++ trim cs ++ back ∧ ∀ c ∈ front ++ back, isBlank c = true := by
  obtain ⟨front, hcs, hfront⟩ := exists_trimStart cs
  obtain ⟨back, hrest, hback⟩ := exists_trimStart (trimStart cs).reverse
  have hend : trimStart cs = trim cs ++ back.reverse := by
    rw [trim, trimEnd, ← List.reverse_append, ← hrest, List.reverse_reverse]
  refine ⟨front, back.reverse, ?_, fun c hc => ?_⟩
  · rw [List.append_assoc, ← hend, ← hcs]
  · rw [List.mem_append, List.mem_reverse] at hc
    exact hc.elim (hfront c) (hback c)

theorem mem_of_mem_trim {c : Char} {cs : List Char} (h : c ∈ trim cs) : c ∈ cs := by
  obtain ⟨front, back, hcs, -⟩ := exists_trim cs
  rw [hcs]
  exact List.mem_append_left _ (List.mem_append_right _ h)

theorem mem_trim {c : Char} {cs : List Char} (hc : c ∈ cs) (hb : isBlank c = false) :
    c ∈ trim cs := by
  obtain ⟨front, back, hcs, hblank⟩ := exists_trim cs
  have hn : c ∉ front ++ back := fun hm => by
    rw [hblank c hm] at hb
    cases hb
  rw [List.mem_append, not_or] at hn
  rw [hcs, List.mem_append, List.mem_append] at hc
  simpa [hn.1, hn.2] using hc

theorem trimStart_append {pad cs : List Char} (hpad : ∀ c ∈ pad, isBlank c = true)
    (hcs : ∀ c ∈ cs.head?, isBlank c = false) : trimStart (pad ++ cs) = cs := by
  rw [trimStart, List.dropWhile_append_of_pos hpad]
  cases cs with
  | nil => rfl
  | cons c cs =>
    have hc := hcs c rfl
    rw [List.dropWhile_cons_of_neg (by simp [hc])]

theorem trim_append {before cs after : List Char} (hb : ∀ c ∈ before ++ after, isBlank c = true)
    (hne : cs ≠ []) (hhead : ∀ c ∈ cs.head?, isBlank c = false)
    (hlast : ∀ c ∈ cs.getLast?, isBlank c = false) : trim (before ++ cs ++ after) = cs := by
  have hstart : trimStart (before ++ (cs ++ after)) = cs ++ after := by
    refine trimStart_append (fun c hc => hb c (List.mem_append_left _ hc)) ?_
    rwa [List.head?_append_of_ne_nil _ hne]
  have hend : trimStart (after.reverse ++ cs.reverse) = cs.reverse := by
    refine trimStart_append (fun c hc => hb c ?_) ?_
    · exact List.mem_append_right _ (List.mem_reverse.mp hc)
    · rwa [List.head?_reverse]
  rw [trim, List.append_assoc, hstart, trimEnd, List.reverse_append, hend, List.reverse_reverse]

theorem trim_eq_self {cs : List Char} (h : ∀ c ∈ cs, isBlank c = false) : trim cs = cs := by
  by_cases hne : cs = []
  · subst hne
    rfl
  · have ht : trim ([] ++ cs ++ []) = cs := trim_append (fun c hc => by cases hc) hne
      (fun c hc => h c (List.mem_of_head? hc)) (fun c hc => h c (List.mem_of_getLast? hc))
    rwa [List.nil_append, List.append_nil] at ht

end QuerySieve.Text
