import Mathlib.Data.List.Basic
import QuerySieve.Sieve

/-!
# Readings, fragment by fragment

The criteria of a query are those of its fragments in order, as far as the limit lets them be looked
at. The empty query is no exception: its one fragment is malformed.

* `toOption_eq_filter`: two results of which one holds what passes a test of the other.
* `Sieve.criterion?`: the criterion of a fragment, whatever the reason where there is none.
* `Sieve.exists_ofToken_of_criterion?`: the token that it comes from.
* **`Sieve.criteria_read`**: the criteria of a query.
* `Limits.decoded?`, `Sieve.criteria_readEncoded`: the same of an encoded query.
* `Sieve.exists_criterion?_of_mem`: every criterion is that of a fragment.
-/

namespace QuerySieve

theorem toOption_eq_filter {ε α : Type} {e e' : Except ε α} {p : α → Bool}
    (h : ∀ a, e = .ok a ↔ e' = .ok a ∧ p a = true) : e.toOption = e'.toOption.filter p := by
  have ok_iff : ∀ (e : Except ε α) a, e.toOption = some a ↔ e = .ok a := by
    intro e a
    cases e <;> simp [Except.toOption]
  ext a
  rw [Option.filter_eq_some_iff, ok_iff, ok_iff]
  exact h a

/-- The query behind an encoded one, if it can be decoded within the limits. -/
def Limits.decoded? (l : Limits) (raw : Option String) : Option String :=
  raw.bind fun r => (Text.urlDecode r l.queryBytes).toOption

namespace Sieve

variable (s : Sieve)

/-- The criterion of a fragment, if there is one. -/
def criterion? (fragment : String) : Option Criterion :=
  (s.readFragment fragment).toOption

variable {s} in
theorem exists_ofToken_of_criterion? {fragment : String} {c : Criterion}
    (h : s.criterion? fragment = some c) :
    ∃ t, tokenize fragment = some t ∧
      Criterion.ofToken s.gate { t with key := s.normalize t.key } = .ok c := by
  unfold criterion? readFragment at h
  cases ht : tokenize fragment with
  | none => simp [ht, Except.toOption] at h
  | some t =>
    simp only [ht] at h
    cases he : Criterion.ofToken s.gate { t with key := s.normalize t.key } with
    | error r => simp [he, Except.toOption] at h
    | ok c₀ =>
      rw [he] at h
      cases h
      exact ⟨t, rfl, he⟩

theorem criteria_fragmentReading (fragment : String) :
    (s.fragmentReading fragment).criteria = (s.criterion? fragment).toList := by
  unfold fragmentReading criterion?
  cases s.readFragment fragment <;> rfl

theorem criteria_readFragments (fs : List String) :
    (s.readFragments fs).criteria = (fs.take s.limits.fragments).filterMap s.criterion? := by
  rw [List.filterMap_eq_flatMap_toList]
  simp only [readFragments, List.flatMap_map, criteria_fragmentReading]

/-- **The criteria of a query** are those of its first fragments. -/
theorem criteria_read (query : String) :
    (s.read query).criteria =
      ((fragments query).take s.limits.fragments).filterMap s.criterion? := by
  unfold read
  split_ifs with h
  · subst h
    have hf : fragments "" = [""] := by decide
    have hc : s.criterion? "" = none := rfl
    rw [hf]
    cases s.limits.fragments <;> simp [hc]
  · exact s.criteria_readFragments _

theorem criteria_readEncoded (raw : Option String) :
    (s.readEncoded raw).criteria =
      (s.limits.decoded? raw).elim [] fun query => (s.read query).criteria := by
  cases raw with
  | none => rfl
  | some r =>
    simp only [readEncoded, Limits.decoded?, Option.bind_some]
    cases Text.urlDecode r s.limits.queryBytes <;> rfl

variable {s} in
theorem exists_criterion?_of_mem {query : String} {raw : Option String} {c : Criterion}
    (h : c ∈ (s.read query).criteria ∨ c ∈ (s.readEncoded raw).criteria) :
    ∃ fragment, s.criterion? fragment = some c := by
  have plain : ∀ q, c ∈ (s.read q).criteria → ∃ fragment, s.criterion? fragment = some c := by
    intro q hq
    rw [criteria_read] at hq
    obtain ⟨f, -, hf⟩ := List.mem_filterMap.mp hq
    exact ⟨f, hf⟩
  obtain h | h := h
  · exact plain query h
  · rw [criteria_readEncoded] at h
    cases hd : s.limits.decoded? raw with
    | none => simp [hd] at h
    | some q => exact plain q (by simpa [hd] using h)

end Sieve

end QuerySieve
