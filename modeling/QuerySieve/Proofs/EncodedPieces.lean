import QuerySieve.Proofs.Fragments
import QuerySieve.Proofs.Text.Percent

/-!
# Encoded queries, piece by piece

An encoded query is decoded as a whole. At a separator that is written as itself this comes to the
same as decoding what stands before it and what stands after it.

* `Sieve.criteria_readEncoded_of_le`: an encoded query within the limits.
* **`Sieve.criteria_readEncoded_append`**: encoded queries that are joined.
-/

namespace QuerySieve.Sieve

open Text

variable {s : Sieve}

theorem criteria_readEncoded_of_le {raw : String}
    (h : (decodedBytes raw).length ≤ s.limits.queryBytes) :
    (s.readEncoded (some raw)).criteria = (s.read (decoded raw)).criteria := by
  rw [readEncoded, urlDecode_eq, if_pos h]

theorem criteria_read_withFragments {query : String} {m : Nat} (hm : (fragments query).length ≤ m)
    (h : (fragments query).length ≤ s.limits.fragments) :
    ((s.withFragments m).read query).criteria = (s.read query).criteria := by
  rw [criteria_read, criteria_read, List.take_of_length_le h]
  have ht : (fragments query).take (s.withFragments m).limits.fragments = fragments query :=
    List.take_of_length_le hm
  rw [ht]
  rfl

/-- **Encoded queries that are joined** are read one after the other, whatever their escapes and
bytes are, if the bytes are no more than are allowed and the fragments of both are no more than are
looked at. -/
theorem criteria_readEncoded_append {r t : String}
    (hb : (decodedBytes (r ++ "&" ++ t)).length ≤ s.limits.queryBytes)
    (hf : (fragments (decoded r)).length + (fragments (decoded t)).length ≤ s.limits.fragments) :
    (s.readEncoded (some (r ++ "&" ++ t))).criteria =
      (s.readEncoded (some r)).criteria ++ (s.readEncoded (some t)).criteria := by
  have hlen := hb
  rw [decodedBytes_append, List.length_append, List.length_cons] at hlen
  have hr : (decodedBytes r).length ≤ s.limits.queryBytes := by omega
  have ht : (decodedBytes t).length ≤ s.limits.queryBytes := by omega
  rw [criteria_readEncoded_of_le hb, criteria_readEncoded_of_le hr, criteria_readEncoded_of_le ht,
    decoded_append, criteria_read_join, criteria_read_withFragments (by omega) (by omega)]

/-- A character is cut off before the separator, and an escape at the end. -/
theorem criteria_readEncoded_append_cut :
    (decodedBytes ("a=%C3" ++ "&" ++ "b=%2")).length ≤ openSieve.limits.queryBytes ∧
      (fragments (decoded "a=%C3")).length + (fragments (decoded "b=%2")).length ≤
        openSieve.limits.fragments ∧
      (openSieve.readEncoded (some "a=%C3&b=%2")).criteria =
        [.comparison "a" .eq "\uFFFD", .comparison "b" .eq "%2"] := by
  have hb : (decodedBytes ("a=%C3" ++ "&" ++ "b=%2")).length ≤ openSieve.limits.queryBytes := by
    decide +kernel
  have hf : (fragments (decoded "a=%C3")).length + (fragments (decoded "b=%2")).length ≤
      openSieve.limits.fragments := by
    decide +kernel
  have hr : (openSieve.readEncoded (some "a=%C3")).criteria =
      [.comparison "a" .eq "\uFFFD"] := by decide +kernel
  have ht : (openSieve.readEncoded (some "b=%2")).criteria = [.comparison "b" .eq "%2"] := by
    decide +kernel
  refine ⟨hb, hf, ?_⟩
  have h := criteria_readEncoded_append hb hf
  rwa [hr, ht] at h

end QuerySieve.Sieve
