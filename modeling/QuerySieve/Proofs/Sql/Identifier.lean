import Mathlib.Data.List.Basic
import QuerySieve.Proofs.Text.Readable
import QuerySieve.Proofs.Text.Utf8
import QuerySieve.Sql.Identifier

/-!
# The characters of identifiers

Identifiers are checked byte by byte. No byte of a character outside of ASCII is let through, so the
check is one of the characters.

* `all_isNamePart_utf8`: the bytes of names are the bytes of word characters.
* `isIdentifier_iff`: what the check of the bytes says of the characters.
* **`Identifier.toList_eq`**: an identifier is a word that does not begin with a digit.
* **`isIdentifier_iff_grammar`**: identifiers by the characters that they are made of.
-/

namespace QuerySieve

namespace Sql

open Text

theorem isNamePart_eq_false_of_ge {b : UInt8} (hb : 0x80 ≤ b.toNat) : isNamePart b = false := by
  have hu : b ≠ 0x5F := by
    rintro rfl
    exact absurd hb (by decide)
  have h : ∀ x y : UInt8, y.toNat < 0x80 → (decide (x ≤ b) && decide (b ≤ y)) = false := by
    intro x y hy
    simp only [Bool.and_eq_false_iff, decide_eq_false_iff_not, UInt8.le_iff_toNat_le]
    omega
  simp [isNamePart, isNameStart, hu, h 0x41 0x5A (by decide), h 0x61 0x7A (by decide),
    h 0x30 0x39 (by decide)]

theorem all_isNamePart_utf8EncodeChar (c : Char) :
    (String.utf8EncodeChar c).all isNamePart = isWordChar c := by
  by_cases hc : c.toNat < 0x80
  · rw [utf8EncodeChar_of_lt hc]
    exact forall_ascii (p := fun c => [UInt8.ofNat c.toNat].all isNamePart = isWordChar c)
      (by decide +kernel) hc
  · have hc : 0x80 ≤ c.toNat := by omega
    obtain ⟨b, bs, hb⟩ := List.exists_cons_of_ne_nil (String.utf8EncodeChar_ne_nil (c := c))
    have hh : 0x80 ≤ b.toNat := high_of_mem_utf8EncodeChar hc b (by rw [hb]; simp)
    rw [isWordChar_eq_false_of_ge hc, hb, List.all_cons, isNamePart_eq_false_of_ge hh]
    rfl

theorem all_isNamePart_utf8 (cs : List Char) : (utf8 cs).all isNamePart = cs.all isWordChar := by
  rw [utf8, List.all_flatMap]
  exact congrArg cs.all (funext all_isNamePart_utf8EncodeChar)

theorem isNameStart_utf8EncodeChar {c : Char} {b : UInt8} {bs : List UInt8}
    (hb : String.utf8EncodeChar c = b :: bs) : isNameStart b = (c.isAlpha || c == '_') := by
  by_cases hc : c.toNat < 0x80
  · rw [utf8EncodeChar_of_lt hc] at hb
    cases hb
    exact forall_ascii (p := fun c => isNameStart (UInt8.ofNat c.toNat) = (c.isAlpha || c == '_'))
      (by decide +kernel) hc
  · have hc : 0x80 ≤ c.toNat := Nat.le_of_not_lt hc
    have hpart := isNamePart_eq_false_of_ge (high_of_mem_utf8EncodeChar hc b (by simp [hb]))
    have hword := isWordChar_eq_false_of_ge hc
    rw [isNamePart, Bool.or_eq_false_iff] at hpart
    rw [isWordChar, Char.isAlphanum, Bool.or_eq_false_iff, Bool.or_eq_false_iff] at hword
    rw [hpart.1, hword.1.1, hword.2]
    rfl

/-- What the bytes of an identifier say of its characters. -/
theorem isIdentifier_iff {name : String} :
    isIdentifier name = true ↔ ∃ c cs, name.toList = c :: cs ∧ (c.isAlpha || c == '_') = true ∧
      (∀ x ∈ c :: cs, isWordChar x = true) ∧ name.utf8ByteSize ≤ maxIdentifierBytes := by
  rw [isIdentifier, ← length_utf8]
  cases name.toList with
  | nil => simp [utf8, isIdentifierBytes]
  | cons c cs =>
    obtain ⟨b, bs, hb⟩ := List.exists_cons_of_ne_nil (String.utf8EncodeChar_ne_nil (c := c))
    have hu : utf8 (c :: cs) = b :: (bs ++ utf8 cs) := by rw [utf8_cons, hb, List.cons_append]
    have hstart := isNameStart_utf8EncodeChar hb
    have hall := all_isNamePart_utf8 (c :: cs)
    rw [hu, List.all_cons, isNamePart, hstart] at hall
    rw [hu, isIdentifierBytes, hstart]
    constructor
    · intro h
      simp only [Bool.and_eq_true, decide_eq_true_eq] at h
      obtain ⟨⟨hl, hs⟩, hp⟩ := h
      rw [hs, hp] at hall
      exact ⟨c, cs, rfl, hs, List.all_eq_true.mp hall.symm, hl⟩
    · rintro ⟨c', cs', he, hs, hw, hl⟩
      cases he
      rw [List.all_eq_true.mpr hw, hs, Bool.true_or, Bool.true_and] at hall
      simp only [hs, hall, hl, decide_true, Bool.true_and]

theorem length_le_of_isIdentifier {name : String} (h : isIdentifier name = true) :
    name.toList.length ≤ 63 := by
  obtain ⟨-, -, -, -, -, hl⟩ := isIdentifier_iff.mp h
  rw [← length_utf8] at hl
  exact (length_le_length_utf8 _).trans hl

/-- **An identifier is a word** that does not begin with a digit. -/
theorem Identifier.toList_eq (i : Identifier) :
    ∃ c cs, i.name.toList = c :: cs ∧ c.isDigit = false ∧ ∀ x ∈ c :: cs, isWordChar x = true := by
  obtain ⟨c, cs, hi, hs, hw, -⟩ := isIdentifier_iff.mp i.valid
  have hc := toNat_lt_of_isWordChar (hw c List.mem_cons_self)
  exact ⟨c, cs, hi, forall_ascii (p := fun c => (c.isAlpha || c == '_') = true → c.isDigit = false)
    (by decide +kernel) hc hs, hw⟩

theorem Identifier.isWordChar_of_mem (i : Identifier) :
    ∀ c ∈ i.name.toList, isWordChar c = true := by
  obtain ⟨c, cs, hi, -, hw⟩ := i.toList_eq
  rwa [hi]

theorem Identifier.toList_append_ne (i : Identifier) {x : Char} (hx : isWordChar x = false)
    (u v : List Char) : i.name.toList ++ u ≠ x :: v := by
  obtain ⟨c, cs, hi, -, hw⟩ := i.toList_eq
  rw [hi]
  intro h
  obtain ⟨rfl, -⟩ := List.cons.inj h
  rw [hw c List.mem_cons_self] at hx
  cases hx

/-! ## The grammar of identifiers -/

/-- **The grammar of identifiers.** The bytes of a name pass the check if and only if it has 1 to 63
characters, of which the first is a letter of ASCII or `_` and the others are letters or digits of
ASCII or `_`. -/
theorem isIdentifier_iff_grammar (name : String) :
    (isIdentifier name = true ↔ 1 ≤ name.length ∧ name.length ≤ 63 ∧
        ∃ c cs, name.toList = c :: cs ∧ (c.isAlpha = true ∨ c = '_') ∧
          ∀ x ∈ cs, x.isAlpha = true ∨ x.isDigit = true ∨ x = '_') ∧
      (isIdentifier name = true →
        (∀ c ∈ name.toList, c.toNat < 0x80) ∧ name.utf8ByteSize = name.length) := by
  have hpart {x : Char} :
      isWordChar x = true ↔ x.isAlpha = true ∨ x.isDigit = true ∨ x = '_' := by
    simp [isWordChar, Char.isAlphanum, or_assoc]
  have hsize (h : ∀ x ∈ name.toList, isWordChar x = true) : name.utf8ByteSize = name.length := by
    rw [← length_utf8, ← String.length_toList]
    exact length_utf8_of_ascii fun x hx => toNat_lt_of_isWordChar (h x hx)
  rw [isIdentifier_iff]
  refine ⟨⟨?_, ?_⟩, ?_⟩
  · rintro ⟨c, cs, hn, hs, hw, hl⟩
    have hlen : name.length = cs.length + 1 := by rw [← String.length_toList, hn]; rfl
    rw [hsize (hn ▸ hw)] at hl
    refine ⟨by omega, hl, c, cs, hn, by simpa using hs, fun x hx => ?_⟩
    exact hpart.mp (hw x (List.mem_cons_of_mem _ hx))
  · rintro ⟨-, hl, c, cs, hn, hs, hcs⟩
    have hw : ∀ x ∈ c :: cs, isWordChar x = true := by
      intro x hx
      rcases List.mem_cons.mp hx with rfl | hx
      · exact hpart.mpr (hs.imp_right .inr)
      · exact hpart.mpr (hcs x hx)
    refine ⟨c, cs, hn, by simpa using hs, hw, ?_⟩
    rw [hsize (hn ▸ hw)]
    exact hl
  · rintro ⟨c, cs, hn, -, hw, -⟩
    exact ⟨fun x hx => toNat_lt_of_isWordChar (hw x (hn ▸ hx)), hsize (hn ▸ hw)⟩

/-- A name of 63 characters, all digits but the first. -/
def longestName : String :=
  String.ofList ('_' :: List.replicate 62 '9')

/-- A longest name, one more character, and a last character that is none of ASCII. -/
theorem isIdentifier_iff_grammar_longestName :
    isIdentifier longestName = true ∧
      (∀ c ∈ longestName.toList, c.toNat < 0x80) ∧ longestName.utf8ByteSize = 63 ∧
      isIdentifier (longestName ++ "9") = false ∧ isIdentifier "caf\u00e9" = false := by
  have h : isIdentifier longestName = true := by decide +kernel
  have hl : longestName.length = 63 := by decide +kernel
  obtain ⟨hascii, hsize⟩ := (isIdentifier_iff_grammar longestName).2 h
  refine ⟨h, hascii, hsize.trans hl, ?_, ?_⟩
  · refine Bool.eq_false_iff.mpr fun hlong => ?_
    obtain ⟨-, hle, -⟩ := (isIdentifier_iff_grammar _).1.mp hlong
    rw [String.length_append, hl] at hle
    exact absurd hle (by decide)
  · refine Bool.eq_false_iff.mpr fun haccent => ?_
    have := ((isIdentifier_iff_grammar _).2 haccent).1 '\u00e9' (by decide)
    exact absurd this (by decide)

end Sql

end QuerySieve
