import Mathlib.Algebra.Order.Ring.Nat
import QuerySieve.Proofs.Reading
import QuerySieve.Proofs.Text.Percent

/-!
# The size of decoded queries

The limit on a decoded query counts the bytes behind the escapes. Where these are no UTF-8, the text
gets a replacement, which has three bytes and may stand for a single one. So a text can be longer
than the limit, by two bytes for each replacement at most, up to three times the limit.

* `codeRoom`, `length_utf8EncodeChar_le`: the bytes that a code needs.
* `Holds`: what has been read of an open character, in bytes.
* `sized_decodeByte`, **`size_decodeFrom`**: the size of what one byte gives, and of what all give.
* `length_decodeFrom`: the number of characters.
* `unreadable`: encodings whose texts are as long as can be.
* **`Sieve.decoded_size_bounds`**: decoded texts and the queries that are read.
-/

namespace QuerySieve

namespace Text

/-! ## Characters -/

/-- The number of codes that fit into so many bytes, for characters outside of ASCII. -/
def codeRoom : Nat → Nat
  | 2 => 0x800
  | 3 => 0x10000
  | 4 => 0x200000
  | _ => 0

theorem toNat_ofNat_le (n : Nat) : (Char.ofNat n).toNat ≤ n := by
  by_cases h : n.isValidChar
  · rw [Char.ofNat, dif_pos h]
    exact Nat.le_refl n
  · rw [Char.ofNat, dif_neg h]
    exact Nat.zero_le n

theorem length_utf8EncodeChar_le {c : Char} {k : Nat} (h : c.toNat < codeRoom k) :
    (String.utf8EncodeChar c).length ≤ k := by
  have hv : c.val.toNat < codeRoom k := h
  unfold codeRoom at hv
  split at hv
  · fun_cases String.utf8EncodeChar <;> simp <;> omega
  · fun_cases String.utf8EncodeChar <;> simp; omega
  · fun_cases String.utf8EncodeChar <;> simp
  · exact absurd hv (Nat.not_lt_zero _)

theorem length_utf8_singleton (c : Char) :
    (utf8 [c]).length = (String.utf8EncodeChar c).length := by
  rw [utf8, List.flatMap_singleton]

theorem length_utf8_replacement : (utf8 [replacement]).length = 3 := by
  decide

/-! ## Bytes -/

/-- How many bytes of a character have been read. The bytes to come are at most `BF`, and the code
will have room in as many bytes as the character will then have. -/
def Holds (held : Nat) : Option OpenChar → Prop
  | none => held = 0
  | some p => 1 ≤ held ∧ p.high ≤ 0xBF ∧
      (p.code + 1) * 64 ^ (p.owed + 1) ≤ codeRoom (held + p.owed + 1)

/-- What a step gives, with what it keeps of an open character, has no more bytes than were read,
but for two more for each replacement. -/
def Sized (read : Nat) (step : List Char × Option OpenChar) : Prop :=
  ∃ held, Holds held step.2 ∧ (utf8 step.1).length + held ≤ read + 2 * step.1.count replacement

theorem sized_open {p : OpenChar} (hh : p.high ≤ 0xBF)
    (hr : (p.code + 1) * 64 ^ (p.owed + 1) ≤ codeRoom (1 + p.owed + 1)) : Sized 1 ([], some p) :=
  ⟨1, ⟨Nat.le_refl 1, hh, hr⟩, Nat.le_refl 1⟩

theorem sized_replacement : Sized 1 ([replacement], none) :=
  ⟨0, rfl, by simp [length_utf8_replacement]⟩

theorem sized_leadByte (b : Nat) : Sized 1 (leadByte b) := by
  fun_cases leadByte b with
  | case1 h =>
    have hb : (Char.ofNat b).toNat < 0x80 := Nat.lt_of_le_of_lt (toNat_ofNat_le b) h
    refine ⟨0, rfl, ?_⟩
    rw [length_utf8_singleton, utf8EncodeChar_of_lt hb]
    exact Nat.le_add_right 1 _
  | case2 => exact sized_replacement
  | case3 => exact sized_open (Nat.le_refl _) (by simp only [codeRoom]; omega)
  | case4 => exact sized_open (Nat.le_refl _) (by decide)
  | case5 => exact sized_open (by decide) (by decide)
  | case6 => exact sized_open (Nat.le_refl _) (by simp only [codeRoom]; omega)
  | case7 => exact sized_open (Nat.le_refl _) (by decide)
  | case8 => exact sized_open (Nat.le_refl _) (by simp only [codeRoom]; omega)
  | case9 => exact sized_open (by decide) (by decide)
  | case10 => exact sized_replacement

section

variable {held low high owed code : Nat} {b : UInt8}

theorem code_lt (hhigh : high ≤ 0xBF) (hb : b.toNat ≤ high) :
    code * 64 + (b.toNat - 0x80) + 1 ≤ (code + 1) * 64 := by
  omega

theorem sized_last (h : Holds held (some ⟨low, high, 0, code⟩)) (hb : b.toNat ≤ high) :
    Sized (held + 1) ([Char.ofNat (code * 64 + (b.toNat - 0x80))], none) := by
  obtain ⟨-, hhigh, hroom⟩ := h
  have hroom : (code + 1) * 64 ≤ codeRoom (held + 1) := hroom
  have hcode := toNat_ofNat_le (code * 64 + (b.toNat - 0x80))
  have hlen := length_utf8EncodeChar_le (k := held + 1)
    (Nat.lt_of_lt_of_le (Nat.lt_of_le_of_lt hcode (code_lt hhigh hb)) hroom)
  refine ⟨0, rfl, ?_⟩
  rw [length_utf8_singleton]
  omega

theorem sized_more (h : Holds held (some ⟨low, high, owed + 1, code⟩)) (hb : b.toNat ≤ high) :
    Sized (held + 1) ([], some ⟨0x80, 0xBF, owed, code * 64 + (b.toNat - 0x80)⟩) := by
  obtain ⟨-, hhigh, hroom⟩ := h
  refine ⟨held + 1, ⟨Nat.le_add_left 1 held, Nat.le_refl _, ?_⟩, Nat.le_of_eq (Nat.zero_add _)⟩
  calc (code * 64 + (b.toNat - 0x80) + 1) * 64 ^ (owed + 1)
      ≤ (code + 1) * 64 * 64 ^ (owed + 1) := Nat.mul_le_mul_right _ (code_lt hhigh hb)
    _ = (code + 1) * 64 ^ (owed + 1 + 1) := by
      rw [Nat.mul_assoc, Nat.mul_comm 64, ← Nat.pow_succ]
    _ ≤ codeRoom (held + (owed + 1) + 1) := hroom
    _ = codeRoom (held + 1 + owed + 1) := by rw [Nat.add_comm owed 1, Nat.add_assoc held 1 owed]

theorem sized_broken {p : OpenChar} (h : Holds held (some p)) :
    Sized (held + 1) (replacement :: (leadByte b.toNat).1, (leadByte b.toNat).2) := by
  obtain ⟨next, hst, hle⟩ := sized_leadByte b.toNat
  -- The bytes held so far, one at least, make up for the first of the replacement's three.
  have hpos : 1 ≤ held := h.1
  refine ⟨next, hst, ?_⟩
  rw [← List.singleton_append, utf8_append, List.length_append, length_utf8_replacement,
    List.count_append, List.count_singleton_self]
  omega

/-- A byte ends an open character, goes on with it or breaks it off. -/
theorem decodeByte_cases (low high owed code : Nat) (b : UInt8) :
    (b.toNat ≤ high ∧ owed = 0 ∧ decodeByte (some ⟨low, high, owed, code⟩) b =
        ([Char.ofNat (code * 64 + (b.toNat - 0x80))], none)) ∨
      (b.toNat ≤ high ∧ ∃ rest, owed = rest + 1 ∧ decodeByte (some ⟨low, high, owed, code⟩) b =
        ([], some ⟨0x80, 0xBF, rest, code * 64 + (b.toNat - 0x80)⟩)) ∨
      decodeByte (some ⟨low, high, owed, code⟩) b =
        (replacement :: (leadByte b.toNat).1, (leadByte b.toNat).2) := by
  by_cases hb : low ≤ b.toNat ∧ b.toNat ≤ high
  · cases owed with
    | zero => exact .inl ⟨hb.2, rfl, if_pos hb⟩
    | succ rest => exact .inr (.inl ⟨hb.2, rest, rfl, if_pos hb⟩)
  · exact .inr (.inr (if_neg hb))

/-- **One byte.** -/
theorem sized_decodeByte {st : Option OpenChar} (h : Holds held st) (b : UInt8) :
    Sized (held + 1) (decodeByte st b) := by
  cases st with
  | none =>
    cases h
    exact sized_leadByte b.toNat
  | some p =>
    obtain ⟨low, high, owed, code⟩ := p
    obtain ⟨hb, rfl, he⟩ | ⟨hb, rest, rfl, he⟩ | he := decodeByte_cases low high owed code b
    · rw [he]
      exact sized_last h hb
    · rw [he]
      exact sized_more h hb
    · rw [he]
      exact sized_broken h

end

theorem decodeFrom_cons (st : Option OpenChar) (b : UInt8) (bs : List UInt8) :
    decodeFrom st (b :: bs) = (decodeByte st b).1 ++ decodeFrom (decodeByte st b).2 bs := by
  cases st <;> rfl

/-- **All bytes**: the text has no more, but for two more for each replacement. -/
theorem size_decodeFrom (bs : List UInt8) :
    ∀ (held : Nat) (st : Option OpenChar), Holds held st →
      (utf8 (decodeFrom st bs)).length ≤
        held + bs.length + 2 * (decodeFrom st bs).count replacement := by
  -- The bytes of the open character are carried along until it is ended or broken off.
  induction bs with
  | nil =>
    intro held st h
    cases st with
    | none => exact Nat.zero_le _
    | some p =>
      have hpos : 1 ≤ held := h.1
      simp only [decodeFrom, length_utf8_replacement, List.length_nil, List.count_singleton_self]
      omega
  | cons b bs ih =>
    intro held st h
    obtain ⟨held', hst, hle⟩ := sized_decodeByte h b
    have hrest := ih held' (decodeByte st b).2 hst
    rw [decodeFrom_cons, utf8_append, List.length_append, List.count_append, List.length_cons]
    omega

/-! ## Characters of a text -/

theorem length_leadByte (b : Nat) :
    (leadByte b).1.length + (leadByte b).2.toList.length = 1 := by
  fun_cases leadByte b <;> rfl

theorem length_decodeByte (st : Option OpenChar) (b : UInt8) :
    (decodeByte st b).1.length + (decodeByte st b).2.toList.length ≤ st.toList.length + 1 := by
  cases st with
  | none => exact Nat.le_of_eq (length_leadByte b.toNat)
  | some p =>
    have hl := length_leadByte b.toNat
    obtain ⟨-, -, he⟩ | ⟨-, rest, -, he⟩ | he := decodeByte_cases p.low p.high p.owed p.code b
    · rw [he]
      exact Nat.le_succ 1
    · rw [he]
      exact Nat.le_succ 1
    · rw [he]
      show (leadByte b.toNat).1.length + 1 + (leadByte b.toNat).2.toList.length ≤ 2
      omega

theorem length_decodeFrom (bs : List UInt8) (st : Option OpenChar) :
    (decodeFrom st bs).length ≤ st.toList.length + bs.length := by
  induction bs generalizing st with
  | nil => cases st <;> exact Nat.le_refl _
  | cons b bs ih =>
    have hb := length_decodeByte st b
    have hrest := ih (decodeByte st b).2
    rw [decodeFrom_cons, List.length_append, List.length_cons]
    omega

/-! ## Decoded texts -/

theorem utf8ByteSize_decoded_le (raw : String) :
    (decoded raw).utf8ByteSize ≤
      (decodedBytes raw).length + 2 * (decoded raw).toList.count replacement := by
  have h := size_decodeFrom (decodedBytes raw) 0 none rfl
  rw [Nat.zero_add] at h
  rw [← length_utf8, decoded, String.toList_ofList]
  exact h

theorem count_replacement_decoded_le (raw : String) :
    (decoded raw).toList.count replacement ≤ (decodedBytes raw).length := by
  have h := length_decodeFrom (decodedBytes raw) none
  rw [Option.toList_none, List.length_nil, Nat.zero_add] at h
  rw [decoded, String.toList_ofList]
  exact Nat.le_trans List.count_le_length h

/-- A byte that is in no text, escaped as often as is asked for. -/
def unreadable : Nat → List Char
  | 0 => []
  | n + 1 => '%' :: 'F' :: 'F' :: unreadable n

theorem unescaped_unreadable (n : Nat) :
    unescaped (utf8 (unreadable n)) = List.replicate n 0xFF := by
  have hb : escapedByte? 0x25 0x46 0x46 = some 0xFF := by decide
  induction n with
  | zero => rfl
  | succ n ih =>
    show unescaped (0x25 :: 0x46 :: 0x46 :: utf8 (unreadable n)) = _
    rw [unescaped_escaped hb, ih, List.replicate_succ]

theorem decodeFrom_unreadable (n : Nat) :
    decodeFrom none (List.replicate n 0xFF) = List.replicate n replacement := by
  have hl : leadByte (0xFF : UInt8).toNat = ([replacement], none) := by decide
  induction n with
  | zero => rfl
  | succ n ih =>
    rw [List.replicate_succ, decodeFrom_lead, hl, ih]
    rfl

theorem length_utf8_replicate (n : Nat) :
    (utf8 (List.replicate n replacement)).length = 3 * n := by
  induction n with
  | zero => rfl
  | succ n ih =>
    rw [List.replicate_succ, ← List.singleton_append, utf8_append, List.length_append, ih,
      length_utf8_replacement]
    omega

theorem urlDecode_unreadable (max : Nat) :
    ∃ text, urlDecode (String.ofList (unreadable max)) max = .ok text ∧
      text.utf8ByteSize = 3 * max := by
  have hb : decodedBytes (String.ofList (unreadable max)) = List.replicate max 0xFF := by
    rw [decodedBytes, String.toList_ofList, unescaped_unreadable]
  refine ⟨decoded (String.ofList (unreadable max)), ?_, ?_⟩
  · rw [urlDecode_eq, hb, List.length_replicate, if_pos (Nat.le_refl max)]
  · rw [← length_utf8, decoded, hb, decodeUtf8, decodeFrom_unreadable, String.toList_ofList,
      length_utf8_replicate]

/-- **A text within the limit on its bytes**, and by how much it can be longer. -/
theorem urlDecode_sized (raw : String) (max : Nat) :
    urlDecode raw max = .error (.tooLong max) ∨
      ∃ text, urlDecode raw max = .ok text ∧
        text.utf8ByteSize ≤ max + 2 * text.toList.count replacement ∧
        text.utf8ByteSize ≤ 3 * max := by
  rw [urlDecode_eq]
  split_ifs with h
  · have hsize := utf8ByteSize_decoded_le raw
    have hcount := count_replacement_decoded_le raw
    exact .inr ⟨decoded raw, rfl, by omega, by omega⟩
  · exact .inl rfl

end Text

namespace Sieve

open Text

/-- **The limit on a decoded query, in bytes of its text**: the text has no more than are allowed
but for two more for each replacement of bytes that are no UTF-8, so no more than three times as
many, and every limit has an encoding with as many. -/
theorem decoded_size_bounds (s : Sieve) (raw : String) (max : Nat) :
    (urlDecode raw max = .error (.tooLong max) ∨
      ∃ text, urlDecode raw max = .ok text ∧
        text.utf8ByteSize ≤ max + 2 * text.toList.count replacement ∧
        text.utf8ByteSize ≤ 3 * max) ∧
    (∃ worst text, urlDecode worst max = .ok text ∧ text.utf8ByteSize = 3 * max) ∧
    (s.readEncoded (some raw) = { records := [ignoredRecord (.tooLong s.limits.queryBytes)] } ∨
      ∃ query, s.readEncoded (some raw) = s.read query ∧
        query.utf8ByteSize ≤ s.limits.queryBytes + 2 * query.toList.count replacement ∧
        query.utf8ByteSize ≤ 3 * s.limits.queryBytes) := by
  refine ⟨urlDecode_sized raw max, ⟨_, urlDecode_unreadable max⟩, ?_⟩
  obtain he | ⟨query, hq, hsize⟩ := urlDecode_sized raw s.limits.queryBytes
  · exact .inl (by rw [readEncoded, he])
  · exact .inr ⟨query, by rw [readEncoded, hq], hsize⟩

/-- The text of one byte has three, and is let through where one is allowed. -/
theorem decoded_size_exceeds_limit :
    ∃ s : Sieve, s.limits.queryBytes = 1 ∧
      urlDecode "%FF" s.limits.queryBytes = .ok "\uFFFD" ∧
      s.readEncoded (some "%FF") = s.read "\uFFFD" ∧
      ¬ "\uFFFD".utf8ByteSize ≤ s.limits.queryBytes :=
  ⟨{ limits := { queryBytes := 1 } }, rfl, by decide +kernel, by decide +kernel, by decide +kernel⟩

end Sieve

end QuerySieve
