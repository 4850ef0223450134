import Mathlib.Tactic.Common
import QuerySieve.Text.Utf8

/-!
# UTF-8 read back

Bytes of any kind have a text. The bytes of a text have that text, without a replacement.

* `high_of_mem_utf8EncodeChar`, `utf8EncodeChar_of_lt`: the bytes of a character.
* `toNat_of_mem_utf8EncodeChar`: a byte of ASCII among them.
* `leadByte_two`, `leadByte_three`, `leadByte_four`: the character that a byte opens.
* `decodeFrom_more`, `decodeFrom_last`: a byte that goes on with it.
* `decodeFrom_utf8EncodeChar`: the bytes of one character, before others.
* **`decodeUtf8_utf8`**: the bytes of a text.
* **`decodeFrom_append_ascii`**: bytes of any kind on both sides of one of ASCII.
-/

namespace QuerySieve.Text

/-! ## Bytes of characters -/

theorem high_of_mem_utf8EncodeChar {c : Char} (hc : 0x80 ≤ c.toNat) :
    ∀ b ∈ String.utf8EncodeChar c, 0x80 ≤ b.toNat := by
  have hn : c.toNat = c.val.toNat := rfl
  fun_cases String.utf8EncodeChar with
  | case1 v h => omega
  | case2 v _ h => simp; omega
  | case3 v _ _ h => simp; omega
  | case4 v => simp; omega

theorem utf8EncodeChar_of_lt {c : Char} (hc : c.toNat < 0x80) :
    String.utf8EncodeChar c = [UInt8.ofNat c.toNat] := by
  have hn : c.toNat = c.val.toNat := rfl
  fun_cases String.utf8EncodeChar with
  | case1 v h => rfl
  | case2 v h => omega
  | case3 v h => omega
  | case4 v h => omega

theorem toNat_of_mem_utf8EncodeChar {c : Char} {b : UInt8} (h : b ∈ String.utf8EncodeChar c)
    (hb : b.toNat < 0x80) : c.toNat = b.toNat := by
  by_cases hc : c.toNat < 0x80
  · rw [utf8EncodeChar_of_lt hc, List.mem_singleton] at h
    rw [h, UInt8.toNat_ofNat']
    omega
  · have := high_of_mem_utf8EncodeChar (Nat.le_of_not_lt hc) b h
    omega

theorem forall_ascii {p : Char → Prop} (h : ∀ n < 0x80, p (Char.ofNat n)) {c : Char}
    (hc : c.toNat < 0x80) : p c := by
  have := h c.toNat hc
  rwa [Char.ofNat_toNat] at this

/-! ## Reading bytes -/

theorem leadByte_one {b : Nat} (h : b < 0x80) : leadByte b = ([Char.ofNat b], none) :=
  if_pos h

theorem leadByte_two {b : Nat} (h₁ : 0xC2 ≤ b) (h₂ : b < 0xE0) :
    leadByte b = ([], some ⟨0x80, 0xBF, 0, b - 0xC0⟩) := by
  have hl : ¬ b < 0x80 ∧ ¬ b < 0xC2 := by omega
  simp only [leadByte, hl, h₂, if_true, if_false]

/-- After `E0` the next byte leaves out the long forms, after `ED` the surrogates. -/
theorem leadByte_three {b : Nat} (h₁ : 0xE0 ≤ b) (h₂ : b < 0xF0) :
    leadByte b = ([], some ⟨if b = 0xE0 then 0xA0 else 0x80, if b = 0xED then 0x9F else 0xBF, 1,
      b - 0xE0⟩) := by
  by_cases h₃ : b = 0xE0
  · subst h₃
    rfl
  by_cases h₄ : b = 0xED
  · subst h₄
    rfl
  have hl : ¬ b < 0x80 ∧ ¬ b < 0xC2 ∧ ¬ b < 0xE0 := by omega
  simp only [leadByte, hl, h₂, h₃, h₄, if_true, if_false]

/-- After `F0` the next byte leaves out the long forms, after `F4` all that is no code point. -/
theorem leadByte_four {b : Nat} (h₁ : 0xF0 ≤ b) (h₂ : b ≤ 0xF4) :
    leadByte b = ([], some ⟨if b = 0xF0 then 0x90 else 0x80, if b = 0xF4 then 0x8F else 0xBF, 2,
      b - 0xF0⟩) := by
  by_cases h₃ : b = 0xF0
  · subst h₃
    rfl
  by_cases h₄ : b = 0xF4
  · subst h₄
    rfl
  have hl : ¬ b < 0x80 ∧ ¬ b < 0xC2 ∧ ¬ b < 0xE0 ∧ b ≠ 0xE0 ∧ b ≠ 0xED ∧ ¬ b < 0xF0 ∧ b < 0xF4 := by
    omega
  simp only [leadByte, hl, h₃, h₄, if_true, if_false]

section

variable {low high code n : Nat} {b : UInt8} (bs : List UInt8)

theorem decodeFrom_lead (b : UInt8) :
    decodeFrom none (b :: bs) = (leadByte b.toNat).1 ++ decodeFrom (leadByte b.toNat).2 bs :=
  rfl

theorem decodeFrom_more (h₁ : low ≤ b.toNat) (h₂ : b.toNat ≤ high) (owed : Nat) :
    decodeFrom (some ⟨low, high, owed + 1, code⟩) (b :: bs) =
      decodeFrom (some ⟨0x80, 0xBF, owed, code * 64 + (b.toNat - 0x80)⟩) bs := by
  simp [decodeFrom, decodeByte, h₁, h₂]

theorem decodeFrom_last (h₁ : low ≤ b.toNat) (h₂ : b.toNat ≤ high)
    (hn : code * 64 + (b.toNat - 0x80) = n) :
    decodeFrom (some ⟨low, high, 0, code⟩) (b :: bs) = Char.ofNat n :: decodeFrom none bs := by
  simp [decodeFrom, decodeByte, h₁, h₂, hn]

end

/-! ## Reading texts -/

/-- **The bytes of one character** give it, whatever follows. -/
theorem decodeFrom_utf8EncodeChar (c : Char) (bs : List UInt8) :
    decodeFrom none (String.utf8EncodeChar c ++ bs) = c :: decodeFrom none bs := by
  have hc : Char.ofNat c.val.toNat = c := Char.ofNat_toNat c
  -- The bounds on a second byte come from here: no surrogate after `ED`, no more than `F4 8F`.
  have hv : c.val.toNat < 0xD800 ∨ 0xDFFF < c.val.toNat ∧ c.val.toNat < 0x110000 := c.valid
  fun_cases String.utf8EncodeChar with
  | case1 v h =>
    have hb : (UInt8.ofNat v).toNat = v := by
      rw [UInt8.toNat_ofNat']; omega
    rw [List.cons_append, decodeFrom_lead, hb, leadByte_one (by omega), hc]
    rfl
  | case2 v h₁ h₂ =>
    have hb₁ : (UInt8.ofNat (v / 64 % 32 + 192)).toNat = v / 64 + 192 := by
      rw [UInt8.toNat_ofNat']; omega
    have hb₂ : (UInt8.ofNat (v % 64 + 128)).toNat = v % 64 + 128 := by
      rw [UInt8.toNat_ofNat']; omega
    rw [List.cons_append, decodeFrom_lead, hb₁, leadByte_two (by omega) (by omega), List.nil_append,
      List.cons_append, decodeFrom_last (n := v) _ (by omega) (by omega) (by omega), hc]
    rfl
  | case3 v h₁ h₂ h₃ =>
    have hb₁ : (UInt8.ofNat (v / 4096 % 16 + 224)).toNat = v / 4096 + 224 := by
      rw [UInt8.toNat_ofNat']; omega
    have hb₂ : (UInt8.ofNat (v / 64 % 64 + 128)).toNat = v / 64 % 64 + 128 := by
      rw [UInt8.toNat_ofNat']; omega
    have hb₃ : (UInt8.ofNat (v % 64 + 128)).toNat = v % 64 + 128 := by
      rw [UInt8.toNat_ofNat']; omega
    rw [List.cons_append, decodeFrom_lead, hb₁, leadByte_three (by omega) (by omega),
      List.nil_append, List.cons_append,
      decodeFrom_more _ (by split_ifs <;> omega) (by split_ifs <;> omega), List.cons_append,
      decodeFrom_last (n := v) _ (by omega) (by omega) (by omega), hc]
    rfl
  | case4 v h₁ h₂ h₃ =>
    have hb₁ : (UInt8.ofNat (v / 262144 % 8 + 240)).toNat = v / 262144 + 240 := by
      rw [UInt8.toNat_ofNat']; omega
    have hb₂ : (UInt8.ofNat (v / 4096 % 64 + 128)).toNat = v / 4096 % 64 + 128 := by
      rw [UInt8.toNat_ofNat']; omega
    have hb₃ : (UInt8.ofNat (v / 64 % 64 + 128)).toNat = v / 64 % 64 + 128 := by
      rw [UInt8.toNat_ofNat']; omega
    have hb₄ : (UInt8.ofNat (v % 64 + 128)).toNat = v % 64 + 128 := by
      rw [UInt8.toNat_ofNat']; omega
    rw [List.cons_append, decodeFrom_lead, hb₁, leadByte_four (by omega) (by omega),
      List.nil_append, List.cons_append,
      decodeFrom_more _ (by split_ifs <;> omega) (by split_ifs <;> omega), List.cons_append,
      decodeFrom_more _ (by omega) (by omega), List.cons_append,
      decodeFrom_last (n := v) _ (by omega) (by omega) (by omega), hc]
    rfl

theorem utf8_cons (c : Char) (cs : List Char) :
    utf8 (c :: cs) = String.utf8EncodeChar c ++ utf8 cs :=
  List.flatMap_cons

/-- **The bytes of a text give it back.** -/
theorem decodeUtf8_utf8 (cs : List Char) : decodeUtf8 (utf8 cs) = cs := by
  unfold decodeUtf8
  induction cs with
  | nil => rfl
  | cons c cs ih => rw [utf8_cons, decodeFrom_utf8EncodeChar, ih]

theorem length_le_length_utf8 (cs : List Char) : cs.length ≤ (utf8 cs).length := by
  induction cs with
  | nil => simp
  | cons c cs ih =>
    have hc := List.length_pos_iff.mpr (String.utf8EncodeChar_ne_nil (c := c))
    rw [utf8_cons, List.length_append, List.length_cons]
    omega

theorem length_utf8_of_ascii {cs : List Char} (h : ∀ c ∈ cs, c.toNat < 0x80) :
    (utf8 cs).length = cs.length := by
  induction cs with
  | nil => rfl
  | cons c cs ih =>
    rw [utf8_cons, utf8EncodeChar_of_lt (h c List.mem_cons_self), List.length_append,
      ih fun d hd => h d (List.mem_cons_of_mem _ hd), List.length_singleton, List.length_cons,
      Nat.add_comm]

theorem length_utf8 (s : String) : (utf8 s.toList).length = s.utf8ByteSize := by
  rw [← String.size_toByteArray, ← String.ofList_toList (s := s), String.toByteArray_ofList,
    List.utf8Encode, List.size_toByteArray, String.toList_ofList]
  rfl

/-! ## Cuts -/

theorem low_of_leadByte {b : Nat} {p : OpenChar} : (leadByte b).2 = some p → 0x80 ≤ p.low := by
  fun_cases leadByte b <;> rintro ⟨⟩ <;> simp

theorem low_of_decodeByte {st : Option OpenChar} {b : UInt8} {p : OpenChar}
    (h : (decodeByte st b).2 = some p) : 0x80 ≤ p.low := by
  cases st with
  | none => exact low_of_leadByte h
  | some q =>
    simp only [decodeByte] at h
    split_ifs at h
    · cases ho : q.owed with
      | zero => simp [ho] at h
      | succ owed =>
        simp only [ho, Option.some.injEq] at h
        subst h
        exact Nat.le_refl _
    · exact low_of_leadByte h

/-- **A byte of ASCII cuts a text in two**, whatever the bytes on both sides. -/
theorem decodeFrom_append_ascii {b : UInt8} (hb : b.toNat < 0x80) (bs : List UInt8) :
    ∀ (as : List UInt8) (st : Option OpenChar), (∀ p, st = some p → 0x80 ≤ p.low) →
      decodeFrom st (as ++ b :: bs) =
        decodeFrom st as ++ Char.ofNat b.toNat :: decodeFrom none bs
  | [], none, _ => by
    rw [List.nil_append, decodeFrom_lead, leadByte_one hb]
    rfl
  | [], some p, hst => by
    have hlow : ¬ (p.low ≤ b.toNat ∧ b.toNat ≤ p.high) := by
      have := hst p rfl
      omega
    simp only [List.nil_append, decodeFrom, decodeByte, if_neg hlow, leadByte_one hb]
    rfl
  | a :: as, st, _ => by
    have hst : ∀ p, (decodeByte st a).2 = some p → 0x80 ≤ p.low := fun p => low_of_decodeByte
    simp only [List.cons_append, decodeFrom, decodeFrom_append_ascii hb bs as _ hst,
      List.append_assoc]

end QuerySieve.Text
