import QuerySieve.Proofs.Text.Percent
import QuerySieve.Sieve

/-!
# URL encodings read back

There are many ways to write a text in a URL: each character stands for itself or is escaped byte by
byte, in hexadecimal digits of either letter case, and a blank may be a `+`. All of them are read
back as the text, up to the limit on its bytes.

* `Escapes`, `Encodes`: the ways to write a text.
* `EncodesBytes`: the same for bytes.
* `unescaped_of_encodesBytes`: the bytes behind an encoding.
* **`Sieve.readEncoded_of_encodes`**: encoded texts and encoded queries.
-/

namespace QuerySieve

namespace Text

/-- The two spellings of a hexadecimal digit. -/
def hexSpellings (d : Nat) : List Char :=
  [d.digitChar, d.digitChar.toUpper]

/-- Bytes written as escapes. -/
inductive Escapes : List UInt8 → List Char → Prop
  | nil : Escapes [] []
  | cons {b : UInt8} {h l : Char} {bs : List UInt8} {e : List Char}
      (hh : h ∈ hexSpellings (b.toNat / 16)) (hl : l ∈ hexSpellings (b.toNat % 16))
      (he : Escapes bs e) : Escapes (b :: bs) ('%' :: h :: l :: e)

/-- **The encodings of a text**, character by character: as it is unless it is one of the two signs
of encodings, a blank as `+`, or all its bytes as escapes. -/
inductive Encodes : List Char → List Char → Prop
  | nil : Encodes [] []
  | plain {c : Char} {cs e : List Char} (hp : c ≠ '%') (hs : c ≠ '+') (he : Encodes cs e) :
      Encodes (c :: cs) (c :: e)
  | blank {cs e : List Char} (he : Encodes cs e) : Encodes (' ' :: cs) ('+' :: e)
  | escaped {c : Char} {x cs e : List Char} (hx : Escapes (String.utf8EncodeChar c) x)
      (he : Encodes cs e) : Encodes (c :: cs) (x ++ e)

/-! ## Bytes -/

/-- The encodings of bytes. -/
inductive EncodesBytes : List UInt8 → List UInt8 → Prop
  | nil : EncodesBytes [] []
  | plain {b : UInt8} {bs xs : List UInt8} (hb : b ≠ 0x25) (hx : EncodesBytes bs xs) :
      EncodesBytes (plainByte b :: bs) (b :: xs)
  | escaped {h l b : UInt8} {bs xs : List UInt8} (hb : escapedByte? 0x25 h l = some b)
      (hx : EncodesBytes bs xs) : EncodesBytes (b :: bs) (0x25 :: h :: l :: xs)

/-- **The bytes behind an encoding.** -/
theorem unescaped_of_encodesBytes {bs xs : List UInt8} (h : EncodesBytes bs xs) :
    unescaped xs = bs := by
  induction h with
  | nil => rfl
  | plain hb hx ih => rw [unescaped_plain hb, ih]
  | escaped hb hx ih => rw [unescaped_escaped hb, ih]

theorem EncodesBytes.append {bs xs : List UInt8} (h : EncodesBytes bs xs) :
    ∀ ys : List UInt8, (∀ b ∈ ys, b ≠ 0x25 ∧ b ≠ 0x2B) → EncodesBytes (ys ++ bs) (ys ++ xs)
  | [], _ => h
  | y :: ys, hy => by
    obtain ⟨hp, hs⟩ := hy y List.mem_cons_self
    have hr := EncodesBytes.append h ys fun b hb => hy b (List.mem_cons_of_mem _ hb)
    have he : plainByte y = y := if_neg hs
    have := EncodesBytes.plain hp hr
    rwa [he] at this

/-! ## Texts -/

theorem ne_signs_of_mem_utf8EncodeChar {c : Char} (hp : c ≠ '%') (hs : c ≠ '+') :
    ∀ b ∈ String.utf8EncodeChar c, b ≠ 0x25 ∧ b ≠ 0x2B := by
  intro b hb
  constructor
  · rintro rfl
    exact hp (Char.toNat_inj.mp (toNat_of_mem_utf8EncodeChar hb (by decide)))
  · rintro rfl
    exact hs (Char.toNat_inj.mp (toNat_of_mem_utf8EncodeChar hb (by decide)))

theorem hexByte?_of_mem_hexSpellings :
    ∀ d < 16, ∀ h ∈ hexSpellings d, ∃ b, String.utf8EncodeChar h = [b] ∧ hexByte? b = some d := by
  have key : ∀ d < 16, (hexSpellings d).all fun h =>
      h.toNat < 0x80 ∧ hexByte? (UInt8.ofNat h.toNat) = some d := by decide +kernel
  intro d hd h hh
  obtain ⟨hlt, hv⟩ := of_decide_eq_true (List.all_eq_true.mp (key d hd) h hh)
  exact ⟨_, utf8EncodeChar_of_lt hlt, hv⟩

theorem Escapes.encodesBytes {bs ds xs : List UInt8} {e : List Char} (h : Escapes bs e)
    (hx : EncodesBytes ds xs) : EncodesBytes (bs ++ ds) (utf8 e ++ xs) := by
  induction h with
  | nil => exact hx
  | @cons b h l bs e hh hl he ih =>
    have hb : b.toNat < 256 := b.toNat_lt
    obtain ⟨hbyte, hhe, hhv⟩ := hexByte?_of_mem_hexSpellings _ (by omega) h hh
    obtain ⟨lbyte, hle, hlv⟩ := hexByte?_of_mem_hexSpellings _ (by omega) l hl
    have hpe : String.utf8EncodeChar '%' = [0x25] := by decide
    have hv : escapedByte? 0x25 hbyte lbyte = some b := by
      have hn : 16 * (b.toNat / 16) + b.toNat % 16 = b.toNat := by omega
      simp [escapedByte?, hhv, hlv, hn]
    have hu : utf8 ('%' :: h :: l :: e) = 0x25 :: hbyte :: lbyte :: utf8 e := by
      simp [utf8, hhe, hle, hpe]
    rw [hu]
    exact .escaped hv ih

/-- **An encoding of a text is one of its bytes.** -/
theorem Encodes.encodesBytes {cs e : List Char} (h : Encodes cs e) :
    EncodesBytes (utf8 cs) (utf8 e) := by
  induction h with
  | nil => exact .nil
  | plain hp hs he ih => exact ih.append _ (ne_signs_of_mem_utf8EncodeChar hp hs)
  | blank he ih => exact .plain (b := 0x2B) (by decide) ih
  | escaped hx he ih =>
    rw [utf8, utf8, List.flatMap_cons, List.flatMap_append, ← utf8, ← utf8]
    exact hx.encodesBytes ih

theorem urlDecode_of_encodes {query e : String} (h : Encodes query.toList e.toList) (max : Nat) :
    urlDecode e max = if query.utf8ByteSize ≤ max then .ok query else .error (.tooLong max) := by
  have hb : decodedBytes e = utf8 query.toList := unescaped_of_encodesBytes h.encodesBytes
  rw [urlDecode_eq, decoded, hb, length_utf8, decodeUtf8_utf8, String.ofList_toList]

end Text

namespace Sieve

/-- **Every encoding is undone.** A text comes back from each of its encodings if it has no more
bytes than are allowed, and is too long otherwise. So an encoded query is read as the query is, or
as an empty one. -/
theorem readEncoded_of_encodes {query e : String} (h : Text.Encodes query.toList e.toList) :
    (∀ max, Text.urlDecode e max =
        if query.utf8ByteSize ≤ max then .ok query else .error (.tooLong max)) ∧
      ∀ s : Sieve, s.readEncoded (some e) =
        if query.utf8ByteSize ≤ s.limits.queryBytes then s.read query
        else { criteria := [], records := [ignoredRecord (.tooLong s.limits.queryBytes)] } := by
  have hd := Text.urlDecode_of_encodes h
  refine ⟨hd, fun s => ?_⟩
  rw [readEncoded, hd]
  by_cases hm : query.utf8ByteSize ≤ s.limits.queryBytes <;> simp [hm]

theorem readEncoded_of_encodes_mixed :
    Text.Encodes "né +%".toList "n%c3%A9+%2b%25".toList ∧
      Text.urlDecode "n%c3%A9+%2b%25" 6 = .ok "né +%" ∧
      Text.urlDecode "n%c3%A9+%2b%25" 5 = .error (.tooLong 5) := by
  have he : Text.Escapes (String.utf8EncodeChar 'é') "%c3%A9".toList :=
    .cons (by decide) (by decide) (.cons (by decide) (by decide) .nil)
  have hs : Text.Escapes (String.utf8EncodeChar '+') "%2b".toList :=
    .cons (by decide) (by decide) .nil
  have hp : Text.Escapes (String.utf8EncodeChar '%') "%25".toList :=
    .cons (by decide) (by decide) .nil
  have h : Text.Encodes "né +%".toList "n%c3%A9+%2b%25".toList :=
    .plain (by decide) (by decide) (.escaped he (.blank (.escaped hs (.escaped hp .nil))))
  obtain ⟨hd, -⟩ := readEncoded_of_encodes h
  exact ⟨h, (hd 6).trans (if_pos (by decide)), (hd 5).trans (if_neg (by decide))⟩

end Sieve

end QuerySieve
