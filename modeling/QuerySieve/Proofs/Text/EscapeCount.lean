import QuerySieve.Proofs.Text.Percent

/-!
# The number of decoded bytes

An escape is three bytes for one, and all else stands for as many bytes as it has. So the escapes of
a text can be counted to know, without decoding, how many bytes there will be, and whether these are
within the limit.

* `isEscape`, `escapeCount`: the escapes of a text, from left to right.
* `exists_utf8EncodeChar`: the first byte of a character is a digit if the character is one.
* `length_unescaped_escape`, `length_unescaped_cons`: one escape, and one character that begins
  none.
* **`length_unescaped_utf8`**: whole texts.
* **`urlDecode_limit_exact`**: the limit on decoded bytes.
-/

namespace QuerySieve.Text

/-! ## Escapes in a text -/

/-- A hexadecimal digit in either letter case. -/
def isHexDigit (c : Char) : Bool :=
  ('0' ≤ c ∧ c ≤ '9') ∨ ('a' ≤ c ∧ c ≤ 'f') ∨ ('A' ≤ c ∧ c ≤ 'F')

/-- Whether three characters are an escape: `%` and two hexadecimal digits. -/
def isEscape (c h l : Char) : Bool :=
  c = '%' ∧ isHexDigit h ∧ isHexDigit l

/-- The number of escapes, from left to right: the next one is looked for after the three characters
of an escape, and after one character where none begins. -/
def escapeCount : List Char → Nat
  | [] => 0
  | c :: h :: l :: rest =>
    if isEscape c h l then escapeCount rest + 1 else escapeCount (h :: l :: rest)
  | _ :: rest => escapeCount rest

/-- The bytes of an encoding, where an escape counts as one of them instead of three. -/
def unescapedSize (s : String) : Nat :=
  s.utf8ByteSize - 2 * escapeCount s.toList

theorem escapeCount_le (cs : List Char) : 3 * escapeCount cs ≤ cs.length := by
  fun_induction escapeCount cs with
  | case1 => exact Nat.le_refl 0
  | case2 c h l rest he ih =>
    simp only [List.length_cons]
    omega
  | case3 c h l rest he ih =>
    simp only [List.length_cons] at ih ⊢
    omega
  | case4 c rest hr ih =>
    rw [List.length_cons]
    omega

/-! ## Digits as bytes -/

theorem isSome_hexValue? (c : Char) : (hexValue? c).isSome = isHexDigit c := by
  unfold hexValue? isHexDigit
  split_ifs <;> simp_all

theorem hexByte?_of_high {b : UInt8} (h : 0x80 ≤ b.toNat) : hexByte? b = none := by
  have key : ∀ n < 256, 0x80 ≤ n → hexByte? (UInt8.ofNat n) = none := by decide +kernel
  have hb := key b.toNat b.toNat_lt h
  rwa [UInt8.ofNat_toNat] at hb

theorem isHexDigit_of_high {c : Char} (h : 0x80 ≤ c.toNat) : isHexDigit c = false := by
  have hlt : ∀ d : Char, d.toNat < 0x80 → ¬ c ≤ d := fun d hd hc =>
    absurd (UInt32.le_iff_toNat_le.mp hc) (Nat.not_le_of_lt (Nat.lt_of_lt_of_le hd h))
  simp [isHexDigit, hlt '9' (by decide), hlt 'f' (by decide), hlt 'F' (by decide)]

theorem exists_utf8EncodeChar (c : Char) :
    ∃ b bs, String.utf8EncodeChar c = b :: bs ∧ (hexByte? b).isSome = isHexDigit c ∧
      (isHexDigit c = true → bs = []) := by
  by_cases hc : c.toNat < 0x80
  · refine ⟨UInt8.ofNat c.toNat, [], utf8EncodeChar_of_lt hc, ?_, fun _ => rfl⟩
    rw [hexByte?, UInt8.toNat_ofNat_of_lt' (Nat.lt_trans hc (by decide)), Char.ofNat_toNat,
      isSome_hexValue?]
  · have hhigh : 0x80 ≤ c.toNat := Nat.le_of_not_lt hc
    have hd := isHexDigit_of_high hhigh
    obtain ⟨b, bs, he⟩ := List.exists_cons_of_ne_nil (String.utf8EncodeChar_ne_nil (c := c))
    have hb := high_of_mem_utf8EncodeChar hhigh b (he ▸ List.mem_cons_self)
    refine ⟨b, bs, he, ?_, fun h => ?_⟩
    · rw [hexByte?_of_high hb, hd]
      rfl
    · rw [hd] at h
      cases h

theorem ne_percent_of_mem {c : Char} (hc : c ≠ '%') : ∀ b ∈ String.utf8EncodeChar c, b ≠ 0x25 := by
  rintro b hb rfl
  exact hc (Char.toNat_inj.mp (toNat_of_mem_utf8EncodeChar hb (by decide)))

/-! ## Decoded bytes -/

theorem escapedByte?_of_utf8 {cs : List Char} (b : UInt8)
    (hn : ∀ h l rest, cs = h :: l :: rest → isHexDigit h = true → isHexDigit l = false) :
    ∀ x y zs, utf8 cs = x :: y :: zs → escapedByte? b x y = none := by
  intro x y zs he
  cases cs with
  | nil => cases he
  | cons h cs =>
    obtain ⟨x', xs, hx, hxd, hone⟩ := exists_utf8EncodeChar h
    rw [utf8_cons, hx, List.cons_append, List.cons.injEq] at he
    obtain ⟨rfl, he⟩ := he
    cases hh : isHexDigit h with
    | false =>
      rw [hh] at hxd
      exact escapedByte?_eq_none (.inl (by simpa using hxd))
    | true =>
      -- A digit is one byte, so the second byte is the first one of the next character.
      rw [hone hh, List.nil_append] at he
      cases cs with
      | nil => cases he
      | cons l rest =>
        obtain ⟨y', ys, hy, hyd, -⟩ := exists_utf8EncodeChar l
        rw [utf8_cons, hy, List.cons_append, List.cons.injEq] at he
        obtain ⟨rfl, -⟩ := he
        rw [hn h l rest rfl hh] at hyd
        exact escapedByte?_eq_none (.inr (by simpa using hyd))

theorem length_unescaped_plain {bs : List UInt8} (h : ∀ b ∈ bs, b ≠ 0x25) (xs : List UInt8) :
    (unescaped (bs ++ xs)).length = bs.length + (unescaped xs).length := by
  induction bs with
  | nil => exact (Nat.zero_add _).symm
  | cons b bs ih =>
    have hbs : ∀ d ∈ bs, d ≠ 0x25 := fun d hd => h d (List.mem_cons_of_mem _ hd)
    rw [List.cons_append, unescaped_plain (h b List.mem_cons_self), List.length_cons, ih hbs,
      List.length_cons]
    omega

/-- **One escape** is three bytes, and gives one. -/
theorem length_unescaped_escape {c h l : Char} (he : isEscape c h l = true) (rest : List Char) :
    (unescaped (utf8 (c :: h :: l :: rest))).length = 1 + (unescaped (utf8 rest)).length ∧
      (utf8 (c :: h :: l :: rest)).length = 3 + (utf8 rest).length := by
  obtain ⟨rfl, hh, hl⟩ : c = '%' ∧ isHexDigit h = true ∧ isHexDigit l = true := by
    simpa [isEscape] using he
  obtain ⟨x, xs, hx, hxd, hone⟩ := exists_utf8EncodeChar h
  obtain ⟨y, ys, hy, hyd, hone'⟩ := exists_utf8EncodeChar l
  have hp : String.utf8EncodeChar '%' = [0x25] := by decide
  have hu : utf8 ('%' :: h :: l :: rest) = 0x25 :: x :: y :: utf8 rest := by
    rw [utf8_cons, utf8_cons, utf8_cons, hp, hx, hy, hone hh, hone' hl]
    rfl
  have hb : ∃ b, escapedByte? 0x25 x y = some b := by
    obtain ⟨v, hv⟩ := Option.isSome_iff_exists.mp (hxd.trans hh)
    obtain ⟨w, hw⟩ := Option.isSome_iff_exists.mp (hyd.trans hl)
    exact ⟨UInt8.ofNat (16 * v + w), by simp [escapedByte?, hv, hw]⟩
  obtain ⟨b, hb⟩ := hb
  rw [hu, unescaped_escaped hb]
  simp only [List.length_cons]
  omega

/-- **One character** that begins no escape gives its bytes. -/
theorem length_unescaped_cons (c : Char) (cs : List Char)
    (hn : ∀ h l rest, cs = h :: l :: rest → isEscape c h l = false) :
    (unescaped (utf8 (c :: cs))).length =
      (String.utf8EncodeChar c).length + (unescaped (utf8 cs)).length := by
  rw [utf8_cons]
  by_cases hc : c = '%'
  · subst hc
    have hp : String.utf8EncodeChar '%' = [0x25] := by decide
    have hd : ∀ h l rest, cs = h :: l :: rest → isHexDigit h = true → isHexDigit l = false := by
      intro h l rest he hh
      simpa [isEscape, hh] using hn h l rest he
    rw [hp, List.singleton_append, unescaped_cons (escapedByte?_of_utf8 0x25 hd)]
    simp only [List.length_cons, List.length_nil]
    omega
  · exact length_unescaped_plain (ne_percent_of_mem hc) _

/-- **The bytes behind a text** are its own, less two for each escape. -/
theorem length_unescaped_utf8 (cs : List Char) :
    (unescaped (utf8 cs)).length + 2 * escapeCount cs = (utf8 cs).length := by
  fun_induction escapeCount cs with
  | case1 => rfl
  | case2 c h l rest he ih =>
    obtain ⟨hu, hl⟩ := length_unescaped_escape he rest
    omega
  | case3 c h l rest he ih =>
    have hu := length_unescaped_cons c (h :: l :: rest) fun _ _ _ e => by
      cases e
      simpa using he
    rw [hu, utf8_cons c, List.length_append]
    omega
  | case4 c rest hr ih =>
    have hu := length_unescaped_cons c rest fun h l tail e => absurd e (hr h l tail)
    rw [hu, utf8_cons, List.length_append]
    omega

theorem length_decodedBytes (s : String) : (decodedBytes s).length = unescapedSize s := by
  have h := length_unescaped_utf8 s.toList
  rw [length_utf8] at h
  rw [decodedBytes, unescapedSize]
  omega

/-- **The limit on decoded bytes is exact.** A text is refused if and only if its bytes, less two
for each escape, are more than the limit, and all limits that let it through give the same text. -/
theorem urlDecode_limit_exact (s : String) :
    3 * escapeCount s.toList ≤ s.utf8ByteSize ∧
      (∀ max, urlDecode s max = .error (.tooLong max) ↔ max < unescapedSize s) ∧
      (∀ max max', unescapedSize s ≤ max → unescapedSize s ≤ max' →
        urlDecode s max = urlDecode s max') ∧
      ∃ text, ∀ max, unescapedSize s ≤ max → urlDecode s max = .ok text := by
  have within : ∀ max, unescapedSize s ≤ max → urlDecode s max = .ok (decoded s) := by
    intro max h
    rw [urlDecode_eq, length_decodedBytes, if_pos h]
  refine ⟨?_, fun max => ⟨fun he => ?_, fun h => ?_⟩, fun max max' h h' => ?_, decoded s, within⟩
  · have h₁ := escapeCount_le s.toList
    have h₂ := length_le_length_utf8 s.toList
    rw [length_utf8] at h₂
    omega
  · by_contra h
    rw [within max (Nat.le_of_not_lt h)] at he
    cases he
  · rw [urlDecode_eq, length_decodedBytes, if_neg (Nat.not_le_of_lt h)]
  · rw [within max h, within max' h']

/-- A `%` before an escape, and an escape that is cut off at the end. -/
theorem urlDecode_limit_exact_cut :
    unescapedSize "%%41é%2" = 6 ∧ urlDecode "%%41é%2" 5 = .error (.tooLong 5) ∧
      urlDecode "%%41é%2" 6 = .ok "%Aé%2" ∧ urlDecode "%%41é%2" 6 = urlDecode "%%41é%2" 4096 := by
  have hn : unescapedSize "%%41é%2" = 6 := by decide +kernel
  have hd : urlDecode "%%41é%2" 6 = .ok "%Aé%2" := by decide +kernel
  obtain ⟨-, he, hs, -⟩ := urlDecode_limit_exact "%%41é%2"
  rw [hn] at he hs
  exact ⟨hn, (he 5).mpr (by decide), hd, hs 6 4096 (by decide) (by decide)⟩

end QuerySieve.Text
