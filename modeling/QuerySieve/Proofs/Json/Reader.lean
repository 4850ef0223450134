import Mathlib.Data.List.DropRight
import Mathlib.Data.List.TakeWhile
import Mathlib.Tactic.Common
import QuerySieve.Proofs.Json.Grammar
import QuerySieve.Proofs.Text.Readable

/-!
# Every text of the grammar is read

The reader finds the value of each text that the grammar allows, whatever blanks, escapes and
spellings of numbers it has. So a text writes one value at most.

* `readUnits_spells`, `readString_of_writesString`: strings.
* `readNumber_of_writesNumber`: numbers, before a rest that does not go on with the number.
* `readValue_list`, `readItems_cons`, `readMembers_cons` and the like: one call of the reader.
* `Phrase.IsRead`, `Derives.isRead`: phrases, before what can follow them.
* **`Value.read?_of_written`**, **`Value.Written.unique`**: whole texts.
-/

namespace QuerySieve.Json

/-! ## Blanks -/

theorem skipSpace_blank {a : List Char} (ha : IsBlank a) (cs : List Char) :
    skipSpace (a ++ cs) = skipSpace cs :=
  List.dropWhile_append_of_pos ha

theorem skipSpace_cons {c : Char} (h : isSpace c = false) (cs : List Char) :
    skipSpace (c :: cs) = c :: cs :=
  List.dropWhile_cons_of_neg (by rw [h]; exact Bool.false_ne_true)

theorem skipSpace_skipSpace (cs : List Char) : skipSpace (skipSpace cs) = skipSpace cs :=
  List.dropWhile_idempotent ..

theorem readValue_skipSpace (fuel : Nat) (cs : List Char) :
    readValue fuel (skipSpace cs) = readValue fuel cs := by
  cases fuel with
  | zero => rfl
  | succ fuel => rw [readValue, readValue, skipSpace_skipSpace]

theorem readItems_skipSpace (fuel : Nat) (cs : List Char) :
    readItems fuel (skipSpace cs) = readItems fuel cs := by
  cases fuel with
  | zero => rfl
  | succ fuel => rw [readItems, readItems, readValue_skipSpace]

theorem readMembers_skipSpace (fuel : Nat) (cs : List Char) :
    readMembers fuel (skipSpace cs) = readMembers fuel cs := by
  cases fuel with
  | zero => rfl
  | succ fuel => rw [readMembers, readMembers, skipSpace_skipSpace]

/-! ## Strings -/

theorem shortEscape?_of_mem {e c : Char} (h : (e, c) ∈ escapeLetters) :
    shortEscape? e = some c ∧ e ≠ 'u' := by
  have all : ∀ p ∈ escapeLetters, shortEscape? p.1 = some p.2 ∧ p.1 ≠ 'u' := by decide
  exact all (e, c) h

theorem joinUnits_code {n : Nat} (high : isHighHalf n = false) (low : isLowHalf n = false)
    (us : List StringUnit) :
    joinUnits (.code n :: us) = (joinUnits us).map (Char.ofNat n :: ·) := by
  cases us with
  | nil => simp [joinUnits, high, low]
  | cons u us => cases u <;> simp [joinUnits, high, low]

theorem joinUnits_pair {n m : Nat} (high : isHighHalf n = true) (low : isLowHalf m = true)
    (us : List StringUnit) :
    joinUnits (.code n :: .code m :: us) =
      (joinUnits us).map (Char.ofNat (0x10000 + (n - 0xD800) * 0x400 + (m - 0xDC00)) :: ·) := by
  simp [joinUnits, high, low]

theorem readUnits_code {ds : List Char} {n : Nat} (h : IsHex4 ds n) (cs : List Char) :
    readUnits ('\\' :: 'u' :: (ds ++ cs)) = (readUnits cs).map fun p => (.code n :: p.1, p.2) := by
  obtain ⟨hl, hn⟩ := h
  match ds, hl with
  | [a, b, c, d], _ =>
    rw [List.cons_append, List.cons_append, List.cons_append, List.cons_append, List.nil_append,
      readUnits, hn]
    cases readUnits cs <;> rfl

/-- **One character**, from its units. -/
theorem readUnits_spells {p : List Char} {c : Char} (h : Spells p c) :
    ∃ us, (∀ cs, readUnits (p ++ cs) = (readUnits cs).map fun q => (us ++ q.1, q.2)) ∧
      ∀ vs, joinUnits (us ++ vs) = (joinUnits vs).map (c :: ·) := by
  cases h with
  | plain control quote backslash =>
    refine ⟨[.char c], fun cs => ?_, fun vs => rfl⟩
    have hc : ¬ (c.toNat < 0x20 ∨ c = '\\') := by
      rintro (h | h)
      · omega
      · exact backslash h
    rw [List.singleton_append, readUnits.eq_def]
    split
    · contradiction
    · next h => cases h; exact absurd rfl quote
    · next h => cases h; exact absurd rfl backslash
    · next h => cases h; exact absurd rfl backslash
    · next h =>
      cases h
      rw [if_neg hc]
      cases readUnits cs <;> rfl
  | @letter e c h =>
    obtain ⟨he, hu⟩ := shortEscape?_of_mem h
    refine ⟨[.char c], fun cs => ?_, fun vs => rfl⟩
    rw [List.cons_append, List.singleton_append, readUnits.eq_def]
    split
    · contradiction
    · next h => cases h
    · next h => cases h; exact absurd rfl hu
    · next h =>
      cases h
      rw [he]
      cases readUnits cs <;> rfl
    · next hb h => cases h; exact (hb _ _ rfl rfl).elim
  | @code ds n h high low =>
    exact ⟨[.code n], fun cs => readUnits_code h cs, fun vs => joinUnits_code high low vs⟩
  | @pair ds es n m hn hm high low =>
    refine ⟨[.code n, .code m], fun cs => ?_, fun vs => joinUnits_pair high low vs⟩
    have hcs : '\\' :: 'u' :: (ds ++ '\\' :: 'u' :: es) ++ cs =
        '\\' :: 'u' :: (ds ++ '\\' :: 'u' :: (es ++ cs)) := by simp
    rw [hcs, readUnits_code hn, readUnits_code hm]
    cases readUnits cs <;> rfl

/-- **A string** is read up to its closing quote. -/
theorem readString_of_writesString {cs : List Char} {s : String} (h : WritesString cs s) :
    ∃ body, cs = '"' :: body ∧ ∀ rest, readString (body ++ rest) = some (s, rest) := by
  obtain ⟨parts, hp, rfl⟩ := h
  refine ⟨_, rfl, fun rest => ?_⟩
  have key : ∃ us, readUnits (parts.flatten ++ ('"' :: rest)) = some (us, rest) ∧
      joinUnits us = some s.toList := by
    generalize s.toList = cs at hp
    induction hp with
    | nil => exact ⟨[], rfl, rfl⟩
    | @cons p c parts cs hc hp ih =>
      obtain ⟨us, hr, hj⟩ := ih
      obtain ⟨vs, hvr, hvj⟩ := readUnits_spells hc
      refine ⟨vs ++ us, ?_, ?_⟩
      · rw [List.flatten_cons, List.append_assoc, hvr, hr]
        rfl
      · rw [hvj, hj]
        rfl
  obtain ⟨us, hr, hj⟩ := key
  rw [readString, List.append_assoc, List.singleton_append, hr]
  simp [hj]

/-! ## Numbers -/

/-- Whether a text is empty or begins with one of some characters. -/
def HeadIn (xs cs : List Char) : Prop :=
  ∀ c ∈ cs.head?, c ∈ xs

/-- The characters that can follow a value. -/
def closers : List Char := [' ', '\n', '\r', '\t', ',', ']', '\x7d']

/-- The characters that can follow the digits in front, where the text after the number is given. -/
def afterDigits : List Char := '.' :: 'e' :: 'E' :: closers

/-- The characters that can follow the fraction. -/
def afterFraction : List Char := 'e' :: 'E' :: closers

theorem spanDigits_append {ds rest : List Char} (hd : ∀ c ∈ ds, c.isDigit = true)
    (hr : HeadIn afterDigits rest) : spanDigits (ds ++ rest) = (ds, rest) := by
  have hs : ∀ c ∈ afterDigits, ¬ c.isDigit = true := Text.forall_mem_of_all (by decide)
  rw [spanDigits, List.takeWhile_append_of_pos hd, List.dropWhile_append_of_pos hd]
  cases rest with
  | nil => simp
  | cons c rest => simp [hs c (hr c rfl)]

theorem readDigits_append {ds rest : List Char} (hd : IsDigits ds) (hr : HeadIn afterDigits rest) :
    readDigits (ds ++ rest) = some (ds, rest) := by
  simp [readDigits, spanDigits_append hd.2 hr, hd.1]

theorem HeadIn.afterDigits {cs : List Char} (h : HeadIn afterFraction cs) :
    HeadIn afterDigits cs :=
  fun c hc => List.mem_cons_of_mem _ (h c hc)

theorem HeadIn.afterFraction {cs : List Char} (h : HeadIn closers cs) : HeadIn afterFraction cs :=
  fun c hc => List.mem_cons_of_mem _ (List.mem_cons_of_mem _ (h c hc))

theorem headIn_exponent {cs rest : List Char} (h : IsExponent cs) (hr : HeadIn closers rest) :
    HeadIn afterFraction (cs ++ rest) := by
  obtain rfl | ⟨e, sign, ds, he, -, -, rfl⟩ := h
  · exact hr.afterFraction
  · rintro c ⟨⟩
    obtain rfl | rfl := he <;> decide

theorem headIn_fraction {cs rest : List Char} (h : IsFraction cs)
    (hr : HeadIn afterFraction rest) : HeadIn afterDigits (cs ++ rest) := by
  obtain rfl | ⟨ds, -, rfl⟩ := h
  · exact hr.afterDigits
  · rintro c ⟨⟩
    decide

theorem readFraction_append {cs rest : List Char} (h : IsFraction cs)
    (hr : HeadIn afterFraction rest) : readFraction (cs ++ rest) = some (cs, rest) := by
  obtain rfl | ⟨ds, hd, rfl⟩ := h
  · rw [List.nil_append]
    cases rest with
    | nil => rfl
    | cons c rest =>
      rw [readFraction.eq_def]
      split
      · next hc =>
        cases hc
        exact absurd (hr '.' rfl) (by decide)
      · rfl
  · rw [List.cons_append, readFraction, readDigits_append hd hr.afterDigits]
    rfl

theorem readSign_append {sign ds rest : List Char}
    (hs : sign = [] ∨ sign = ['+'] ∨ sign = ['-']) (hd : IsDigits ds) :
    readSign (sign ++ (ds ++ rest)) = (sign, ds ++ rest) := by
  obtain rfl | rfl | rfl := hs
  · obtain ⟨d, ds, rfl⟩ := List.exists_cons_of_ne_nil hd.1
    have hc : d.isDigit = true := hd.2 d List.mem_cons_self
    rw [List.nil_append, List.cons_append, readSign.eq_def]
    split
    · next h => cases h; exact absurd hc (by decide)
    · next h => cases h; exact absurd hc (by decide)
    · rfl
  · rfl
  · rfl

theorem readExponent_append {cs rest : List Char} (h : IsExponent cs) (hr : HeadIn closers rest) :
    readExponent (cs ++ rest) = some (cs, rest) := by
  obtain rfl | ⟨e, sign, ds, he, hs, hd, rfl⟩ := h
  · cases rest with
    | nil => rfl
    | cons c rest =>
      have hc : ∀ x ∈ closers, ¬ (x = 'e' ∨ x = 'E') := Text.forall_mem_of_all (by decide)
      rw [List.nil_append, readExponent, if_neg (hc c (hr c rfl))]
  · rw [List.cons_append, readExponent, if_pos he, List.append_assoc, readSign_append hs hd]
    simp [readDigits_append hd hr.afterFraction.afterDigits]

theorem isDigit_head {ds : List Char} (h : IsDigits ds) (rest : List Char) :
    ∃ c cs, ds ++ rest = c :: cs ∧ c.isDigit = true := by
  obtain ⟨c, ds, rfl⟩ := List.exists_cons_of_ne_nil h.1
  exact ⟨c, ds ++ rest, rfl, h.2 c List.mem_cons_self⟩

/-- **A number** is read before what can follow a value. -/
theorem readNumber_of_writesNumber {cs : List Char} {v : Value} (h : WritesNumber cs v)
    {rest : List Char} (hr : HeadIn closers rest) : readNumber (cs ++ rest) = some (v, rest) := by
  obtain ⟨negative, hd, zero, hf, he⟩ := h
  rename_i digits fraction exponent
  have unsigned : readUnsigned negative (digits ++ (fraction ++ (exponent ++ rest))) =
      some (numberValue negative digits (fraction ++ exponent), rest) := by
    have hx := headIn_exponent he hr
    have hz : ¬ (1 < digits.length ∧ digits.head? = some '0') := by
      rintro ⟨hl, hh⟩
      have := zero hh
      omega
    rw [readUnsigned, readDigits_append hd (headIn_fraction hf hx)]
    simp [readFraction_append hf hx, readExponent_append he hr, hz]
  rw [List.append_assoc, List.append_assoc, List.append_assoc]
  cases negative with
  | true => exact unsigned
  | false =>
    obtain ⟨c, cs, hc, hdig⟩ := isDigit_head hd (fraction ++ (exponent ++ rest))
    rw [minusSign, if_neg Bool.false_ne_true, List.nil_append]
    rw [hc] at unsigned ⊢
    rw [readNumber.eq_def]
    split
    · next h => cases h; exact absurd hdig (by decide)
    · exact unsigned

/-! ## Values -/

theorem readValue_number (fuel : Nat) {cs : List Char} {v : Value} (h : WritesNumber cs v)
    (rest : List Char) : readValue (fuel + 1) (cs ++ rest) = readNumber (cs ++ rest) := by
  have head : ∃ c ds, cs ++ rest = c :: ds ∧ (c = '-' ∨ c.isDigit = true) := by
    obtain ⟨negative, hd, -, -, -⟩ := h
    cases negative with
    | true => exact ⟨'-', _, rfl, .inl rfl⟩
    | false =>
      rename_i digits fraction exponent
      obtain ⟨c, ds, hc, hdig⟩ := isDigit_head hd (fraction ++ exponent ++ rest)
      refine ⟨c, ds, ?_, .inr hdig⟩
      rw [← hc, minusSign, if_neg Bool.false_ne_true, List.nil_append, List.append_assoc]
  obtain ⟨c, ds, hc, hsign⟩ := head
  have other : ∀ x ∈ [' ', '\n', '\r', '\t', '"', '[', '\x7b', 'n', 't', 'f'],
      ¬ (x = '-' ∨ x.isDigit = true) := Text.forall_mem_of_all (by decide)
  have hspace : isSpace c = false := by
    by_contra hs
    simp only [isSpace, Bool.not_eq_false, Bool.or_eq_true, decide_eq_true_eq] at hs
    obtain ((rfl | rfl) | rfl) | rfl := hs <;> exact other _ (by decide) hsign
  rw [hc, readValue, skipSpace_cons hspace]
  split <;> first | rfl | (next h => cases h; exact absurd hsign (other _ (by decide)))

theorem readValue_string {fuel : Nat} {body rest : List Char} {s : String}
    (h : readString body = some (s, rest)) :
    readValue (fuel + 1) ('"' :: body) = some (.str s, rest) := by
  rw [readValue, skipSpace_cons rfl]
  simp only
  rw [h]
  rfl

theorem readItems_close (fuel : Nat) (cs : List Char) : readItems fuel (']' :: cs) = none := by
  match fuel with
  | 0 => rfl
  | 1 => rfl
  | fuel + 2 => rfl

theorem readMembers_close (fuel : Nat) (cs : List Char) :
    readMembers fuel ('\x7d' :: cs) = none := by
  match fuel with
  | 0 => rfl
  | fuel + 1 => rfl

theorem readValue_emptyList (fuel : Nat) {a : List Char} (ha : IsBlank a) (rest : List Char) :
    readValue (fuel + 1) ('[' :: (a ++ ']' :: rest)) = some (.arr [], rest) := by
  rw [readValue, skipSpace_cons rfl]
  simp only
  rw [skipSpace_blank ha, skipSpace_cons rfl]
  rfl

theorem readValue_emptyObject (fuel : Nat) {a : List Char} (ha : IsBlank a) (rest : List Char) :
    readValue (fuel + 1) ('\x7b' :: (a ++ '\x7d' :: rest)) = some (.obj [], rest) := by
  rw [readValue, skipSpace_cons rfl]
  simp only
  rw [skipSpace_blank ha, skipSpace_cons rfl]
  rfl

theorem readValue_list {fuel : Nat} {cs rest : List Char} {vs : List Value}
    (h : readItems fuel cs = some (vs, rest)) :
    readValue (fuel + 1) ('[' :: cs) = some (.arr vs, rest) := by
  rw [← readItems_skipSpace] at h
  rw [readValue, skipSpace_cons rfl]
  simp only
  split
  · next hc => rw [hc, readItems_close] at h; cases h
  · rw [h]; rfl

theorem readValue_object {fuel : Nat} {cs rest : List Char} {ms : List (String × Value)}
    (h : readMembers fuel cs = some (ms, rest)) :
    readValue (fuel + 1) ('\x7b' :: cs) = some (.obj ms, rest) := by
  rw [← readMembers_skipSpace] at h
  rw [readValue, skipSpace_cons rfl]
  simp only
  split
  · next hc => rw [hc, readMembers_close] at h; cases h
  · rw [h]; rfl

/-- That a member is read from the front of a text, up to the rest after its value. -/
def ReadsMember (fuel : Nat) (cs : List Char) (m : String × Value) (after : List Char) : Prop :=
  ∃ quoted colon named, skipSpace cs = '"' :: quoted ∧ readString quoted = some (m.1, colon) ∧
    skipSpace colon = ':' :: named ∧ readValue fuel named = some (m.2, after)

section Step

variable {fuel : Nat} {cs after next rest : List Char}

theorem readItems_last {v : Value} (hv : readValue fuel cs = some (v, after))
    (ha : skipSpace after = ']' :: rest) : readItems (fuel + 1) cs = some ([v], rest) := by
  rw [readItems, hv]
  simp [ha]

theorem readItems_cons {v : Value} {vs : List Value} (hv : readValue fuel cs = some (v, after))
    (ha : skipSpace after = ',' :: next) (hs : readItems fuel next = some (vs, rest)) :
    readItems (fuel + 1) cs = some (v :: vs, rest) := by
  rw [readItems, hv]
  simp [ha, hs]

theorem readMembers_last {m : String × Value} (hm : ReadsMember fuel cs m after)
    (ha : skipSpace after = '\x7d' :: rest) : readMembers (fuel + 1) cs = some ([m], rest) := by
  obtain ⟨quoted, colon, named, hq, hs, hc, hv⟩ := hm
  rw [readMembers, hq]
  simp [hs, hc, hv, ha]

theorem readMembers_cons {m : String × Value} {ms : List (String × Value)}
    (hm : ReadsMember fuel cs m after) (ha : skipSpace after = ',' :: next)
    (hs : readMembers fuel next = some (ms, rest)) :
    readMembers (fuel + 1) cs = some (m :: ms, rest) := by
  obtain ⟨quoted, colon, named, hq, hn, hc, hv⟩ := hm
  rw [readMembers, hq]
  simp [hn, hc, hv, ha, hs]

end Step

/-! ## Phrases -/

theorem headIn_blank {b rest : List Char} (hb : IsBlank b) (hr : HeadIn closers rest) :
    HeadIn closers (b ++ rest) := by
  cases b with
  | nil => exact hr
  | cons c b =>
    rintro _ ⟨⟩
    have hc := hb c List.mem_cons_self
    simp only [isSpace, Bool.or_eq_true, decide_eq_true_eq] at hc
    simp only [closers, List.mem_cons]
    tauto

/-- That the reader reads a phrase, before what can follow it. Two calls for each character are
enough, as each bracket and each comma goes with two calls at most. -/
def Phrase.IsRead : Phrase → List Char → Prop
  | .value v, cs => ∀ fuel rest, 2 * cs.length ≤ fuel → HeadIn closers rest →
      readValue (fuel + 1) (cs ++ rest) = some (v, rest)
  | .padded v, cs => ∀ fuel rest, 2 * cs.length ≤ fuel → HeadIn closers rest →
      ∃ after, readValue (fuel + 1) (cs ++ rest) = some (v, after) ∧
        skipSpace after = skipSpace rest
  | .items vs, cs => ∀ fuel rest, 2 * cs.length ≤ fuel →
      readItems (fuel + 2) (cs ++ ']' :: rest) = some (vs, rest)
  | .member m, cs => ∀ fuel rest, 2 * cs.length ≤ fuel → HeadIn closers rest →
      ∃ after, ReadsMember (fuel + 1) (cs ++ rest) m after ∧ skipSpace after = skipSpace rest
  | .members ms, cs => ∀ fuel rest, 2 * cs.length ≤ fuel →
      readMembers (fuel + 2) (cs ++ '\x7d' :: rest) = some (ms, rest)

/-- **Every phrase is read.** -/
theorem Derives.isRead {p : Phrase} {cs : List Char} (h : Derives p cs) : p.IsRead cs := by
  induction h with
  | null | true | false =>
    intro fuel rest _ _
    rfl
  | number h =>
    intro fuel rest _ hr
    rw [readValue_number fuel h, readNumber_of_writesNumber h hr]
  | string h =>
    intro fuel rest _ _
    obtain ⟨body, rfl, hs⟩ := readString_of_writesString h
    exact readValue_string (hs rest)
  | emptyList ha =>
    intro fuel rest _ _
    rw [List.cons_append, List.append_assoc]
    exact readValue_emptyList fuel ha rest
  | emptyObject ha =>
    intro fuel rest _ _
    rw [List.cons_append, List.append_assoc]
    exact readValue_emptyObject fuel ha rest
  | list _ ih =>
    intro fuel rest hf _
    obtain ⟨n, rfl⟩ : ∃ n, fuel = n + 2 := ⟨fuel - 2, by simp at hf; omega⟩
    rw [List.cons_append, List.append_assoc]
    exact readValue_list (ih n rest (by simp at hf; omega))
  | object _ ih =>
    intro fuel rest hf _
    obtain ⟨n, rfl⟩ : ∃ n, fuel = n + 2 := ⟨fuel - 2, by simp at hf; omega⟩
    rw [List.cons_append, List.append_assoc]
    exact readValue_object (ih n rest (by simp at hf; omega))
  | @pad a b cs v ha hb _ ih =>
    intro fuel rest hf hr
    have hread := ih fuel (b ++ rest) (by simp at hf; omega) (headIn_blank hb hr)
    refine ⟨b ++ rest, ?_, skipSpace_blank hb rest⟩
    rw [← readValue_skipSpace, List.append_assoc, List.append_assoc, skipSpace_blank ha,
      readValue_skipSpace, hread]
  | item _ ih =>
    intro fuel rest hf
    obtain ⟨after, hv, ha⟩ := ih fuel (']' :: rest) hf (by rintro _ ⟨⟩; decide)
    exact readItems_last hv (ha.trans (skipSpace_cons rfl _))
  | @consItem cs ds v vs _ _ ihv ihs =>
    intro fuel rest hf
    simp only [List.length_append, List.length_cons] at hf
    obtain ⟨n, rfl⟩ : ∃ n, fuel = n + 1 := ⟨fuel - 1, by omega⟩
    obtain ⟨after, hv, ha⟩ := ihv (n + 1) (',' :: (ds ++ ']' :: rest)) (by omega)
      (by rintro _ ⟨⟩; decide)
    rw [List.append_assoc, List.cons_append]
    exact readItems_cons hv (ha.trans (skipSpace_cons rfl _)) (ihs n rest (by omega))
  | @named a b ns cs name v ha hb hn _ ih =>
    intro fuel rest hf hr
    simp only [List.length_append, List.length_cons] at hf
    obtain ⟨body, rfl, hs⟩ := readString_of_writesString hn
    obtain ⟨after, hv, hafter⟩ := ih fuel rest (by omega) hr
    refine ⟨after, ⟨body ++ (b ++ ':' :: (cs ++ rest)), b ++ ':' :: (cs ++ rest), cs ++ rest, ?_,
      hs _, ?_, hv⟩, hafter⟩
    · rw [List.append_assoc, skipSpace_blank ha, List.cons_append, List.cons_append,
        skipSpace_cons rfl]
      simp
    · rw [skipSpace_blank hb, skipSpace_cons rfl]
  | lastMember _ ih =>
    intro fuel rest hf
    obtain ⟨after, hm, ha⟩ := ih fuel ('\x7d' :: rest) hf (by rintro _ ⟨⟩; decide)
    exact readMembers_last hm (ha.trans (skipSpace_cons rfl _))
  | @consMember cs ds m ms _ _ ihm ihs =>
    intro fuel rest hf
    simp only [List.length_append, List.length_cons] at hf
    obtain ⟨n, rfl⟩ : ∃ n, fuel = n + 1 := ⟨fuel - 1, by omega⟩
    obtain ⟨after, hm, ha⟩ := ihm (n + 1) (',' :: (ds ++ '\x7d' :: rest)) (by omega)
      (by rintro _ ⟨⟩; decide)
    rw [List.append_assoc, List.cons_append]
    exact readMembers_cons hm (ha.trans (skipSpace_cons rfl _)) (ihs n rest (by omega))

namespace Value

/-- **Every text of a value is read** as that value. -/
theorem read?_of_written {v : Value} {text : String} (h : v.Written text) :
    read? text = some v := by
  obtain ⟨after, hv, ha⟩ := h.isRead (2 * text.toList.length) [] (Nat.le_refl _)
    (by rintro _ ⟨⟩)
  have hrest : skipSpace after = [] := ha
  rw [List.append_nil] at hv
  simp only [read?, hv, hrest]
  rfl

/-- **A text writes one value** at most. -/
theorem Written.unique {v w : Value} {text : String} (hv : v.Written text) (hw : w.Written text) :
    v = w :=
  Option.some.inj ((read?_of_written hv).symm.trans (read?_of_written hw))

theorem Written.iff_eq {v : Value} {text : String} (hv : v.Written text) (w : Value) :
    w.Written text ↔ w = v :=
  ⟨fun hw => hw.unique hv, fun he => he ▸ hv⟩

end Value

end QuerySieve.Json
