import Mathlib.Data.Nat.Digits.Defs
import QuerySieve.Limits
import QuerySieve.Proofs.Text.Trim

/-!
# Bounds from the environment

A variable sets a bound with a positive decimal number that fits into a machine word; a plus sign and
blanks may stand around it. Any other text leaves the built-in bound. Numbers are read as they are
and compared with the largest word at the end. A word that takes in one digit after the other and
gives up where it would wrap around reads the same numbers: what is too large stays so.

* `decimalValue`, `Numeral`, `Sets`: digits by their places, and the texts that set a bound.
* `number?_eq_some_iff`, **`bound?_eq_some_iff`**: what is read of a text.
* `pushDigit?`, **`foldlM_pushDigit?`**: digits taken into a word.
* **`ofEnvironment_sets_bounds`**: the bounds of an environment.
-/

namespace QuerySieve.Limits

open Text

/-! ## Decimal numbers -/

/-- The value of decimal digits, each by its place from the end. -/
def decimalValue (digits : List Char) : Nat :=
  Nat.ofDigits 10 (digits.reverse.map fun c => c.toNat - '0'.toNat)

/-- Decimal digits, of which there is one at least, after a plus sign at most. -/
inductive Numeral : List Char → Nat → Prop
  | plain {digits : List Char} (hne : digits ≠ []) (hd : ∀ c ∈ digits, c.isDigit = true) :
      Numeral digits (decimalValue digits)
  | signed {digits : List Char} (hne : digits ≠ []) (hd : ∀ c ∈ digits, c.isDigit = true) :
      Numeral ('+' :: digits) (decimalValue digits)

/-- The texts that set a bound: a positive number that fits into a machine word, with blanks around
it at most. -/
def Sets (text : String) (n : Nat) : Prop :=
  ∃ front numeral back, text.toList = front ++ numeral ++ back ∧
    (∀ c ∈ front ++ back, isBlank c = true) ∧ Numeral numeral n ∧ 0 < n ∧ n < UInt64.size

theorem ofDigitChars_eq_decimalValue (digits : List Char) :
    Nat.ofDigitChars 10 digits 0 = decimalValue digits := by
  induction digits with
  | nil => rfl
  | cons c digits ih =>
    rw [Nat.ofDigitChars_cons, Nat.ofDigitChars_eq_ofDigitChars_zero, ih, decimalValue,
      decimalValue, List.reverse_cons, List.map_append, Nat.ofDigits_append, List.map_singleton,
      Nat.ofDigits_singleton, List.length_map, List.length_reverse, ← decimalValue, Nat.mul_zero,
      Nat.zero_add, Nat.add_comm]

theorem isBlank_eq_false_of_isDigit {c : Char} (h : c.isDigit = true) : isBlank c = false := by
  obtain ⟨hlow, hhigh⟩ := Char.isDigit_iff_toNat.mp h
  have hlow : 0x30 ≤ c.toNat := hlow
  have hhigh : c.toNat ≤ 0x39 := hhigh
  refine Bool.eq_false_iff.mpr fun hb => ?_
  simp only [isBlank, Bool.or_eq_true, Bool.and_eq_true, decide_eq_true_eq, beq_iff_eq] at hb
  omega

namespace Numeral

variable {cs : List Char} {n : Nat}

theorem ne_nil (h : Numeral cs n) : cs ≠ [] := by
  cases h with
  | plain hne hd => exact hne
  | signed hne hd => exact List.cons_ne_nil _ _

theorem isBlank_eq_false (h : Numeral cs n) : ∀ c ∈ cs, isBlank c = false := by
  cases h with
  | plain hne hd => exact fun c hc => isBlank_eq_false_of_isDigit (hd c hc)
  | signed hne hd =>
    refine List.forall_mem_cons.mpr ⟨by decide, fun c hc => ?_⟩
    exact isBlank_eq_false_of_isDigit (hd c hc)

end Numeral

/-! ## What is read -/

/-- The number that digits write without a sign. -/
def unsigned? (digits : List Char) : Option Nat :=
  if digits.isEmpty || !digits.all Char.isDigit then none
  else if Nat.ofDigitChars 10 digits 0 < range then some (Nat.ofDigitChars 10 digits 0)
  else none

theorem number?_signed (digits : List Char) : number? ('+' :: digits) = unsigned? digits :=
  rfl

theorem number?_plain {cs : List Char} (h : cs.head? ≠ some '+') : number? cs = unsigned? cs := by
  unfold number?
  split
  · exact absurd rfl h
  · rfl

theorem unsigned?_eq_some_iff {digits : List Char} {n : Nat} :
    unsigned? digits = some n ↔
      (digits ≠ [] ∧ ∀ c ∈ digits, c.isDigit = true) ∧ decimalValue digits = n ∧ n < range := by
  have hdigits : (digits.isEmpty || !digits.all Char.isDigit) = true ↔
      ¬ (digits ≠ [] ∧ ∀ c ∈ digits, c.isDigit = true) := by
    rw [Bool.or_eq_true, List.isEmpty_iff, Bool.not_eq_true', ← Bool.not_eq_true, List.all_eq_true,
      not_and_or, ne_eq, not_not]
  rw [unsigned?, ofDigitChars_eq_decimalValue]
  by_cases hd : digits ≠ [] ∧ ∀ c ∈ digits, c.isDigit = true
  · rw [if_neg (by rw [hdigits, not_not]; exact hd)]
    split_ifs with hr
    · rw [Option.some.injEq]
      exact ⟨fun he => ⟨hd, he, he ▸ hr⟩, fun h => h.2.1⟩
    · exact ⟨fun he => (by cases he), fun ⟨_, he, hn⟩ => absurd (he ▸ hn) hr⟩
  · rw [if_pos (hdigits.mpr hd)]
    exact ⟨fun he => (by cases he), fun h => absurd h.1 hd⟩

theorem number?_eq_some_iff {cs : List Char} {n : Nat} :
    number? cs = some n ↔ Numeral cs n ∧ n < range := by
  by_cases hs : cs.head? = some '+'
  · obtain ⟨digits, rfl⟩ : ∃ digits, cs = '+' :: digits := List.head?_eq_some_iff.mp hs
    rw [number?_signed, unsigned?_eq_some_iff]
    constructor
    · rintro ⟨⟨hne, hd⟩, rfl, hr⟩
      exact ⟨.signed hne hd, hr⟩
    · rintro ⟨h, hr⟩
      cases h with
      | plain hne hd => exact absurd (hd '+' List.mem_cons_self) (by decide)
      | signed hne hd => exact ⟨⟨hne, hd⟩, rfl, hr⟩
  · rw [number?_plain hs, unsigned?_eq_some_iff]
    constructor
    · rintro ⟨⟨hne, hd⟩, rfl, hr⟩
      exact ⟨.plain hne hd, hr⟩
    · rintro ⟨h, hr⟩
      cases h with
      | plain hne hd => exact ⟨⟨hne, hd⟩, rfl, hr⟩
      | signed hne hd => exact absurd rfl hs

/-- **The bound of a text.** -/
theorem bound?_eq_some_iff {text : String} {n : Nat} : bound? text = some n ↔ Sets text n := by
  have hrange : range = UInt64.size := rfl
  constructor
  · intro h
    have hnumber : number? (trim text.toList) = some n ∧ n ≠ 0 := by
      unfold bound? at h
      split at h
      · cases h
      · next hne => exact ⟨h, fun hn => hne (hn ▸ h)⟩
    obtain ⟨hnumeral, hn⟩ := number?_eq_some_iff.mp hnumber.1
    obtain ⟨front, back, htext, hblank⟩ := exists_trim text.toList
    exact ⟨front, _, back, htext, hblank, hnumeral, Nat.pos_of_ne_zero hnumber.2, hrange ▸ hn⟩
  · rintro ⟨front, numeral, back, htext, hblank, hnumeral, hpos, hn⟩
    have hin := hnumeral.isBlank_eq_false
    have htrim : trim text.toList = numeral := by
      rw [htext]
      exact trim_append hblank hnumeral.ne_nil (fun c hc => hin c (List.mem_of_head? hc))
        (fun c hc => hin c (List.mem_of_getLast? hc))
    have hnumber : number? numeral = some n := number?_eq_some_iff.mpr ⟨hnumeral, hrange ▸ hn⟩
    obtain ⟨m, rfl⟩ := Nat.exists_eq_succ_of_ne_zero hpos.ne'
    rw [bound?, htrim, hnumber]
    rfl

theorem bound?_eq_none_iff {text : String} : bound? text = none ↔ ∀ n, ¬ Sets text n := by
  rw [Option.eq_none_iff_forall_ne_some]
  exact forall_congr' fun n => not_congr bound?_eq_some_iff

/-! ## Digit by digit -/

/-- A machine word with one more decimal digit behind it; none where the word would wrap around. -/
def pushDigit? (w : UInt64) (c : Char) : Option UInt64 :=
  let digit := c.toNat - '0'.toNat
  if 10 * w.toNat + digit < UInt64.size then some (10 * w + UInt64.ofNat digit) else none

theorem le_ofDigitChars (n : Nat) (digits : List Char) : n ≤ Nat.ofDigitChars 10 digits n := by
  rw [Nat.ofDigitChars_eq_ofDigitChars_zero]
  exact Nat.le_add_right_of_le (Nat.le_mul_of_pos_left n (Nat.pow_pos (by decide)))

/-- **One digit**: a word that takes it in has the value of all digits so far. -/
theorem toNat_of_pushDigit? {w w' : UInt64} {c : Char} (h : pushDigit? w c = some w') :
    w'.toNat = 10 * w.toNat + (c.toNat - '0'.toNat) := by
  simp only [pushDigit?] at h
  split_ifs at h with hfits
  cases h
  have hsize : UInt64.size = 2 ^ 64 := rfl
  have hten : (10 : UInt64).toNat = 10 := rfl
  rw [UInt64.toNat_add, UInt64.toNat_mul, UInt64.toNat_ofNat', hten]
  omega

/-- **All digits.** A number that is too large at one digit is so at the end. -/
theorem foldlM_pushDigit? (digits : List Char) (w : UInt64) :
    (digits.foldlM pushDigit? w).map UInt64.toNat =
      if Nat.ofDigitChars 10 digits w.toNat < UInt64.size
      then some (Nat.ofDigitChars 10 digits w.toNat) else none := by
  induction digits generalizing w with
  | nil =>
    have hw : w.toNat < UInt64.size := w.toNat_lt
    simp [hw]
  | cons c digits ih =>
    rw [List.foldlM_cons, Nat.ofDigitChars_cons]
    cases hpush : pushDigit? w c with
    | some w' =>
      rw [← toNat_of_pushDigit? hpush]
      exact ih w'
    | none =>
      have hlarge : ¬ 10 * w.toNat + (c.toNat - '0'.toNat) < UInt64.size := by
        intro hfits
        simp only [pushDigit?, if_pos hfits, reduceCtorEq] at hpush
      have hle := le_ofDigitChars (10 * w.toNat + (c.toNat - '0'.toNat)) digits
      rw [if_neg (by omega)]
      rfl

/-! ## Bounds -/

/-- The bounds, in the order of their variables. -/
def bounds (l : Limits) : List Nat :=
  [l.queryBytes, l.fragments, l.listValues]

theorem boundOr_within {fallback : Nat} (h : 1 ≤ fallback ∧ fallback < UInt64.size)
    (value : Option String) : 1 ≤ boundOr fallback value ∧ boundOr fallback value < UInt64.size := by
  rw [boundOr]
  cases hb : value.bind bound? with
  | none => exact h
  | some n =>
    obtain ⟨text, -, ht⟩ := Option.bind_eq_some_iff.mp hb
    obtain ⟨-, -, -, -, -, -, hn⟩ := bound?_eq_some_iff.mp ht
    exact hn

/-- **Bounds from the environment.** A text sets the bound to `n` if it is, between blanks and after
a plus sign at most, digits with the value `n`, which is positive and fits into a machine word; any
other text leaves the bound as it was. -/
theorem ofEnvironment_sets_bounds (environment : String → Option String) (fallback : Nat)
    (text : String) :
    (∀ n, Sets text n → boundOr fallback (some text) = n) ∧
      ((∀ n, ¬ Sets text n) → boundOr fallback (some text) = fallback) ∧
      (∀ digits, digits ≠ [] → (∀ c ∈ digits, c.isDigit = true) →
        number? digits = (digits.foldlM pushDigit? 0).map UInt64.toNat) ∧
      bounds (ofEnvironment environment) =
        List.zipWith boundOr (bounds builtIn) (variableNames.map environment) ∧
      ∀ bound ∈ bounds (ofEnvironment environment), 1 ≤ bound ∧ bound < UInt64.size := by
  refine ⟨fun n hn => ?_, fun hnone => ?_, fun digits hne hd => ?_, rfl, ?_⟩
  · rw [boundOr, Option.bind_some, bound?_eq_some_iff.mpr hn]
    rfl
  · rw [boundOr, Option.bind_some, bound?_eq_none_iff.mpr hnone]
    rfl
  · have hplain : digits.head? ≠ some '+' := fun hs =>
      absurd (hd '+' (List.mem_of_head? hs)) (by decide)
    rw [foldlM_pushDigit?, number?_plain hplain, unsigned?, if_neg]
    · rfl
    · simpa [hne] using hd
  · have hbuiltIn : ∀ fallback ∈ bounds builtIn, 1 ≤ fallback ∧ fallback < UInt64.size := by decide
    have within (fallback) (hf : fallback ∈ bounds builtIn) := boundOr_within (hbuiltIn fallback hf)
    intro bound hbound
    simp only [bounds, ofEnvironment, List.mem_cons, List.not_mem_nil, or_false] at hbound
    obtain rfl | rfl | rfl := hbound
    · exact within _ (by simp [bounds]) (environment queryBytesVariable)
    · exact within _ (by simp [bounds]) (environment fragmentsVariable)
    · exact within _ (by simp [bounds]) (environment listValuesVariable)

/-- The largest word with a sign, zeros and blanks, one more than it, and no digits. -/
theorem ofEnvironment_sets_bounds_largest :
    Sets "\u3000+0018446744073709551615\t" 18446744073709551615 ∧
      boundOr 100 (some "\u3000+0018446744073709551615\t") = 18446744073709551615 ∧
      (∀ n, ¬ Sets "18446744073709551616" n) ∧
      boundOr 100 (some "18446744073709551616") = 100 ∧
      "18446744073709551616".toList.foldlM pushDigit? 0 = none ∧
      boundOr 100 (some "+") = 100 := by
  have hdigits : ∀ c ∈ "0018446744073709551615".toList, c.isDigit = true :=
    List.all_eq_true.mp (by decide)
  have hsets : Sets "\u3000+0018446744073709551615\t" 18446744073709551615 :=
    ⟨['\u3000'], _, ['\t'], by decide, List.all_eq_true.mp (by decide),
      .signed (by decide) hdigits, by decide, by decide⟩
  have hlarge : ∀ n, ¬ Sets "18446744073709551616" n :=
    bound?_eq_none_iff.mp (by decide +kernel)
  have hempty : ∀ n, ¬ Sets "+" n := bound?_eq_none_iff.mp (by decide +kernel)
  obtain ⟨hset, -⟩ := ofEnvironment_sets_bounds (fun _ => none) 100 "\u3000+0018446744073709551615\t"
  obtain ⟨-, hkeep, hword, -⟩ := ofEnvironment_sets_bounds (fun _ => none) 100 "18446744073709551616"
  obtain ⟨-, hkeep', -⟩ := ofEnvironment_sets_bounds (fun _ => none) 100 "+"
  have hnone := hword "18446744073709551616".toList (by decide) (List.all_eq_true.mp (by decide))
  have hn : number? "18446744073709551616".toList = none := by decide +kernel
  rw [hn, eq_comm, Option.map_eq_none_iff] at hnone
  exact ⟨hsets, hset _ hsets, hlarge, hkeep hlarge, hnone, hkeep' hempty⟩

end QuerySieve.Limits
