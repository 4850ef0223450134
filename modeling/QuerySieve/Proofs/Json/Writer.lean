import QuerySieve.Json.Writer
import QuerySieve.Proofs.Json.Reader
import QuerySieve.Proofs.Text.Readable

/-!
# What is written is read

Both writers, the one for a single line and the one that indents, keep to the grammar, and so does
every escape that spells each character. What they write is read back.

* `isHex4_hex4`, `writesString_escaped`: strings under any escape that spells each character.
* `Derives.list_bracketed`, `Derives.object_bracketed`: lists and objects from their parts.
* `Value.Integral`: the values whose numbers are integers.
* `derives_compactChars`, `derives_prettyChars`: the two writers.
* **`Value.written_compact`**, **`Value.written_pretty`**: their texts.
* `Value.le_toNat_of_mem_compact`: one line holds no control character.
-/

namespace QuerySieve.Json

open Text

/-! ## Strings -/

theorem isHex4_hex4 {n : Nat} (h : n < 0x10000) : IsHex4 (hex4 n) n := by
  have digit (k : Nat) : hexValue? (k % 16).digitChar = some (k % 16) :=
    hexValue?_digitChar (k % 16) (Nat.mod_lt k (by decide))
  refine ⟨rfl, ?_⟩
  have hn : 16 * (16 * (16 * (n / 4096 % 16) + n / 256 % 16) + n / 16 % 16) + n % 16 = n := by
    omega
  simp [hex4, hexNumber?, digit, hn]

theorem spells_hex4 {c : Char} (h : c.toNat < 0xD800) : Spells ('\\' :: 'u' :: hex4 c.toNat) c := by
  have hs := Spells.code (isHex4_hex4 (n := c.toNat) (by omega))
    (by simp [isHighHalf]; omega) (by simp [isLowHalf]; omega)
  rwa [Char.ofNat_toNat] at hs

theorem spells_escapeChar (c : Char) : Spells (escapeChar c) c := by
  have letter : ∀ p ∈ escapeLetters, Spells ['\\', p.1] p.2 := fun _ => .letter
  unfold escapeChar
  split_ifs with h₁ h₂ h₃ h₄ h₅ h₆ h₇ h₈
  · exact h₁ ▸ letter ('"', '"') (by decide)
  · exact h₂ ▸ letter ('\\', '\\') (by decide)
  · exact h₃ ▸ letter ('b', '\x08') (by decide)
  · exact h₄ ▸ letter ('t', '\t') (by decide)
  · exact h₅ ▸ letter ('n', '\n') (by decide)
  · exact h₆ ▸ letter ('f', '\x0c') (by decide)
  · exact h₇ ▸ letter ('r', '\r') (by decide)
  · exact spells_hex4 (by omega)
  · exact .plain (Nat.le_of_not_lt h₈) h₁ h₂

/-- **A text in quotes**, under any escape that spells each character. -/
theorem writesString_escaped {escape : Char → List Char} (h : ∀ c, Spells (escape c) c)
    (s : String) : WritesString ('"' :: (s.toList.flatMap escape ++ ['"'])) s := by
  refine ⟨s.toList.map escape, ?_, by rw [List.flatMap_def]⟩
  rw [List.forall₂_map_left_iff]
  exact List.forall₂_same.mpr fun c _ => h c

theorem writesString_quoted (s : String) : WritesString (quoted s) s :=
  writesString_escaped spells_escapeChar s

/-! ## Numbers -/

theorem isDigits_toDigits (n : Nat) : IsDigits (Nat.toDigits 10 n) :=
  ⟨Nat.toDigits_ne_nil, fun _ hc => Nat.isDigit_of_mem_toDigits (by decide) (by decide) hc⟩

theorem head?_toDigits_ne {n : Nat} (h : 0 < n) : (Nat.toDigits 10 n).head? ≠ some '0' := by
  induction n using Nat.strong_induction_on with
  | _ n ih =>
    by_cases hn : n < 10
    · have digit : ∀ d < 10, 0 < d → d.digitChar ≠ '0' := by decide
      rw [Nat.toDigits_of_lt_base hn]
      exact fun he => digit n hn h (Option.some.inj he)
    · -- The digits but for the last one are those of the tenth part.
      rw [Nat.toDigits_of_base_le (by decide) (Nat.le_of_not_lt hn),
        List.head?_append_of_ne_nil _ Nat.toDigits_ne_nil]
      exact ih (n / 10) (by omega) (by omega)

theorem length_toDigits_of_head {n : Nat} (h : (Nat.toDigits 10 n).head? = some '0') :
    (Nat.toDigits 10 n).length = 1 := by
  obtain rfl : n = 0 := by
    by_contra hn
    exact head?_toDigits_ne (Nat.pos_of_ne_zero hn) h
  rfl

theorem writesNumber_toDigits (negative : Bool) (n : Nat) :
    WritesNumber (minusSign negative ++ Nat.toDigits 10 n)
      (numberValue negative (Nat.toDigits 10 n) []) := by
  have h := WritesNumber.intro negative (isDigits_toDigits n) length_toDigits_of_head
    (.inl rfl) (.inl rfl)
  rwa [List.append_nil, List.append_nil] at h

theorem writesNumber_integer (n : Int) : WritesNumber (integer n) (.int n) := by
  cases n with
  | ofNat n =>
    have hv : numberValue false (Nat.toDigits 10 n) [] = .int n := by
      simp [numberValue, Nat.ofDigitChars_ten_toDigits]
    exact hv ▸ writesNumber_toDigits false n
  | negSucc n =>
    have hv : numberValue true (Nat.toDigits 10 (n + 1)) [] = .int (.negSucc n) := by
      simp [numberValue, Nat.ofDigitChars_ten_toDigits, Int.negSucc_eq]
    exact hv ▸ writesNumber_toDigits true (n + 1)

/-! ## Rows -/

theorem isBlank_nil : IsBlank [] :=
  List.forall_mem_nil _

section Row

variable {α : Type} {one : α → Phrase} {many : List α → Phrase} {text : α → List Char}
  {a b : List Char}

/-- That a text can stand for a part between any blanks. -/
def Fits (one : α → Phrase) (text : α → List Char) (x : α) : Prop :=
  ∀ a b, IsBlank a → IsBlank b → Derives (one x) (a ++ (text x ++ b))

/-- **Parts in a row**, with commas between them. -/
theorem Derives.row (last : ∀ {x cs}, Derives (one x) cs → Derives (many [x]) cs)
    (cons : ∀ {x xs cs ds}, Derives (one x) cs → Derives (many xs) ds →
      Derives (many (x :: xs)) (cs ++ ',' :: ds)) (ha : IsBlank a) (hb : IsBlank b) :
    ∀ {x : α} {xs : List α}, (∀ y ∈ x :: xs, Fits one text y) →
      Derives (many (x :: xs)) (clause a (',' :: a) text (x :: xs) ++ b)
  | x, [], h => by
    have hx := last (h x List.mem_cons_self a b ha hb)
    simpa [clause] using hx
  | x, y :: xs, h => by
    have hx := h x List.mem_cons_self a [] ha isBlank_nil
    have hxs := row last cons ha hb fun z hz => h z (List.mem_cons_of_mem _ hz)
    simpa [clause] using cons hx hxs

end Row

/-- A list or an object that is not empty has blanks after its opening and each comma, and before
its closing; an empty one has none. -/
def bracketed {α : Type} (opening closing : Char) (a b : List Char) (text : α → List Char)
    (xs : List α) : List Char :=
  if xs.isEmpty then [opening, closing] else
  opening :: (clause a (',' :: a) text xs ++ b ++ [closing])

theorem fits_value {text : Value → List Char} {v : Value} (h : Derives (.value v) (text v)) :
    Fits .padded text v :=
  fun _ _ ha hb => .pad ha hb h

theorem fits_member {text : String × Value → List Char} {gap cs ns : List Char}
    {m : String × Value} (hgap : IsBlank gap) (hn : WritesString ns m.1)
    (h : Derives (.value m.2) cs) (ht : text m = ns ++ ':' :: (gap ++ cs)) :
    Fits .member text m := by
  intro a b ha hb
  have hm := Derives.named ha isBlank_nil hn (.pad hgap hb h)
  rw [ht]
  simpa using hm

section Bracketed

variable {a b : List Char} (ha : IsBlank a) (hb : IsBlank b)

include ha hb

theorem Derives.list_bracketed {text : Value → List Char} {vs : List Value}
    (h : ∀ v ∈ vs, Derives (.value v) (text v)) :
    Derives (.value (.arr vs)) (bracketed '[' ']' a b text vs) := by
  cases vs with
  | nil => exact .emptyList isBlank_nil
  | cons v vs => exact .list (.row .item .consItem ha hb fun w hw => fits_value (h w hw))

theorem Derives.object_bracketed {text : String × Value → List Char}
    {ms : List (String × Value)} (h : ∀ m ∈ ms, Fits .member text m) :
    Derives (.value (.obj ms)) (bracketed '\x7b' '\x7d' a b text ms) := by
  cases ms with
  | nil => exact .emptyObject isBlank_nil
  | cons m ms => exact .object (.row .lastMember .consMember ha hb h)

end Bracketed

/-! ## The two writers -/

/-- The values whose numbers are integers. -/
inductive Value.Integral : Value → Prop where
  | null : Integral .null
  | bool (b : Bool) : Integral (.bool b)
  | int (n : Int) : Integral (.int n)
  | str (s : String) : Integral (.str s)
  | arr {vs : List Value} (h : ∀ v ∈ vs, Integral v) : Integral (.arr vs)
  | obj {ms : List (String × Value)} (h : ∀ m ∈ ms, Integral m.2) : Integral (.obj ms)

theorem compactItems_eq_map (vs : List Value) : compactItems vs = vs.map compactChars := by
  induction vs with
  | nil => rfl
  | cons v vs ih => rw [compactItems, ih, List.map_cons]

theorem prettyItems_eq_map (depth : Nat) (vs : List Value) :
    prettyItems depth vs = vs.map (prettyChars depth) := by
  induction vs with
  | nil => rfl
  | cons v vs ih => rw [prettyItems, ih, List.map_cons]

/-- A member of an object on one line. -/
def compactMember (m : String × Value) : List Char :=
  quoted m.1 ++ ':' :: compactChars m.2

/-- A member of an object that stands at a depth. -/
def prettyMember (depth : Nat) (m : String × Value) : List Char :=
  quoted m.1 ++ ':' :: ' ' :: prettyChars depth m.2

theorem compactMembers_eq_map (ms : List (String × Value)) :
    compactMembers ms = ms.map compactMember := by
  induction ms with
  | nil => rfl
  | cons m ms ih => rw [compactMembers, ih, List.map_cons, compactMember]

theorem prettyMembers_eq_map (depth : Nat) (ms : List (String × Value)) :
    prettyMembers depth ms = ms.map (prettyMember depth) := by
  induction ms with
  | nil => rfl
  | cons m ms ih => rw [prettyMembers, ih, List.map_cons, prettyMember]

theorem inlineBlock_eq {α : Type} (opening closing : Char) (text : α → List Char) (xs : List α) :
    inlineBlock opening closing (xs.map text) = bracketed opening closing [] [] text xs := by
  rw [inlineBlock, intercalate_map, bracketed]
  cases xs <;> simp [clause]

theorem indentedBlock_eq {α : Type} (depth : Nat) (opening closing : Char)
    (text : α → List Char) (xs : List α) :
    indentedBlock depth opening closing (xs.map text) =
      bracketed opening closing (newLine (depth + 1)) (newLine depth) text xs := by
  rw [indentedBlock, intercalate_map, bracketed]
  cases xs <;> simp [clause]

theorem isBlank_newLine (depth : Nat) : IsBlank (newLine depth) := by
  intro c hc
  obtain rfl | hc := List.mem_cons.mp hc
  · rfl
  · rw [List.eq_of_mem_replicate hc]
    rfl

/-- **On one line.** -/
theorem derives_compactChars {v : Value} (h : v.Integral) :
    Derives (.value v) (compactChars v) := by
  induction h with
  | null => exact .null
  | bool b => cases b <;> constructor
  | int n => exact .number (writesNumber_integer n)
  | str s => exact .string (writesString_quoted s)
  | arr _ ih =>
    rw [compactChars, compactItems_eq_map, inlineBlock_eq]
    exact .list_bracketed isBlank_nil isBlank_nil ih
  | obj _ ih =>
    rw [compactChars, compactMembers_eq_map, inlineBlock_eq]
    exact .object_bracketed isBlank_nil isBlank_nil fun m hm =>
      fits_member isBlank_nil (writesString_quoted m.1) (ih m hm) rfl

/-- **Over several lines**, at any depth. -/
theorem derives_prettyChars {v : Value} (h : v.Integral) (depth : Nat) :
    Derives (.value v) (prettyChars depth v) := by
  induction h generalizing depth with
  | null => exact .null
  | bool b => cases b <;> constructor
  | int n => exact .number (writesNumber_integer n)
  | str s => exact .string (writesString_quoted s)
  | arr _ ih =>
    rw [prettyChars, prettyItems_eq_map, indentedBlock_eq]
    exact .list_bracketed (isBlank_newLine _) (isBlank_newLine _) fun v hv => ih v hv (depth + 1)
  | obj _ ih =>
    rw [prettyChars, prettyMembers_eq_map, indentedBlock_eq]
    have hgap : IsBlank [' '] := fun c hc => by rw [List.mem_singleton.mp hc]; rfl
    exact .object_bracketed (isBlank_newLine _) (isBlank_newLine _) fun m hm =>
      fits_member hgap (writesString_quoted m.1) (ih m hm (depth + 1)) rfl

namespace Value

variable {v : Value}

theorem written_of_derives {cs : List Char} (h : Derives (.value v) cs) {tail : List Char}
    (ht : IsBlank tail) : v.Written (String.ofList (cs ++ tail)) := by
  have hp := Derives.pad isBlank_nil ht h
  rwa [Written, String.toList_ofList]

/-- **A value on one line** is written by the grammar. -/
theorem written_compact (h : v.Integral) : v.Written v.compact := by
  have hw := written_of_derives (derives_compactChars h) isBlank_nil
  rwa [List.append_nil] at hw

/-- **A value over several lines** is written by it too, also with blanks after it. -/
theorem written_pretty (h : v.Integral) {tail : String} (ht : IsBlank tail.toList) :
    v.Written (v.pretty ++ tail) := by
  have hw := written_of_derives (derives_prettyChars h 0) ht
  rwa [String.ofList_append, String.ofList_toList] at hw

end Value

/-! ## Control characters -/

theorem forall_mem_bracketed {α : Type} {P : Char → Prop} {opening closing : Char}
    (ho : P opening) (hc : P closing) (hs : P ',') {text : α → List Char} {xs : List α}
    (h : ∀ x ∈ xs, ∀ c ∈ text x, P c) : ∀ c ∈ bracketed opening closing [] [] text xs, P c := by
  intro c hm
  cases xs with
  | nil =>
    have hm : c ∈ [opening, closing] := hm
    simp only [List.mem_cons, List.not_mem_nil, or_false] at hm
    obtain rfl | rfl := hm
    · exact ho
    · exact hc
  | cons x xs =>
    have hrow : ∀ c ∈ clause [] [','] text (x :: xs), P c :=
      forall_mem_clause (List.forall_mem_nil _) (fun _ h => List.mem_singleton.mp h ▸ hs) h
    simp only [bracketed, List.isEmpty_cons, Bool.false_eq_true, if_false, List.append_nil,
      List.mem_cons, List.mem_append, List.not_mem_nil, or_false] at hm
    obtain rfl | hm | rfl := hm
    · exact ho
    · exact hrow c hm
    · exact hc

theorem le_toNat_of_isDigit {c : Char} (h : c.isDigit = true) : 0x20 ≤ c.toNat := by
  have h0 : '0'.toNat ≤ c.toNat := by
    simp only [Char.isDigit, Bool.and_eq_true, decide_eq_true_eq] at h
    exact UInt32.le_iff_toNat_le.mp h.1
  exact Nat.le_trans (by decide) h0

theorem mem_numberEscape {n : Nat} {x : Char} (h : x ∈ '\\' :: 'u' :: hex4 n) :
    x ∈ "\\u0123456789abcdef".toList := by
  have digit (k : Nat) : (k % 16).digitChar ∈ "\\u0123456789abcdef".toList := by
    have hd : ∀ d < 16, d.digitChar ∈ "\\u0123456789abcdef".toList := by decide
    exact hd (k % 16) (Nat.mod_lt k (by decide))
  simp only [hex4, List.mem_cons, List.not_mem_nil, or_false] at h
  obtain rfl | rfl | rfl | rfl | rfl | rfl := h
  · decide
  · decide
  · exact digit _
  · exact digit _
  · exact digit _
  · exact digit _

theorem le_toNat_of_mem_escapeChar {c x : Char} (h : x ∈ escapeChar c) : 0x20 ≤ x.toNat := by
  have short {e : Char} (he : 0x20 ≤ e.toNat) : ∀ x ∈ ['\\', e], 0x20 ≤ x.toNat :=
    List.forall_mem_cons.mpr ⟨by decide, List.forall_mem_singleton.mpr he⟩
  have number : ∀ x ∈ "\\u0123456789abcdef".toList, 0x20 ≤ x.toNat :=
    forall_mem_of_all (by decide)
  unfold escapeChar at h
  split_ifs at h with h₁ h₂ h₃ h₄ h₅ h₆ h₇ h₈
  · exact short (by decide) x h
  · exact short (by decide) x h
  · exact short (by decide) x h
  · exact short (by decide) x h
  · exact short (by decide) x h
  · exact short (by decide) x h
  · exact short (by decide) x h
  · exact number x (mem_numberEscape h)
  · rw [List.mem_singleton.mp h]
    exact Nat.le_of_not_lt h₈

theorem forall_mem_escaped {P : Char → Prop} (hq : P '"') {escape : Char → List Char}
    (h : ∀ c, ∀ x ∈ escape c, P x) (s : String) :
    ∀ c ∈ '"' :: (s.toList.flatMap escape ++ ['"']), P c := by
  intro c hc
  simp only [List.mem_cons, List.mem_append, List.mem_flatMap, List.not_mem_nil, or_false] at hc
  obtain rfl | ⟨x, -, hx⟩ | rfl := hc
  · exact hq
  · exact h x c hx
  · exact hq

theorem le_toNat_of_mem_quoted {s : String} : ∀ c ∈ quoted s, 0x20 ≤ c.toNat :=
  forall_mem_escaped (by decide) (fun _ _ => le_toNat_of_mem_escapeChar) s

theorem le_toNat_of_mem_integer {n : Int} : ∀ c ∈ integer n, 0x20 ≤ c.toNat := by
  intro c hc
  cases n with
  | ofNat n => exact le_toNat_of_isDigit ((isDigits_toDigits n).2 c hc)
  | negSucc n =>
    obtain rfl | hc := List.mem_cons.mp hc
    · decide
    · exact le_toNat_of_isDigit ((isDigits_toDigits (n + 1)).2 c hc)

/-- **One line holds no control character** below `U+0020`. -/
theorem Value.le_toNat_of_mem_compact {v : Value} (h : v.Integral) :
    ∀ c ∈ v.compact.toList, 0x20 ≤ c.toNat := by
  rw [compact, String.toList_ofList]
  induction h with
  | null => exact forall_mem_of_all (by decide)
  | bool b => cases b <;> exact forall_mem_of_all (by decide)
  | int n => exact le_toNat_of_mem_integer
  | str s => exact le_toNat_of_mem_quoted
  | arr _ ih =>
    rw [compactChars, compactItems_eq_map, inlineBlock_eq]
    exact forall_mem_bracketed (by decide) (by decide) (by decide) ih
  | obj _ ih =>
    rw [compactChars, compactMembers_eq_map, inlineBlock_eq]
    refine forall_mem_bracketed (by decide) (by decide) (by decide) fun m hm c hc => ?_
    simp only [compactMember, List.mem_append, List.mem_cons] at hc
    obtain hc | rfl | hc := hc
    · exact le_toNat_of_mem_quoted c hc
    · decide
    · exact ih m hm c hc

end QuerySieve.Json
