import QuerySieve.LogRecord
import QuerySieve.Proofs.Json.Writer
import QuerySieve.Proofs.Sql.Identifier

/-!
# Log lines cannot be forged

The texts of a record come from queries and hold whatever a client sends. The line of the record is
one JSON object all the same: its members are those of the record and no other, and no character in
it ends the line.

* `LogRecord.json`: the object of a record.
* `LogRecord.spells_escapeChar`, `LogRecord.isControl_of_mem_escapeChar`: the escape of a character.
* `LogRecord.toList_line`: the line of a record, member by member.
* **`LogRecord.line_reads_as_json`**: the line of a record, read.
-/

namespace QuerySieve.LogRecord

open Json

/-- The members of the object of a record. -/
def members (r : LogRecord) (time : Nat) : List (String × Value) :=
  ("level", .str r.level) :: ("msg", .str r.message) ::
    (r.fields.map fun f => (f.1, .str f.2)) ++ [("ts", .int time)]

/-- The object of a record: its level, its message, its texts by name, and the time. -/
def json (r : LogRecord) (time : Nat) : Value :=
  .obj (r.members time)

/-! ## Characters -/

theorem le_of_isControl_eq_false {c : Char} (h : isControl c = false) : 0x20 ≤ c.toNat := by
  simp only [isControl, Bool.or_eq_false_iff, decide_eq_false_iff_not] at h
  omega

theorem spells_escapeChar (c : Char) : Spells (escapeChar c) c := by
  have letter : ∀ p ∈ escapeLetters, Spells ['\\', p.1] p.2 := fun _ => .letter
  unfold escapeChar
  split_ifs with h₁ h₂ h₃ h₄ h₅ h₆
  · exact h₁ ▸ letter ('"', '"') (by decide)
  · exact h₂ ▸ letter ('\\', '\\') (by decide)
  · exact h₃ ▸ letter ('n', '\n') (by decide)
  · exact h₄ ▸ letter ('r', '\r') (by decide)
  · exact h₅ ▸ letter ('t', '\t') (by decide)
  · refine spells_hex4 ?_
    simp only [isControl, Bool.or_eq_true, Bool.and_eq_true, decide_eq_true_eq] at h₆
    omega
  · exact .plain (le_of_isControl_eq_false (by simpa using h₆)) h₁ h₂

theorem isControl_of_mem_escapeChar {c x : Char} (h : x ∈ escapeChar c) : isControl x = false := by
  have short {e : Char} (he : isControl e = false) : ∀ x ∈ ['\\', e], isControl x = false :=
    List.forall_mem_cons.mpr ⟨rfl, List.forall_mem_singleton.mpr he⟩
  have number : ∀ x ∈ "\\u0123456789abcdef".toList, isControl x = false :=
    Text.forall_mem_of_all (by decide)
  unfold escapeChar at h
  split_ifs at h with h₁ h₂ h₃ h₄ h₅ h₆
  · exact short rfl x h
  · exact short rfl x h
  · exact short rfl x h
  · exact short rfl x h
  · exact short rfl x h
  · exact number x (mem_numberEscape h)
  · rw [List.mem_singleton.mp h]
    simpa using h₆

theorem escapeChar_of_isAlpha {c : Char} (h : c.isAlpha = true) : escapeChar c = [c] := by
  have hc : c.toNat < 0x80 :=
    Text.toNat_lt_of_isWordChar (by rw [Text.isWordChar, Char.isAlphanum, h]; rfl)
  exact Text.forall_ascii (p := fun c => c.isAlpha = true → escapeChar c = [c]) (by decide +kernel)
    hc h

/-! ## Lines -/

/-- A text between quotes. -/
def quotedChars (s : String) : List Char :=
  '"' :: (s.toList.flatMap escapeChar ++ ['"'])

/-- A value as a line has it. -/
def valueText : Value → List Char
  | .str s => quotedChars s
  | v => compactChars v

/-- A member as a line has it. -/
def memberText (m : String × Value) : List Char :=
  quotedChars m.1 ++ ':' :: valueText m.2

theorem eq_of_mem_members {r : LogRecord} {time : Nat} {m : String × Value}
    (hm : m ∈ r.members time) : (∃ s, m.2 = .str s) ∨ m.2 = .int time := by
  simp only [members, List.mem_cons, List.mem_append, List.mem_map, List.not_mem_nil,
    or_false] at hm
  obtain (rfl | rfl | ⟨f, -, rfl⟩) | rfl := hm
  · exact .inl ⟨_, rfl⟩
  · exact .inl ⟨_, rfl⟩
  · exact .inl ⟨_, rfl⟩
  · exact .inr rfl

theorem writesString_quotedChars (s : String) : WritesString (quotedChars s) s :=
  writesString_escaped spells_escapeChar s

theorem fits_memberText {r : LogRecord} {time : Nat} {m : String × Value}
    (hm : m ∈ r.members time) : Fits .member memberText m := by
  have value : Derives (.value m.2) (valueText m.2) := by
    obtain ⟨s, hs⟩ | ht := eq_of_mem_members hm
    · exact hs ▸ .string (writesString_quotedChars s)
    · exact ht ▸ .number (writesNumber_integer time)
  exact fits_member isBlank_nil (writesString_quotedChars m.1) value rfl

theorem flatMap_escapeChar_of_isAlpha {cs : List Char} (h : ∀ c ∈ cs, c.isAlpha = true) :
    cs.flatMap escapeChar = cs := by
  induction cs with
  | nil => rfl
  | cons c cs ih =>
    rw [List.flatMap_cons, escapeChar_of_isAlpha (h c List.mem_cons_self),
      ih fun x hx => h x (List.mem_cons_of_mem _ hx), List.singleton_append]

theorem toList_fieldText (f : String × String) :
    (fieldText f).toList = ',' :: memberText (f.1, .str f.2) := by
  simp [fieldText, memberText, valueText, quotedChars, escape]

/-- **A line, member by member.** -/
theorem toList_line {r : LogRecord} (hl : ∀ c ∈ r.level.toList, c.isAlpha = true) (time : Nat) :
    (r.line time).toList = bracketed '\x7b' '\x7d' [] [] memberText (r.members time) := by
  have hlevel : memberText ("level", .str r.level) =
      "\"level\":\"".toList ++ (r.level.toList ++ ['"']) := by
    simp [memberText, valueText, quotedChars, flatMap_escapeChar_of_isAlpha hl, escapeChar,
      isControl]
  have hmsg : memberText ("msg", .str r.message) =
      "\"msg\":\"".toList ++ ((escape r.message).toList ++ ['"']) := by
    simp [memberText, valueText, quotedChars, escape, escapeChar, isControl]
  have hts : memberText ("ts", .int time) = "\"ts\":".toList ++ time.repr.toList := by
    simp [memberText, valueText, quotedChars, compactChars, integer, escapeChar, isControl,
      Nat.repr]
  have hfields : (String.join (r.fields.map fieldText)).toList =
      r.fields.flatMap fun f => ',' :: memberText (f.1, .str f.2) := by
    simp only [String.toList_join, List.flatMap_map, toList_fieldText]
  -- What is left are the fixed texts, which a literal and a list of characters spell alike.
  simp only [line, opening, String.toList_append, hfields]
  simp [bracketed, Text.clause, members, hlevel, hmsg, hts, List.flatMap_map]

theorem isControl_of_mem_quotedChars {s : String} : ∀ c ∈ quotedChars s, isControl c = false :=
  forall_mem_escaped (by decide) (fun _ _ => isControl_of_mem_escapeChar) s

theorem isControl_of_isDigit {c : Char} (h : c.isDigit = true) : isControl c = false := by
  have h0 := le_toNat_of_isDigit h
  have h9 : c.toNat ≤ 0x39 := by
    simp only [Char.isDigit, Bool.and_eq_true, decide_eq_true_eq] at h
    exact UInt32.le_iff_toNat_le.mp h.2
  simp only [isControl, Bool.or_eq_false_iff, Bool.and_eq_false_iff, decide_eq_false_iff_not]
  omega

theorem isControl_of_mem_memberText {r : LogRecord} {time : Nat} {m : String × Value}
    (hm : m ∈ r.members time) : ∀ c ∈ memberText m, isControl c = false := by
  have value : ∀ c ∈ valueText m.2, isControl c = false := by
    obtain ⟨s, hs⟩ | ht := eq_of_mem_members hm
    · exact hs ▸ isControl_of_mem_quotedChars
    · exact ht ▸ fun c hc => isControl_of_isDigit ((isDigits_toDigits time).2 c hc)
  intro c hc
  simp only [memberText, List.mem_append, List.mem_cons] at hc
  obtain hc | rfl | hc := hc
  · exact isControl_of_mem_quotedChars c hc
  · rfl
  · exact value c hc

theorem members_injective {r r' : LogRecord} {time time' : Nat}
    (h : r.members time = r'.members time') : r = r' ∧ time = time' := by
  have field : Function.Injective fun f : String × String => (f.1, Value.str f.2) := by
    rintro ⟨a, b⟩ ⟨c, d⟩ he
    cases he
    rfl
  obtain ⟨level, message, fields⟩ := r
  obtain ⟨level', message', fields'⟩ := r'
  simp only [members, List.cons_append, List.cons.injEq, Prod.mk.injEq, Value.str.injEq, true_and,
    List.append_singleton_inj, Value.int.injEq, Int.natCast_inj] at h
  obtain ⟨rfl, rfl, hf, rfl⟩ := h
  obtain rfl := field.list_map hf
  exact ⟨rfl, rfl⟩

/-! ## Reading lines -/

/-- **A line is the object of its record** by the grammar. -/
theorem written_line {r : LogRecord} (hl : ∀ c ∈ r.level.toList, c.isAlpha = true) (time : Nat) :
    (r.json time).Written (r.line time) := by
  have hd : Derives (.value (r.json time)) (r.line time).toList := by
    rw [toList_line hl]
    exact .object_bracketed isBlank_nil isBlank_nil fun _ => fits_memberText
  have hw := Value.written_of_derives hd isBlank_nil
  rwa [List.append_nil, String.ofList_toList] at hw

theorem written_escape (s : String) : (Value.str s).Written ("\"" ++ escape s ++ "\"") := by
  have hw := Value.written_of_derives (.string (writesString_quotedChars s)) isBlank_nil
  have he : String.ofList (quotedChars s ++ []) = "\"" ++ escape s ++ "\"" := by
    rw [← String.toList_inj]
    simp [quotedChars, escape]
  rwa [he] at hw

/-- **Log lines cannot be forged.** The line of a record whose level is of letters holds no control
character and is a JSON object of just its texts and its time. Texts come back from their escapes,
and other records or times have other lines. -/
theorem line_reads_as_json {r : LogRecord} (hl : ∀ c ∈ r.level.toList, c.isAlpha = true)
    (time : Nat) :
    (∀ c ∈ (r.line time).toList, isControl c = false) ∧
      (∀ v : Value, v.Written (r.line time) ↔ v = r.json time) ∧
      Value.read? (r.line time) = some (.obj (("level", .str r.level) ::
        ("msg", .str r.message) :: (r.fields.map fun f => (f.1, .str f.2)) ++
          [("ts", .int time)])) ∧
      (∀ s, Value.read? ("\"" ++ escape s ++ "\"") = some (.str s)) ∧
      ∀ (r' : LogRecord) (time' : Nat), (∀ c ∈ r'.level.toList, c.isAlpha = true) →
        r'.line time' = r.line time → r' = r ∧ time' = time := by
  have hw := written_line hl time
  refine ⟨?_, hw.iff_eq, Value.read?_of_written hw,
    fun s => Value.read?_of_written (written_escape s), fun r' time' hl' he => ?_⟩
  · rw [toList_line hl]
    exact forall_mem_bracketed (P := fun c => isControl c = false) rfl rfl rfl
      fun _ => isControl_of_mem_memberText
  · have hw' := written_line hl' time'
    rw [he] at hw'
    exact members_injective (Value.obj.inj (hw'.unique hw))

/-- A record whose texts try to end their strings, their line and their object. -/
def forgedRecord : LogRecord where
  level := "warn"
  message := "a\"\x7d\n\x7b\"level\":\"error"
  fields := [("k\\", "\",\"msg\":\"x"), ("level", "\u0085\x7f\r\t\x00"), ("", "\u2028é")]

theorem forgedRecord_reads_as_json :
    (∀ c ∈ forgedRecord.level.toList, c.isAlpha = true) ∧
      (∀ c ∈ (forgedRecord.line 7).toList, isControl c = false) ∧
      Value.read? (forgedRecord.line 7) = some (.obj [("level", .str "warn"),
        ("msg", .str "a\"\x7d\n\x7b\"level\":\"error"), ("k\\", .str "\",\"msg\":\"x"),
        ("level", .str "\u0085\x7f\r\t\x00"), ("", .str "\u2028é"), ("ts", .int 7)]) ∧
      ∀ r time, (∀ c ∈ r.level.toList, c.isAlpha = true) →
        r.line time = forgedRecord.line 7 → r = forgedRecord ∧ time = 7 := by
  have hl : ∀ c ∈ forgedRecord.level.toList, c.isAlpha = true :=
    List.all_eq_true.mp (by decide)
  obtain ⟨hc, -, hr, -, hi⟩ := line_reads_as_json hl 7
  exact ⟨hl, hc, hr, hi⟩

end QuerySieve.LogRecord
