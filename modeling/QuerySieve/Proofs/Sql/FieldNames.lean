import QuerySieve.Proofs.Authorization
import QuerySieve.Proofs.FieldName
import QuerySieve.Proofs.Sql.Run
import QuerySieve.Proofs.Sql.Words

/-!
# Hidden fields in any letter case

A statement takes names in any letter case, a policy takes them as they are. No spelling of a hidden
field gets into a statement nevertheless: the names that get there are in small letters.

* `Sieve.key_of_criterion?`: a criterion is about a normalized name that may be used.
* `Select.key_of_mem_fieldNames`: a statement has the fields of its criteria that are identifiers.
* `isSmallName_of_isIdentifier`: an identifier without capitals is in small letters.
* **`Sieve.fieldNames_small_and_authorized`**: the fields in the statement of a query.
-/

namespace QuerySieve

open Text Sql

/-! ## The fields of criteria -/

theorem Criterion.key_of_ofToken {g : Gate} {t : Token} {c : Criterion} (h : ofToken g t = .ok c) :
    c.key = t.key ∨ ∃ spelling, c.key = g.normalize spelling := by
  unfold ofToken at h
  cases ho : FragmentOperator.ofSymbol? t.operator with
  | none => simp [ho] at h
  | some o =>
    simp only [ho] at h
    split_ifs at h
    cases o with
    | compare r =>
      obtain ⟨c₀, hk, -, he⟩ | ⟨-, he⟩ := ofComparison_cases t.key r t.value
      · simp only [he] at h
        cases h
        exact .inl hk
      · simp only [he] at h
        obtain ⟨d, rfl⟩ := eq_sortDirective_of_ofSortValue h
        exact .inr ⟨_, rfl⟩
    | member negated =>
      obtain ⟨values, rfl⟩ := eq_inclusionTest_of_ofMembership h
      exact .inl rfl

namespace Sieve

variable {s : Sieve} {c : Criterion}

theorem key_of_criterion? {fragment : String} (h : s.criterion? fragment = some c) :
    s.policy.authorizes c.key = true ∧ ∃ spelling, c.key = s.normalize spelling := by
  have hf := h
  rw [criterion?_eq_filter, Option.filter_eq_some_iff] at hf
  refine ⟨(authorizes_of_admittedBy hf.2).1, ?_⟩
  obtain ⟨t, -, he⟩ := exists_ofToken_of_criterion? h
  obtain hk | hk := Criterion.key_of_ofToken he
  · exact ⟨t.key, hk⟩
  · exact hk

theorem key_of_snakeCase (hs : s.normalize = FieldName.snakeCase) {fragment : String}
    (h : s.criterion? fragment = some c) : ∀ x ∈ c.key.toList, x.isUpper = false := by
  obtain ⟨-, spelling, hk⟩ := key_of_criterion? h
  rw [hk, hs]
  exact fun x => FieldName.isUpper_eq_false_of_mem_snakeCase

end Sieve

/-! ## The fields of statements -/

theorem Criterion.name_of_conditionOn {c : Criterion} {i : Identifier} {x : Condition}
    {p : Identifier × Test} (h : c.conditionOn i = some x) (hp : x.test? = some p) : p.1 = i := by
  cases c with
  | inclusionTest key negated values =>
    cases values with
    | nil => cases negated <;> cases h; cases hp
    | cons v values => cases negated <;> cases h <;> cases hp <;> rfl
  | sortDirective key direction => cases h
  | _ => cases h; cases hp; rfl

namespace Sql

theorem query_applyAll (d : Draft) (cs : List Criterion) :
    (applyAll d cs).query =
      { d.query with
        conditions := d.query.conditions ++ cs.filterMap Criterion.condition?
        sorts := d.query.sorts ++ cs.filterMap Criterion.sortTerm? } := by
  induction cs generalizing d with
  | nil => simp
  | cons c cs ih =>
    rw [applyAll_cons, ih, Criterion.query_applyTo]
    cases hc : c.condition? <;> cases hs : c.sortTerm? <;> simp [hc, hs]

/-- The query with criteria handed over to it. -/
def Select.withCriteria (q : Select) (cs : List Criterion) : Select :=
  (applyAll ({ query := q } : Draft) cs).query

theorem Select.sql_withCriteria {q : Select} (hc : q.columns = []) (hl : q.limit = none)
    (cs : List Criterion) :
    (q.withCriteria cs).sql = "SELECT * FROM " ++ q.table.name ++
      ((q.withCriteria cs).whereText ++ (q.withCriteria cs).orderText) := by
  have hq := query_applyAll { query := q } cs
  rw [← withCriteria] at hq
  have hcol : (q.withCriteria cs).columnsText = "*" := by rw [hq, columnsText, hc]; rfl
  have hlim : (q.withCriteria cs).limitText = "" := by rw [hq, limitText, hl]
  have htab : (q.withCriteria cs).table = q.table := by rw [hq]
  have hfrom : "SELECT " ++ "*" ++ " FROM " = "SELECT * FROM " := rfl
  rw [sql, hcol, hlim, htab, hfrom, String.append_empty]
  exact String.append_assoc

theorem Select.key_of_mem_fieldNames {q : Select} (hc : q.conditions = []) (hs : q.sorts = [])
    {cs : List Criterion} {name : String} (h : name ∈ (q.withCriteria cs).fieldNames) :
    isIdentifier name = true ∧ ∃ c ∈ cs, c.key = name := by
  have key {c : Criterion} {i : Identifier} (hi : Identifier.ofString? c.key = some i) :
      isIdentifier i.name = true ∧ c.key = i.name :=
    ⟨i.valid, (Identifier.name_of_ofString? hi).symm⟩
  rw [withCriteria, query_applyAll, fieldNames, hc, hs, List.nil_append, List.nil_append,
    List.mem_append] at h
  obtain h | h := h
  · obtain ⟨x, hx, hn⟩ := List.mem_filterMap.mp h
    obtain ⟨c, hcs, hcx⟩ := List.mem_filterMap.mp hx
    obtain ⟨i, hi, hix⟩ := Option.bind_eq_some_iff.mp hcx
    obtain ⟨p, hp, rfl⟩ := Option.map_eq_some_iff.mp hn
    rw [Criterion.name_of_conditionOn hix hp]
    exact ⟨(key hi).1, c, hcs, (key hi).2⟩
  · obtain ⟨t, ht, rfl⟩ := List.mem_map.mp h
    obtain ⟨c, hcs, hct⟩ := List.mem_filterMap.mp ht
    obtain ⟨i, hi, hit⟩ := Option.bind_eq_some_iff.mp hct
    obtain ⟨d, -, rfl⟩ := Option.map_eq_some_iff.mp hit
    exact ⟨(key hi).1, c, hcs, (key hi).2⟩

/-! ## Small letters -/

/-- Whether a name is made of small letters, digits and `_`, has no digit in front, and is at most
63 characters long. -/
def isSmallName (name : String) : Bool :=
  match name.toList with
  | [] => false
  | c :: cs =>
    (c.isLower || c == '_') && cs.all (fun x => x.isLower || x.isDigit || x == '_') &&
      (c :: cs).length ≤ 63

theorem isSmallName_of_isIdentifier {name : String} (h : isIdentifier name = true)
    (hu : ∀ c ∈ name.toList, c.isUpper = false) : isSmallName name = true := by
  have hl := length_le_of_isIdentifier h
  obtain ⟨c, cs, hn, hd, hw⟩ := (⟨name, h⟩ : Identifier).toList_eq
  have hn : name.toList = c :: cs := hn
  have part : ∀ x ∈ c :: cs, (x.isLower || x.isDigit || x == '_') = true := by
    intro x hx
    have hx' : (((x.isUpper || x.isLower) || x.isDigit) || x == '_') = true := hw x hx
    rwa [hu x (hn ▸ hx), Bool.false_or] at hx'
  have first : (c.isLower || c == '_') = true := by
    have hc := part c List.mem_cons_self
    rwa [hd, Bool.or_false] at hc
  rw [hn] at hl
  simp only [isSmallName, hn, first, Bool.true_and, Bool.and_eq_true, List.all_eq_true,
    decide_eq_true_eq]
  exact ⟨fun x hx => part x (List.mem_cons_of_mem _ hx), hl⟩

end Sql

theorem Policy.asciiLowered_ne_of_authorizes {p : Policy} {name h : String}
    (ha : p.authorizes name = true) (hn : ∀ x ∈ name.toList, x.isUpper = false)
    (hh : h ∈ p.hidden) (hu : h.toList.any Char.isUpper = false) :
    asciiLowered name ≠ asciiLowered h := by
  have hu : ∀ x ∈ h.toList, x.isUpper = false := by simpa using hu
  rw [asciiLowered_eq_self hn, asciiLowered_eq_self hu]
  rintro rfl
  exact (authorizes_iff.mp ha).2.1 hh

namespace Sieve

/-- **No hidden field in any letter case.** Under snake case, the fields in a statement are in small
letters and may be used, and differ from the hidden names without capitals in any letter case. No
other word of the two clauses is a name. -/
theorem fieldNames_small_and_authorized (s : Sieve) (hs : s.normalize = FieldName.snakeCase)
    (query : String) (raw : Option String) (dialect : Dialect) {table : String}
    (ht : isIdentifier table = true) :
    ∃ q, Select.start dialect table = .ok q ∧
      ∀ cs ∈ [(s.read query).criteria, (s.readEncoded raw).criteria],
        (q.withCriteria cs).sql = "SELECT * FROM " ++ table ++
          ((q.withCriteria cs).whereText ++ (q.withCriteria cs).orderText) ∧
        (∀ name ∈ (q.withCriteria cs).fieldNames,
          isSmallName name = true ∧ s.policy.authorizes name = true ∧
            ∀ h ∈ s.policy.hidden, h.toList.any Char.isUpper = false →
              asciiLowered name ≠ asciiLowered h) ∧
        ∀ w ∈ words ((q.withCriteria cs).whereText ++ (q.withCriteria cs).orderText).toList,
          isFixedWord w = true ∨ ∃ name ∈ (q.withCriteria cs).fieldNames, w = name.toList := by
  refine ⟨_, Select.start_of_valid dialect ht, fun cs hcs =>
    ⟨Select.sql_withCriteria rfl rfl cs, fun name hn => ?_, fun w hw => ?_⟩⟩
  · obtain ⟨hi, c, hc, rfl⟩ := Select.key_of_mem_fieldNames rfl rfl hn
    have hm : c ∈ (s.read query).criteria ∨ c ∈ (s.readEncoded raw).criteria := by
      simp only [List.mem_cons, List.not_mem_nil, or_false] at hcs
      obtain rfl | rfl := hcs
      · exact .inl hc
      · exact .inr hc
    obtain ⟨f, hf⟩ := exists_criterion?_of_mem hm
    -- The policy sees the name as it gets into the statement, after its normalization.
    have ha := (key_of_criterion? hf).1
    have hu := key_of_snakeCase hs hf
    exact ⟨isSmallName_of_isIdentifier hi hu, ha,
      fun h => Policy.asciiLowered_ne_of_authorizes ha hu⟩
  · exact Select.mem_words_clauses hw

/-- A sieve that hides one field. -/
def hiddenKeySieve : Sieve where
  policy := { allowance := .all, hidden := ["key"] }

/-- A query for the hidden field in other letters, of which one is the Kelvin sign. -/
def hiddenKeyQuery : String := "\u212aEY=1&firstName=2&order_by=Key"

theorem fieldNames_hiddenKeySieve :
    isIdentifier "staff" = true ∧ hiddenKeySieve.normalize = FieldName.snakeCase ∧
      ∃ q, Select.start .sqlite "staff" = .ok q ∧
        (q.withCriteria (hiddenKeySieve.read hiddenKeyQuery).criteria).fieldNames = ["first_name"] ∧
        isSmallName "first_name" = true ∧ hiddenKeySieve.policy.authorizes "first_name" = true ∧
        asciiLowered "first_name" ≠ asciiLowered "key" := by
  have ht : isIdentifier "staff" = true := by decide
  obtain ⟨q, hq, h⟩ :=
    fieldNames_small_and_authorized hiddenKeySieve rfl hiddenKeyQuery none .sqlite ht
  have hf : (q.withCriteria (hiddenKeySieve.read hiddenKeyQuery).criteria).fieldNames =
      ["first_name"] := by
    cases hq
    decide +kernel
  obtain ⟨-, hn, -⟩ := h _ List.mem_cons_self
  rw [hf] at hn
  obtain ⟨h₁, h₂, h₃⟩ := hn "first_name" List.mem_cons_self
  exact ⟨ht, rfl, q, hq, hf, h₁, h₂, h₃ "key" List.mem_cons_self (by decide)⟩

end Sieve

end QuerySieve
