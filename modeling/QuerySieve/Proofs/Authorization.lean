import QuerySieve.Proofs.Reading

/-!
# Authorization

A token is refused for its field in the course of being read, at the operator or at the target of a
sort. The outcome is that of reading under no restriction at all and leaving out, afterwards, the
criteria about fields that may not be used.

* `Criterion.admittedBy`: whether a criterion may be handed on.
* `Gate.opened`: the gate that lets every field through.
* `Criterion.ofToken_eq_ok_iff`: one token.
* **`Sieve.criteria_eq_filter_unrestricted`**: whole queries.
-/

namespace QuerySieve

/-- Whether the field of a criterion may be used; a sort needs leave to sort besides. -/
def Criterion.admittedBy (authorizes : String → Bool) (c : Criterion) : Bool :=
  authorizes c.key && (!c.isSort || authorizes sortKey)

/-- The gate that lets every field through. -/
def Gate.opened (g : Gate) : Gate :=
  { g with authorizes := fun _ => true }

/-! ## Tokens -/

namespace Criterion

variable {g : Gate} {c : Criterion}

/-- The field that a sort asks for. -/
def sortTarget (g : Gate) (value : String) : String :=
  g.normalize ((Text.splitOn ',' value).headD "")

theorem ofSortValue_eq (g : Gate) (value : String) :
    ofSortValue g value =
      if g.authorizes (sortTarget g value) then ofSortValue g.opened value
      else .error .unauthorized := by
  simp only [ofSortValue, Gate.opened, sortTarget]
  split_ifs <;> simp_all

theorem eq_sortDirective_of_ofSortValue {value : String} (h : ofSortValue g value = .ok c) :
    ∃ d, c = sortDirective (sortTarget g value) d := by
  unfold ofSortValue at h
  simp only at h
  split_ifs at h with ha
  split at h
  · split at h <;> cases h
    exact ⟨_, rfl⟩
  · cases h
    exact ⟨_, rfl⟩

theorem ofSortValue_eq_ok_iff (hs : g.authorizes sortKey = true) (value : String) :
    ofSortValue g value = .ok c ↔
      ofSortValue g.opened value = .ok c ∧ c.admittedBy g.authorizes = true := by
  rw [ofSortValue_eq]
  constructor
  · intro h
    split_ifs at h with ha
    obtain ⟨d, rfl⟩ := eq_sortDirective_of_ofSortValue h
    refine ⟨h, ?_⟩
    have : g.authorizes (sortTarget g.opened value) = true := ha
    simp [admittedBy, key, hs, this]
  · rintro ⟨h, hc⟩
    obtain ⟨d, rfl⟩ := eq_sortDirective_of_ofSortValue h
    have ha : g.authorizes (sortTarget g value) = true := (Bool.and_eq_true_iff.mp hc).1
    rw [if_pos ha, h]

/-- A comparison is a filter on its field, or is read as a sort. -/
theorem ofComparison_cases (name : String) (r : Relation) (value : String) :
    (∃ c : Criterion, c.key = name ∧ c.isSort = false ∧ ∀ g, ofComparison g name r value = .ok c) ∨
      (name = sortKey ∧ ∀ g, ofComparison g name r value = ofSortValue g value) := by
  unfold ofComparison
  by_cases hn : value = nullWord
  · exact .inl ⟨.nullTest name (r = .eq), rfl, rfl, fun g => if_pos hn⟩
  simp only [if_neg hn]
  cases likePattern? value with
  | some pattern => exact .inl ⟨.patternMatch name pattern, rfl, rfl, fun g => rfl⟩
  | none =>
    by_cases hk : name = sortKey ∧ '*' ∉ value.toList
    · exact .inr ⟨hk.1, fun g => if_pos hk⟩
    · exact .inl ⟨.comparison name r value, rfl, rfl, fun g => if_neg hk⟩

theorem ofComparison_eq_ok_iff {name : String} (ha : g.authorizes name = true) (r : Relation)
    (value : String) :
    ofComparison g name r value = .ok c ↔
      ofComparison g.opened name r value = .ok c ∧ c.admittedBy g.authorizes = true := by
  obtain ⟨c₀, rfl, hs, he⟩ | ⟨rfl, he⟩ := ofComparison_cases name r value
  · rw [he, he]
    constructor
    · intro h
      cases h
      exact ⟨rfl, by simp [admittedBy, hs, ha]⟩
    · exact And.left
  · rw [he, he]
    exact ofSortValue_eq_ok_iff ha value

theorem not_admittedBy_of_ofComparison {name value : String} {r : Relation}
    (ha : g.authorizes name = false) {g' : Gate} (h : ofComparison g' name r value = .ok c) :
    c.admittedBy g.authorizes = false := by
  obtain ⟨c₀, rfl, hs, he⟩ | ⟨rfl, he⟩ := ofComparison_cases name r value
  · rw [he] at h
    cases h
    simp [admittedBy, ha]
  · rw [he] at h
    obtain ⟨d, rfl⟩ := eq_sortDirective_of_ofSortValue h
    simp [admittedBy, isSort, ha]

theorem eq_inclusionTest_of_ofMembership {name value : String} {negated : Bool}
    (h : ofMembership g name negated value = .ok c) :
    ∃ values, c = inclusionTest name negated values := by
  unfold ofMembership at h
  simp only at h
  split_ifs at h
  cases h
  exact ⟨_, rfl⟩

/-- **One token**: to authorize while reading is to authorize afterwards. -/
theorem ofToken_eq_ok_iff (g : Gate) (t : Token) (c : Criterion) :
    ofToken g t = .ok c ↔ ofToken g.opened t = .ok c ∧ c.admittedBy g.authorizes = true := by
  unfold ofToken
  cases FragmentOperator.ofSymbol? t.operator with
  | none => simp
  | some o =>
    have ho : (!g.opened.authorizes t.key) = false := rfl
    simp only [ho, Bool.false_eq_true, if_false]
    cases ha : g.authorizes t.key with
    | true =>
      simp only [Bool.not_true, Bool.false_eq_true, if_false]
      cases o with
      | compare r => exact ofComparison_eq_ok_iff ha r t.value
      | member negated =>
        refine ⟨fun h => ⟨h, ?_⟩, And.left⟩
        obtain ⟨values, rfl⟩ := eq_inclusionTest_of_ofMembership h
        simp [admittedBy, key, isSort, ha]
    | false =>
      refine ⟨fun h => by simp at h, fun ⟨h, hc⟩ => ?_⟩
      cases o with
      | compare r => rw [not_admittedBy_of_ofComparison ha h] at hc; cases hc
      | member negated =>
        obtain ⟨values, rfl⟩ := eq_inclusionTest_of_ofMembership h
        simp [admittedBy, key, ha] at hc

theorem admittedBy_mono {p q : String → Bool} (h : ∀ x, p x = true → q x = true)
    (hc : c.admittedBy p = true) : c.admittedBy q = true := by
  simp only [admittedBy, Bool.and_eq_true, Bool.or_eq_true] at hc ⊢
  exact ⟨h _ hc.1, hc.2.imp_right (h _)⟩

/-- A gate gives what a wider one gives, less what it refuses. -/
theorem toOption_ofToken {g g' : Gate} (ho : g.opened = g'.opened)
    (hle : ∀ x, g.authorizes x = true → g'.authorizes x = true) (t : Token) :
    (ofToken g t).toOption = (ofToken g' t).toOption.filter (·.admittedBy g.authorizes) := by
  refine toOption_eq_filter fun c => ?_
  rw [ofToken_eq_ok_iff g, ofToken_eq_ok_iff g', ho]
  exact ⟨fun h => ⟨⟨h.1, admittedBy_mono hle h.2⟩, h.2⟩, fun h => ⟨h.1.1, h.2⟩⟩

end Criterion

/-! ## Queries -/

theorem Policy.authorizes_unrestricted {p : Policy} {x : String} (h : p.authorizes x = true) :
    Policy.unrestricted.authorizes x = true := by
  rw [authorizes_iff] at h ⊢
  exact ⟨h.1, List.not_mem_nil, rfl⟩

namespace Sieve

/-- The same sieve under no restriction. -/
def unrestricted (s : Sieve) : Sieve :=
  { s with policy := .unrestricted }

theorem criterion?_eq_filter (s : Sieve) (fragment : String) :
    s.criterion? fragment =
      (s.unrestricted.criterion? fragment).filter (·.admittedBy s.policy.authorizes) := by
  unfold criterion? readFragment
  cases tokenize fragment with
  | none => rfl
  | some t =>
    have hle : ∀ x, s.gate.authorizes x = true → s.unrestricted.gate.authorizes x = true :=
      fun x => Policy.authorizes_unrestricted
    have ho : s.gate.opened = s.unrestricted.gate.opened := rfl
    exact Criterion.toOption_ofToken ho hle _

theorem criteria_read_eq_filter (s : Sieve) (query : String) :
    (s.read query).criteria =
      (s.unrestricted.read query).criteria.filter (·.admittedBy s.policy.authorizes) := by
  rw [criteria_read, criteria_read, List.filter_filterMap]
  exact congrArg (List.filterMap · _) (funext s.criterion?_eq_filter)

theorem criteria_readEncoded_eq_filter (s : Sieve) (raw : Option String) :
    (s.readEncoded raw).criteria =
      (s.unrestricted.readEncoded raw).criteria.filter (·.admittedBy s.policy.authorizes) := by
  have hl : s.unrestricted.limits = s.limits := rfl
  rw [criteria_readEncoded, criteria_readEncoded, hl]
  cases s.limits.decoded? raw with
  | none => rfl
  | some query => exact s.criteria_read_eq_filter query

theorem authorizes_of_admittedBy {p : Policy} {c : Criterion}
    (h : c.admittedBy p.authorizes = true) :
    p.authorizes c.key = true ∧ c.key ∉ p.hidden := by
  have ha : p.authorizes c.key = true := (Bool.and_eq_true_iff.mp h).1
  exact ⟨ha, (Policy.authorizes_iff.mp ha).2.1⟩

/-- **Authorizing early is filtering late.** A query gives what it gives under no restriction, less
the criteria that the policy does not admit, and each fragment its own part of that. -/
theorem criteria_eq_filter_unrestricted (s : Sieve) (query : String) (raw : Option String) :
    (s.read query).criteria =
        (s.unrestricted.read query).criteria.filter (·.admittedBy s.policy.authorizes) ∧
      (s.readEncoded raw).criteria =
        (s.unrestricted.readEncoded raw).criteria.filter (·.admittedBy s.policy.authorizes) ∧
      (s.read query).criteria =
        ((fragments query).take s.limits.fragments).filterMap (fun f =>
          (s.unrestricted.criterion? f).filter (·.admittedBy s.policy.authorizes)) ∧
      ∀ c ∈ (s.read query).criteria ++ (s.readEncoded raw).criteria,
        s.policy.authorizes c.key = true ∧ c.key ∉ s.policy.hidden := by
  have hr := s.criteria_read_eq_filter query
  have he := s.criteria_readEncoded_eq_filter raw
  refine ⟨hr, he, ?_, fun c hc => ?_⟩
  · rw [criteria_read]
    exact congrArg (List.filterMap · _) (funext s.criterion?_eq_filter)
  · rw [hr, he, ← List.filter_append] at hc
    exact authorizes_of_admittedBy (List.mem_filter.mp hc).2

/-- A sieve that lets names through, and hides the passwords that its list allows. -/
def nameSieve : Sieve where
  policy := { allowance := .only ["name", "password", "order_by"], hidden := ["password"] }
  normalize := FieldName.verbatim

/-- A query, and another one as it stands in a URL. -/
def nameQuery : String := "password=x&name=Bob&order_by=password"

def encodedNameQuery : String := "name=%2AA%6Ena+B%2A&pass%77ord%3Dx&order_by=name%2Cdesc"

theorem criteria_nameSieve :
    (nameSieve.read nameQuery).criteria = [.comparison "name" .eq "Bob"] ∧
      (nameSieve.unrestricted.readEncoded (some encodedNameQuery)).criteria =
        [.patternMatch "name" "%Anna B%", .comparison "password" .eq "x",
          .sortDirective "name" .desc] ∧
      (nameSieve.readEncoded (some encodedNameQuery)).criteria =
        [.patternMatch "name" "%Anna B%", .sortDirective "name" .desc] ∧
      nameSieve.policy.authorizes "name" = true ∧ "name" ∉ nameSieve.policy.hidden := by
  obtain ⟨-, he, -, hkey⟩ :=
    criteria_eq_filter_unrestricted nameSieve nameQuery (some encodedNameQuery)
  have h : (nameSieve.read nameQuery).criteria = [.comparison "name" .eq "Bob"] := by
    decide +kernel
  have hu : (nameSieve.unrestricted.readEncoded (some encodedNameQuery)).criteria =
      [.patternMatch "name" "%Anna B%", .comparison "password" .eq "x",
        .sortDirective "name" .desc] := by
    decide +kernel
  rw [hu] at he
  refine ⟨h, hu, he.trans (by decide +kernel), hkey (.comparison "name" .eq "Bob") ?_⟩
  rw [h]
  exact List.mem_cons_self

end Sieve

end QuerySieve
