import Mathlib.Data.List.Basic
import Mathlib.Tactic.Common
import QuerySieve.Proofs.Pattern
import QuerySieve.Proofs.Reading
import QuerySieve.Proofs.Token

/-!
# Criteria written and read back

Every criterion is written as a fragment. Reading tries the kinds of criteria one after the other,
null tests first, then patterns, then sorts; what is written for one kind is read back unless a kind
that comes earlier takes it.

* `Criterion.token`, `Criterion.fragment`: the fragment of a criterion.
* `Sieve.Expresses`: the criteria that a client can write for a sieve.
* `Sieve.criterion?_fragment`: a fragment gives its criterion back.
* **`Sieve.criteria_read_fragments`**: so does a query of fragments.
-/

namespace QuerySieve

/-! ## Writing -/

namespace Criterion

/-- The token that asks for a criterion. -/
def token : Criterion → Token
  | comparison key r value => ⟨key, r.symbol, value⟩
  | nullTest key true => ⟨key, "=", "null"⟩
  | nullTest key false => ⟨key, "!=", "null"⟩
  | patternMatch key pattern => ⟨key, "=", wildValue pattern⟩
  | inclusionTest key false values => ⟨key, "~", ",".intercalate values⟩
  | inclusionTest key true values => ⟨key, "!~", ",".intercalate values⟩
  | sortDirective key direction => ⟨"order_by", "=", key ++ "," ++ direction.name⟩

/-- The fragment that asks for a criterion. -/
def fragment (c : Criterion) : String :=
  c.token.text

end Criterion

namespace Sieve

variable (s : Sieve)

/-- A field that may be used, under the name that it has. -/
def Offers (name : String) : Prop :=
  s.policy.authorizes name = true ∧ s.normalize name = name

instance (name : String) : Decidable (s.Offers name) :=
  inferInstanceAs (Decidable (_ ∧ _))

/-- The criteria that a client can write for a sieve. -/
def Expresses : Criterion → Prop
  | .comparison key _ value =>
    s.Offers key ∧ Plain key ∧ Plain value ∧ key ≠ "order_by" ∧ value ≠ "" ∧ value ≠ "null" ∧
      ¬ HasAtEnd '*' value.toList
  | .nullTest key _ => s.Offers key ∧ Plain key
  | .patternMatch key pattern =>
    s.Offers key ∧ Plain key ∧ Plain pattern ∧ HasAtEnd '%' pattern.toList ∧
      ¬ HasAtEnd '*' pattern.toList
  | .inclusionTest key _ values =>
    s.Offers key ∧ Plain key ∧ (∀ v ∈ values, Plain v ∧ ',' ∉ v.toList) ∧ values ≠ [] ∧
      values ≠ [""] ∧ values.length ≤ s.limits.listValues
  | .sortDirective key _ =>
    s.Offers key ∧ s.Offers "order_by" ∧ Plain key ∧ ',' ∉ key.toList ∧ '*' ∉ key.toList

instance : DecidablePred s.Expresses
  | .comparison _ _ _ => inferInstanceAs (Decidable (_ ∧ _))
  | .nullTest _ _ => inferInstanceAs (Decidable (_ ∧ _))
  | .patternMatch _ _ => inferInstanceAs (Decidable (_ ∧ _))
  | .inclusionTest _ _ _ => inferInstanceAs (Decidable (_ ∧ _))
  | .sortDirective _ _ => inferInstanceAs (Decidable (_ ∧ _))

end Sieve

/-! ## Legible tokens -/

theorem intercalate_comma_ne {values : List String} (hne : values ≠ []) (he : values ≠ [""]) :
    ",".intercalate values ≠ "" := by
  intro h
  have hl := congrArg String.toList h
  rw [String.toList_intercalate] at hl
  cases values with
  | nil => exact hne rfl
  | cons v values =>
    cases values with
    | nil => exact he (by simpa using hl)
    | cons w values =>
      rw [List.map_cons, List.map_cons, List.intercalate_cons_cons] at hl
      simp at hl

theorem wildValue_ne {pattern : String} (h : HasAtEnd '%' pattern.toList) :
    wildValue pattern ≠ "" := by
  intro he
  have hw : HasAtEnd '*' (wildValue pattern).toList := by
    rw [wildValue, String.toList_ofList]
    exact hasAtEnd_turnEnds h
  rw [he] at hw
  revert hw
  decide

theorem plain_wildValue {pattern : String} (h : Plain pattern) : Plain (wildValue pattern) := by
  intro c hc
  rw [wildValue, String.toList_ofList] at hc
  obtain rfl | hc := mem_turnEnds hc
  · decide
  · exact h c hc

namespace Direction

theorem plain_name (d : Direction) : Plain d.name := by
  cases d <;> decide

theorem notMem_name (d : Direction) : ',' ∉ d.name.toList ∧ '*' ∉ d.name.toList := by
  cases d <;> decide

end Direction

namespace Sieve

variable {s : Sieve}

theorem Offers.ne_empty {name : String} (h : s.Offers name) : name ≠ "" :=
  (Policy.authorizes_iff.mp h.1).1

theorem Expresses.legible {c : Criterion} (h : s.Expresses c) : c.token.Legible := by
  cases c with
  | comparison key r value =>
    obtain ⟨ho, hk, hv, -, hne, -, -⟩ := h
    exact ⟨⟨.compare r, rfl⟩, ho.ne_empty, hne, hk, hv⟩
  | nullTest key isNull =>
    obtain ⟨ho, hk⟩ := h
    have hv : Plain nullWord := by decide
    have hne : nullWord ≠ "" := by decide
    cases isNull with
    | true => exact ⟨⟨.compare .eq, rfl⟩, ho.ne_empty, hne, hk, hv⟩
    | false => exact ⟨⟨.compare .ne, rfl⟩, ho.ne_empty, hne, hk, hv⟩
  | patternMatch key pattern =>
    obtain ⟨ho, hk, hv, hp, -⟩ := h
    exact ⟨⟨.compare .eq, rfl⟩, ho.ne_empty, wildValue_ne hp, hk, plain_wildValue hv⟩
  | inclusionTest key negated values =>
    obtain ⟨ho, hk, hvs, hne, he, -⟩ := h
    have hv : Plain (",".intercalate values) :=
      plain_intercalate (by decide) fun v hv => (hvs v hv).1
    cases negated with
    | true => exact ⟨⟨.member true, rfl⟩, ho.ne_empty, intercalate_comma_ne hne he, hk, hv⟩
    | false => exact ⟨⟨.member false, rfl⟩, ho.ne_empty, intercalate_comma_ne hne he, hk, hv⟩
  | sortDirective key d =>
    obtain ⟨-, ho, hk, -, -⟩ := h
    have hs : Plain sortKey := by decide
    have hv : Plain (key ++ "," ++ d.name) := (hk.append (by decide)).append d.plain_name
    have hne : ",".intercalate [key, d.name] ≠ "" := intercalate_comma_ne (by simp) (by simp)
    exact ⟨⟨.compare .eq, rfl⟩, ho.ne_empty, hne, hs, hv⟩

theorem Expresses.normalize {c : Criterion} (h : s.Expresses c) :
    s.normalize c.token.key = c.token.key := by
  cases c with
  | comparison key r value => exact h.1.2
  | nullTest key isNull => cases isNull <;> exact h.1.2
  | patternMatch key pattern => exact h.1.2
  | inclusionTest key negated values => cases negated <;> exact h.1.2
  | sortDirective key d => exact h.2.1.2

end Sieve

/-! ## Reading tokens -/

namespace Criterion

variable {g : Gate} {key value : String}

theorem ofToken_compare (ha : g.authorizes key = true) (r : Relation) :
    ofToken g ⟨key, r.symbol, value⟩ = ofComparison g key r value := by
  have ho := FragmentOperator.ofSymbol?_symbol (.compare r)
  rw [FragmentOperator.symbol] at ho
  simp [ofToken, ho, ha]

theorem ofToken_member (ha : g.authorizes key = true) (negated : Bool) :
    ofToken g ⟨key, (FragmentOperator.member negated).symbol, value⟩ =
      ofMembership g key negated value := by
  simp [ofToken, FragmentOperator.ofSymbol?_symbol, ha]

theorem ofComparison_value (hk : key ≠ sortKey) (hn : value ≠ nullWord)
    (hv : ¬ HasAtEnd '*' value.toList) (r : Relation) :
    ofComparison g key r value = .ok (.comparison key r value) := by
  have hs : ¬ (key = sortKey ∧ '*' ∉ value.toList) := fun h => hk h.1
  simp only [ofComparison, if_neg hn, likePattern?_eq_none hv, if_neg hs]

theorem ofComparison_wildValue {pattern : String} (hp : HasAtEnd '%' pattern.toList)
    (hs : ¬ HasAtEnd '*' pattern.toList) (r : Relation) :
    ofComparison g key r (wildValue pattern) = .ok (.patternMatch key pattern) := by
  have hl := likePattern?_wildValue hp hs
  -- The word for null has no wildcard.
  have hn : wildValue pattern ≠ nullWord := by
    intro h
    have hnone : likePattern? nullWord = none := by decide
    rw [h, hnone] at hl
    cases hl
  simp only [ofComparison, if_neg hn, hl]

theorem ofSortValue_text (hn : g.normalize key = key) (ha : g.authorizes key = true)
    (hc : ',' ∉ key.toList) (d : Direction) :
    ofSortValue g (key ++ "," ++ d.name) = .ok (.sortDirective key d) := by
  have hparts : Text.splitOn ',' (key ++ "," ++ d.name) = [key, d.name] := by
    have hj : key ++ "," ++ d.name = ",".intercalate [key, d.name] := rfl
    rw [hj]
    refine Text.splitOn_intercalate rfl (List.cons_ne_nil _ _) fun t ht => ?_
    obtain rfl | rfl : t = key ∨ t = d.name := by simpa using ht
    · exact hc
    · exact d.notMem_name.1
  simp [ofSortValue, hparts, hn, ha, Direction.ofText?_name]

theorem ofComparison_sort (hn : value ≠ nullWord) (hw : '*' ∉ value.toList) (r : Relation) :
    ofComparison g sortKey r value = ofSortValue g value := by
  rw [ofComparison, if_neg hn, likePattern?_eq_none (not_hasAtEnd_of_notMem hw)]
  exact if_pos ⟨rfl, hw⟩

theorem ofComparison_sortKey (hw : '*' ∉ key.toList) (d : Direction) (r : Relation) :
    ofComparison g sortKey r (key ++ "," ++ d.name) = ofSortValue g (key ++ "," ++ d.name) := by
  have hn : key ++ "," ++ d.name ≠ nullWord := by
    intro h
    have hm : ',' ∈ (key ++ "," ++ d.name).toList := by simp
    rw [h] at hm
    revert hm
    decide
  have hstar : '*' ∉ (key ++ "," ++ d.name).toList := by
    simpa using ⟨hw, d.notMem_name.2⟩
  exact ofComparison_sort hn hstar r

theorem ofMembership_intercalate {values : List String} (hne : values ≠ [])
    (hc : ∀ v ∈ values, ',' ∉ v.toList) (hl : g.admitsLength values.length = true)
    (negated : Bool) :
    ofMembership g key negated (",".intercalate values) =
      .ok (.inclusionTest key negated values) := by
  have hparts : Text.splitOn ',' (",".intercalate values) = values :=
    Text.splitOn_intercalate rfl hne hc
  simp only [ofMembership, hparts, hl, if_true]

end Criterion

namespace Sieve

variable {s : Sieve}

/-- **The token of a criterion is read as that criterion.** -/
theorem Expresses.ofToken {c : Criterion} (h : s.Expresses c) :
    Criterion.ofToken s.gate c.token = .ok c := by
  cases c with
  | comparison key r value =>
    obtain ⟨ho, -, -, hk, -, hn, hv⟩ := h
    exact (Criterion.ofToken_compare ho.1 r).trans (Criterion.ofComparison_value hk hn hv r)
  | nullTest key isNull =>
    cases isNull with
    | true => exact Criterion.ofToken_compare h.1.1 .eq
    | false => exact Criterion.ofToken_compare h.1.1 .ne
  | patternMatch key pattern =>
    obtain ⟨ho, -, -, hp, hs⟩ := h
    exact (Criterion.ofToken_compare ho.1 .eq).trans (Criterion.ofComparison_wildValue hp hs .eq)
  | inclusionTest key negated values =>
    obtain ⟨ho, -, hvs, hne, -, hl⟩ := h
    have hadmits : s.gate.admitsLength values.length = true := by
      simpa [Gate.admitsLength, gate] using hl
    have hm : Criterion.ofMembership s.gate key negated (",".intercalate values) =
        .ok (.inclusionTest key negated values) :=
      Criterion.ofMembership_intercalate hne (fun v hv => (hvs v hv).2) hadmits negated
    cases negated with
    | true => exact (Criterion.ofToken_member ho.1 true).trans hm
    | false => exact (Criterion.ofToken_member ho.1 false).trans hm
  | sortDirective key d =>
    obtain ⟨ho, hs, -, hc, hw⟩ := h
    calc Criterion.ofToken s.gate ⟨sortKey, Relation.eq.symbol, key ++ "," ++ d.name⟩
      _ = Criterion.ofComparison s.gate sortKey .eq (key ++ "," ++ d.name) :=
        Criterion.ofToken_compare hs.1 .eq
      _ = Criterion.ofSortValue s.gate (key ++ "," ++ d.name) :=
        Criterion.ofComparison_sortKey hw d .eq
      _ = .ok (.sortDirective key d) := Criterion.ofSortValue_text ho.2 ho.1 hc d

theorem criterion?_fragment {c : Criterion} (h : s.Expresses c) :
    s.criterion? c.fragment = some c := by
  have ht : tokenize c.fragment = some c.token := Token.tokenize_text h.legible
  rw [criterion?, readFragment, ht]
  simp only [h.normalize, h.ofToken]
  rfl

theorem fragments_fragment {cs : List Criterion} (hne : cs ≠ []) (h : ∀ c ∈ cs, s.Expresses c) :
    fragments ("&".intercalate (cs.map Criterion.fragment)) = cs.map Criterion.fragment := by
  refine fragments_intercalate (by simpa using hne) fun t ht => ?_
  obtain ⟨c, hc, rfl⟩ := List.mem_map.mp ht
  exact Token.separator_notMem_text (h c hc).legible

theorem filterMap_criterion?_fragment {cs : List Criterion} (h : ∀ c ∈ cs, s.Expresses c) :
    (cs.map Criterion.fragment).filterMap s.criterion? = cs := by
  induction cs with
  | nil => rfl
  | cons c cs ih =>
    rw [List.map_cons, List.filterMap_cons_some (criterion?_fragment (h c List.mem_cons_self)),
      ih fun d hd => h d (List.mem_cons_of_mem _ hd)]

/-- **What is written is read back**: the fragments of criteria, as many as are looked at, are a
query for just these criteria in their order. -/
theorem criteria_read_fragments (s : Sieve) (cs : List Criterion)
    (hn : cs.length ≤ s.limits.fragments) (h : ∀ c ∈ cs, s.Expresses c) :
    (s.read ("&".intercalate (cs.map Criterion.fragment))).criteria = cs := by
  by_cases hne : cs = []
  · subst hne
    rfl
  · have htake : (cs.map Criterion.fragment).take s.limits.fragments =
        cs.map Criterion.fragment :=
      List.take_of_length_le (by rwa [List.length_map])
    rw [criteria_read, fragments_fragment hne h, htake, filterMap_criterion?_fragment h]

/-- A sieve for names in snake case, of which some are offered. -/
def staffSieve : Sieve where
  policy := { allowance := .only ["name", "age", "role", "order_by"] }
  limits := { fragments := 8, listValues := 3 }

/-- One criterion of each kind, with a wildcard and separators where they are free to stand. -/
def staffCriteria : List Criterion :=
  [.comparison "age" .le "3*0,5", .nullTest "order_by" false, .patternMatch "name" "%o*b",
    .patternMatch "order_by" "%", .inclusionTest "role" true ["", "", "admin"],
    .nullTest "role" true, .inclusionTest "name" false ["null"], .sortDirective "name" .desc]

theorem criteria_read_staffCriteria :
    "&".intercalate (staffCriteria.map Criterion.fragment) =
        "age<=3*0,5&order_by!=null&name=*o*b&order_by=*&role!~,,admin&role=null&name~null" ++
          "&order_by=name,desc" ∧
      staffCriteria.length ≤ staffSieve.limits.fragments ∧
      (∀ c ∈ staffCriteria, staffSieve.Expresses c) ∧
      (staffSieve.read ("&".intercalate (staffCriteria.map Criterion.fragment))).criteria =
        staffCriteria := by
  have hn : staffCriteria.length ≤ staffSieve.limits.fragments := by decide
  have h : ∀ c ∈ staffCriteria, staffSieve.Expresses c := by decide +kernel
  exact ⟨by decide +kernel, hn, h, criteria_read_fragments staffSieve staffCriteria hn h⟩

end Sieve

end QuerySieve
