import QuerySieve.Proofs.Records
import QuerySieve.Proofs.RoundTrip

/-!
# The tokens that ask for a criterion

Reading a token tries the kinds of criteria one after the other. Seen from the criterion, each kind
has a rule of its own for the tokens that ask for it. By these rules a comparison, a list and a test
for null are asked for by a single token; two tokens for another criterion differ where the rule
looks at a part of the token only.

* `AsksFor`: the rules.
* `Criterion.ofToken_eq_ok_iff_asksFor`: a token gives the criterion that it asks for, and no other.
* `DifferAtEnds`, `differAtEnds_of_turnEnds_eq`: values that ask for the same pattern.
* **`Criterion.agreeFor_of_ofToken_eq`**: what two tokens for one criterion have in common.
-/

namespace QuerySieve

/-- The direction that a sort value asks for, if it is one: that of the second of two parts, and
else up. -/
def sortDirection? (value : String) : Option Direction :=
  match Text.splitOn ',' value with
  | [_, direction] => Direction.ofText? direction
  | _ => some .asc

/-- **The tokens that ask for a criterion.** -/
def AsksFor (g : Gate) (t : Token) : Criterion → Prop
  | .comparison key r value =>
    t = ⟨key, r.symbol, value⟩ ∧ value ≠ nullWord ∧ ¬ HasAtEnd '*' value.toList ∧
      ¬ (key = sortKey ∧ '*' ∉ value.toList)
  | .nullTest key isNull =>
    ∃ r : Relation, t = ⟨key, r.symbol, nullWord⟩ ∧ isNull = decide (r = .eq)
  | .patternMatch key pattern =>
    ∃ (r : Relation) (value : String), t = ⟨key, r.symbol, value⟩ ∧ HasAtEnd '*' value.toList ∧
      pattern = String.ofList (turnEnds '*' '%' value.toList)
  | .inclusionTest key negated values =>
    ∃ value : String, t = ⟨key, (FragmentOperator.member negated).symbol, value⟩ ∧
      values = Text.splitOn ',' value ∧ g.admitsLength values.length = true
  | .sortDirective key direction =>
    ∃ (r : Relation) (value : String), t = ⟨sortKey, r.symbol, value⟩ ∧ value ≠ nullWord ∧
      '*' ∉ value.toList ∧ key = Criterion.sortTarget g value ∧ g.authorizes key = true ∧
      sortDirection? value = some direction

/-! ## Reading by the rules -/

namespace Criterion

variable {g : Gate} {c : Criterion}

theorem ofSortValue_of_authorizes {value : String}
    (ha : g.authorizes (sortTarget g value) = true) :
    ofSortValue g value = match sortDirection? value with
      | some d => .ok (.sortDirective (sortTarget g value) d)
      | none => .error .invalidDirection := by
  unfold ofSortValue sortDirection?
  unfold sortTarget at ha ⊢
  generalize Text.splitOn ',' value = parts at ha ⊢
  simp only [ha, Bool.not_true, Bool.false_eq_true, if_false]
  rcases parts with _ | ⟨target, _ | ⟨direction, _ | _⟩⟩
  · rfl
  · rfl
  · cases hd : Direction.ofText? direction <;> simp only [hd]
  · rfl

theorem ofSortValue_eq_ok_iff_target {value : String} :
    ofSortValue g value = .ok c ↔
      g.authorizes (sortTarget g value) = true ∧
        ∃ d, sortDirection? value = some d ∧ c = .sortDirective (sortTarget g value) d := by
  by_cases ha : g.authorizes (sortTarget g value) = true
  · rw [ofSortValue_of_authorizes ha]
    cases hd : sortDirection? value with
    | none => simp
    | some d =>
      constructor
      · intro h
        cases h
        exact ⟨ha, d, rfl, rfl⟩
      · rintro ⟨-, e, he, rfl⟩
        cases he
        rfl
  · rw [ofSortValue_eq, if_neg ha]
    constructor
    · intro h
      cases h
    · intro h
      exact absurd h.1 ha

theorem asksFor_of_ofComparison {key value : String} {r : Relation}
    (h : ofComparison g key r value = .ok c) : AsksFor g ⟨key, r.symbol, value⟩ c := by
  unfold ofComparison at h
  by_cases hn : value = nullWord
  · rw [if_pos hn] at h
    cases h
    exact ⟨r, by rw [hn], rfl⟩
  rw [if_neg hn, likePattern?_eq] at h
  by_cases hw : HasAtEnd '*' value.toList
  · rw [if_pos hw] at h
    cases h
    exact ⟨r, value, rfl, hw, rfl⟩
  rw [if_neg hw] at h
  by_cases hs : key = sortKey ∧ '*' ∉ value.toList
  · simp only [if_pos hs] at h
    obtain ⟨ha, d, hd, rfl⟩ := ofSortValue_eq_ok_iff_target.mp h
    exact ⟨r, value, by rw [hs.1], hn, hs.2, rfl, ha, hd⟩
  · simp only [if_neg hs] at h
    cases h
    exact ⟨rfl, hn, hw, hs⟩

theorem asksFor_of_ofMembership {key value : String} {negated : Bool}
    (h : ofMembership g key negated value = .ok c) :
    AsksFor g ⟨key, (FragmentOperator.member negated).symbol, value⟩ c := by
  unfold ofMembership at h
  simp only at h
  split_ifs at h with hl
  cases h
  exact ⟨value, rfl, rfl, hl⟩

theorem asksFor_of_ofToken {t : Token} (h : ofToken g t = .ok c) :
    g.authorizes t.key = true ∧ AsksFor g t c := by
  obtain ⟨key, operator, value⟩ := t
  cases ho : FragmentOperator.ofSymbol? operator with
  | none => simp [ofToken, ho] at h
  | some o =>
    obtain rfl := FragmentOperator.symbol_of_ofSymbol? ho
    by_cases ha : g.authorizes key = true
    · refine ⟨ha, ?_⟩
      cases o with
      | compare r => exact asksFor_of_ofComparison ((ofToken_compare ha r).symm.trans h)
      | member negated => exact asksFor_of_ofMembership ((ofToken_member ha negated).symm.trans h)
    · simp [ofToken, ho, ha] at h

theorem ofToken_of_asksFor {t : Token} (ha : g.authorizes t.key = true) (h : AsksFor g t c) :
    ofToken g t = .ok c := by
  cases c with
  | comparison key r value =>
    obtain ⟨rfl, hn, hw, hs⟩ := h
    rw [ofToken_compare ha, ofComparison, if_neg hn, likePattern?_eq_none hw]
    exact if_neg hs
  | nullTest key isNull =>
    obtain ⟨r, rfl, rfl⟩ := h
    rw [ofToken_compare ha, ofComparison, if_pos rfl]
  | patternMatch key pattern =>
    obtain ⟨r, value, rfl, hw, rfl⟩ := h
    have hn : value ≠ nullWord := by
      rintro rfl
      revert hw
      decide
    rw [ofToken_compare ha, ofComparison, if_neg hn, likePattern?_eq, if_pos hw]
  | inclusionTest key negated values =>
    obtain ⟨value, rfl, rfl, hl⟩ := h
    rw [ofToken_member ha, ofMembership, if_pos hl]
  | sortDirective key direction =>
    obtain ⟨r, value, rfl, hn, hw, rfl, ht, hd⟩ := h
    rw [ofToken_compare ha, ofComparison_sort hn hw]
    exact ofSortValue_eq_ok_iff_target.mpr ⟨ht, direction, hd, rfl⟩

/-- **A token gives the criterion that it asks for**, and no other. -/
theorem ofToken_eq_ok_iff_asksFor {t : Token} :
    ofToken g t = .ok c ↔ g.authorizes t.key = true ∧ AsksFor g t c :=
  ⟨asksFor_of_ofToken, fun h => ofToken_of_asksFor h.1 h.2⟩

end Criterion

/-! ## Values that are told apart or not -/

/-- Texts of one length that differ at their ends at most, where one has `x` and the other `y`. -/
def DifferAtEnds (x y : Char) (cs ds : List Char) : Prop :=
  cs.length = ds.length ∧
    ∀ i, cs[i]? ≠ ds[i]? → (i = 0 ∨ i + 1 = cs.length) ∧
      (cs[i]? = some x ∧ ds[i]? = some y ∨ cs[i]? = some y ∧ ds[i]? = some x)

theorem turn_eq_turn {x y a b : Char} (h : turn x y a = turn x y b) :
    a = b ∨ a = x ∧ b = y ∨ a = y ∧ b = x := by
  unfold turn at h
  split_ifs at h with ha hb
  · exact .inl (ha.trans hb.symm)
  · exact .inr (.inl ⟨ha, h.symm⟩)
  · exact .inr (.inr ⟨h, by assumption⟩)
  · exact .inl h

theorem length_turnEnds (x y : Char) (cs : List Char) :
    (turnEnds x y cs).length = cs.length := by
  simp [turnEnds]

theorem getElem?_turnEnds (x y : Char) (cs : List Char) (i : Nat) :
    (turnEnds x y cs)[i]? =
      if i = 0 ∨ i + 1 = cs.length then cs[i]?.map (turn x y) else cs[i]? := by
  obtain rfl | ⟨c, rfl⟩ | ⟨a, m, b, rfl⟩ := ends_cases cs
  · simp [turnEnds]
  · rw [turnEnds_singleton]
    cases i <;> simp
  · rw [turnEnds_cons_concat]
    cases i with
    | zero => simp
    | succ i =>
      simp only [List.getElem?_cons_succ, List.length_cons, List.length_append, List.length_nil,
        Nat.zero_add]
      by_cases hi : i = m.length
      · simp [hi]
      · have hne : ¬ (i + 1 = 0 ∨ i + 1 + 1 = m.length + 1 + 1) := by omega
        rw [if_neg hne]
        by_cases hlt : i < m.length
        · rw [List.getElem?_append_left hlt, List.getElem?_append_left hlt]
        · obtain ⟨k, hk⟩ : ∃ k, i - m.length = k + 1 := ⟨i - m.length - 1, by omega⟩
          rw [List.getElem?_append_right (by omega), List.getElem?_append_right (by omega), hk]
          rfl

theorem differAtEnds_of_turnEnds_eq {x y : Char} {cs ds : List Char}
    (h : turnEnds x y cs = turnEnds x y ds) : DifferAtEnds x y cs ds := by
  have hl : cs.length = ds.length := by
    rw [← length_turnEnds x y cs, h, length_turnEnds]
  refine ⟨hl, fun i hne => ?_⟩
  have hi : (turnEnds x y cs)[i]? = (turnEnds x y ds)[i]? := by rw [h]
  rw [getElem?_turnEnds, getElem?_turnEnds, ← hl] at hi
  by_cases hend : i = 0 ∨ i + 1 = cs.length
  · refine ⟨hend, ?_⟩
    rw [if_pos hend, if_pos hend] at hi
    cases hc : cs[i]? <;> cases hd : ds[i]? <;> simp only [hc, hd] at hi hne
    · exact absurd rfl hne
    · cases hi
    · cases hi
    · next a b =>
      rcases turn_eq_turn (Option.some.inj hi) with rfl | ⟨rfl, rfl⟩ | ⟨rfl, rfl⟩
      · exact absurd rfl hne
      · exact .inl ⟨rfl, rfl⟩
      · exact .inr ⟨rfl, rfl⟩
  · rw [if_neg hend, if_neg hend] at hi
    exact absurd hi hne

theorem Text.splitOn_injective (separator : Char) : Function.Injective (Text.splitOn separator) := by
  intro s t h
  have hparts : s.toList.splitOn separator = t.toList.splitOn separator :=
    List.map_injective_iff.mpr (fun _ _ => String.ofList_inj.mp) h
  apply String.toList_inj.mp
  calc s.toList
    _ = [separator].intercalate (s.toList.splitOn separator) :=
      (List.intercalate_splitOn separator).symm
    _ = [separator].intercalate (t.toList.splitOn separator) := by rw [hparts]
    _ = t.toList := List.intercalate_splitOn separator

/-! ## Two tokens for one criterion -/

namespace Criterion

/-- **What two tokens for one criterion have in common.** -/
def AgreeFor (g : Gate) : Criterion → Token → Token → Prop
  | .comparison _ _ _, t, t' => t = t'
  | .inclusionTest _ _ _, t, t' => t = t'
  | .nullTest _ true, t, t' => t = t'
  | .nullTest _ false, t, t' => t.key = t'.key ∧ t.value = "null" ∧ t'.value = "null"
  | .patternMatch _ _, t, t' =>
    t.key = t'.key ∧ DifferAtEnds '*' '%' t.value.toList t'.value.toList
  | .sortDirective key direction, t, t' =>
    ∀ u ∈ [t, t'], u.key = "order_by" ∧ sortTarget g u.value = key ∧
      sortDirection? u.value = some direction

theorem agreeFor_of_asksFor {g : Gate} {c : Criterion} {t t' : Token} (h : AsksFor g t c)
    (h' : AsksFor g t' c) : c.AgreeFor g t t' := by
  cases c with
  | comparison key r value => exact h.1.trans h'.1.symm
  | nullTest key isNull =>
    obtain ⟨r, rfl, hr⟩ := h
    obtain ⟨r', rfl, hr'⟩ := h'
    cases isNull with
    | true =>
      obtain rfl : r = .eq := of_decide_eq_true hr.symm
      obtain rfl : r' = .eq := of_decide_eq_true hr'.symm
      rfl
    | false => exact ⟨rfl, rfl, rfl⟩
  | patternMatch key pattern =>
    obtain ⟨r, value, rfl, -, rfl⟩ := h
    obtain ⟨r', value', rfl, -, he⟩ := h'
    exact ⟨rfl, differAtEnds_of_turnEnds_eq (String.ofList_inj.mp he)⟩
  | inclusionTest key negated values =>
    obtain ⟨value, rfl, rfl, -⟩ := h
    obtain ⟨value', rfl, he, -⟩ := h'
    show Token.mk key _ value = Token.mk key _ value'
    rw [Text.splitOn_injective ',' he]
  | sortDirective key direction =>
    have rule : ∀ u, AsksFor g u (.sortDirective key direction) → u.key = "order_by" ∧
        sortTarget g u.value = key ∧ sortDirection? u.value = some direction := by
      rintro u ⟨r, value, rfl, -, -, hk, -, hd⟩
      exact ⟨rfl, hk.symm, hd⟩
    intro u hu
    rcases List.mem_pair.mp hu with rfl | rfl
    · exact rule u h
    · exact rule u h'

/-- **Tokens that give the same criterion** are the same token, unless it is a test for anything but
null, a pattern, where `*` and `%` at the ends are alike, or a sort by one field in one direction.
-/
theorem agreeFor_of_ofToken_eq (g : Gate) (t t' : Token) (c : Criterion)
    (h : ofToken g t = .ok c) (h' : ofToken g t' = .ok c) : c.AgreeFor g t t' :=
  agreeFor_of_asksFor (asksFor_of_ofToken h).2 (asksFor_of_ofToken h').2

/-- A gate that takes every name as it is. -/
def plainGate : Gate where
  normalize := FieldName.verbatim
  authorizes := fun _ => true

/-- Two tokens for one pattern, and two for one sort. -/
theorem agreeFor_of_ofToken_eq_plainGate :
    ofToken plainGate ⟨"name", "=", "*a%"⟩ = .ok (.patternMatch "name" "%a%") ∧
      ofToken plainGate ⟨"name", "<", "%a*"⟩ = .ok (.patternMatch "name" "%a%") ∧
      (patternMatch "name" "%a%").AgreeFor plainGate ⟨"name", "=", "*a%"⟩ ⟨"name", "<", "%a*"⟩ ∧
      ofToken plainGate ⟨"order_by", "=", "age"⟩ = .ok (.sortDirective "age" .asc) ∧
      ofToken plainGate ⟨"order_by", "!=", "age,ASC"⟩ = .ok (.sortDirective "age" .asc) ∧
      (sortDirective "age" .asc).AgreeFor plainGate ⟨"order_by", "=", "age"⟩
        ⟨"order_by", "!=", "age,ASC"⟩ := by
  have h₁ : ofToken plainGate ⟨"name", "=", "*a%"⟩ = .ok (.patternMatch "name" "%a%") := by decide
  have h₂ : ofToken plainGate ⟨"name", "<", "%a*"⟩ = .ok (.patternMatch "name" "%a%") := by decide
  have h₃ : ofToken plainGate ⟨"order_by", "=", "age"⟩ = .ok (.sortDirective "age" .asc) := by
    decide
  have h₄ : ofToken plainGate ⟨"order_by", "!=", "age,ASC"⟩ = .ok (.sortDirective "age" .asc) := by
    decide
  exact ⟨h₁, h₂, agreeFor_of_ofToken_eq _ _ _ _ h₁ h₂, h₃, h₄,
    agreeFor_of_ofToken_eq _ _ _ _ h₃ h₄⟩

end Criterion

end QuerySieve
