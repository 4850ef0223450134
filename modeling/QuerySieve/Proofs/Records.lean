import QuerySieve.Proofs.Authorization
import QuerySieve.Proofs.Pattern

/-!
# What is left out is on record

Every fragment that is looked at gives a criterion or a record, one of the two and one of it, and
the fragments beyond the limit share a last record. The reason in a record is the first of a list of
rules that the fragment breaks.

* `Sieve.dropReason?`: the rules.
* `Sieve.reason_refusal?`: a fragment is refused by these rules and by no other.
* `Sieve.records_readFragments`, `Sieve.length_criteria_add`: the records of a list of fragments,
  and the account of it.
* **`Sieve.records_read_account`**: the records of a query.
-/

namespace QuerySieve

/-- The symbols of the operators of fragments. -/
def operatorSymbols : List String := ["=", "!=", "<", ">", "<=", ">=", "~", "!~"]

/-- The symbols of the operators that take a list. -/
def listSymbols : List String := ["~", "!~"]

/-! ## Rules -/

/-- Whether a sort value gives a direction that is none. -/
def misdirects (value : String) : Bool :=
  match Text.splitOn ',' value with
  | [_, direction] => (Direction.ofText? direction).isNone
  | _ => false

namespace Sieve

variable (s : Sieve)

/-- Whether a token asks for a sort: it compares the sort key with a value that neither is `null`
nor holds a wildcard. -/
def asksForSort (t : Token) : Bool :=
  s.normalize t.key = sortKey && t.operator ∉ listSymbols && t.value ≠ nullWord &&
    '*' ∉ t.value.toList

/-- Whether the field of a token may be used and, if it asks for a sort, the field to sort by. -/
def permits (t : Token) : Bool :=
  s.policy.authorizes (s.normalize t.key) &&
    (!s.asksForSort t ||
      s.policy.authorizes (s.normalize ((Text.splitOn ',' t.value).headD "")))

/-- **The reason why a fragment is left out**, if it is. -/
def dropReason? (fragment : String) : Option String :=
  match tokenize fragment with
  | none => some "malformed"
  | some t =>
    if t.operator ∉ operatorSymbols then some "unsupported operator"
    else if !s.permits t then some "unauthorized"
    else if t.operator ∈ listSymbols then
      if s.limits.listValues < (Text.splitOn ',' t.value).length then some "list too long" else none
    else if s.asksForSort t && misdirects t.value then some "invalid sort direction"
    else none

end Sieve

/-! ## Refusals of tokens -/

/-- The refusal in a result, if it is one. -/
def refusalIn? {α : Type} : Except Refusal α → Option Refusal
  | .ok _ => none
  | .error r => some r

namespace FragmentOperator

theorem symbol_of_ofSymbol? {x : String} {o : FragmentOperator} (h : ofSymbol? x = some o) :
    x = o.symbol := by
  unfold ofSymbol? Relation.ofSymbol? at h
  split at h
  · next r hr =>
    cases h
    split at hr <;> cases hr <;> rfl
  · split_ifs at h with h₁ h₂
    · cases h
      exact h₁
    · cases h
      exact h₂

theorem ofSymbol?_eq_none_iff {x : String} : ofSymbol? x = none ↔ x ∉ operatorSymbols := by
  constructor
  · intro h hm
    have hs : ∀ y ∈ operatorSymbols, (ofSymbol? y).isSome = true := by decide
    have := hs x hm
    rw [h] at this
    cases this
  · intro h
    cases ho : ofSymbol? x with
    | none => rfl
    | some o =>
      rw [symbol_of_ofSymbol? ho] at h
      rcases o with r | negated
      · cases r <;> exact absurd (by decide) h
      · cases negated <;> exact absurd (by decide) h

theorem symbol_compare_notMem (r : Relation) : (compare r).symbol ∉ listSymbols := by
  cases r <;> decide

theorem symbol_member_mem (negated : Bool) : (member negated).symbol ∈ listSymbols := by
  cases negated <;> decide

end FragmentOperator

namespace Criterion

variable (g : Gate)

theorem refusalIn?_ofSortValue (value : String) :
    refusalIn? (ofSortValue g value) =
      if !g.authorizes (sortTarget g value) then some .unauthorized
      else if misdirects value then some .invalidDirection else none := by
  unfold ofSortValue misdirects sortTarget
  simp only
  generalize Text.splitOn ',' value = parts
  cases g.authorizes (g.normalize (parts.headD "")) with
  | false => rfl
  | true =>
    rcases parts with _ | ⟨target, _ | ⟨direction, _ | _⟩⟩
    · rfl
    · rfl
    · obtain hd | ⟨d, hd⟩ := Option.eq_none_or_eq_some (Direction.ofText? direction) <;>
        simp [refusalIn?, hd]
    · rfl

theorem refusalIn?_ofComparison (key value : String) (r : Relation) :
    refusalIn? (ofComparison g key r value) =
      if key = sortKey ∧ value ≠ nullWord ∧ '*' ∉ value.toList then
        refusalIn? (ofSortValue g value)
      else none := by
  unfold ofComparison
  by_cases hn : value = nullWord
  · simp [hn, refusalIn?]
  simp only [hn, if_false, ne_eq, not_false_eq_true, true_and]
  by_cases hw : '*' ∈ value.toList
  · cases likePattern? value <;> simp [hw, refusalIn?]
  · -- A wildcard at an end is one of the value.
    rw [likePattern?_eq_none (not_hasAtEnd_of_notMem hw)]
    by_cases hk : key = sortKey <;> simp [hk, hw, refusalIn?]

theorem refusalIn?_ofMembership (key value : String) (negated : Bool) :
    refusalIn? (ofMembership g key negated value) =
      if g.admitsLength (Text.splitOn ',' value).length then none else some .listTooLong := by
  unfold ofMembership
  simp only
  split_ifs <;> rfl

end Criterion

/-! ## Refusals of fragments -/

namespace Sieve

variable (s : Sieve)

/-- Why a fragment gives no criterion, if it gives none. -/
def refusal? (fragment : String) : Option Refusal :=
  refusalIn? (s.readFragment fragment)

theorem reason_compare {t : Token} (hl : t.operator ∉ listSymbols)
    (ha : s.policy.authorizes (s.normalize t.key) = true) (r : Relation) :
    (refusalIn? (Criterion.ofComparison s.gate (s.normalize t.key) r t.value)).map
        Refusal.reason =
      if !s.permits t then some "unauthorized"
      else if s.asksForSort t && misdirects t.value then some "invalid sort direction"
      else none := by
  have hsort : (s.normalize t.key = sortKey ∧ t.value ≠ nullWord ∧ '*' ∉ t.value.toList) ↔
      s.asksForSort t = true := by
    simp [asksForSort, hl, and_assoc]
  have htarget : s.permits t =
      (!s.asksForSort t || s.gate.authorizes (Criterion.sortTarget s.gate t.value)) := by
    rw [permits, ha, Bool.true_and]
    rfl
  rw [Criterion.refusalIn?_ofComparison, if_congr hsort rfl rfl, Criterion.refusalIn?_ofSortValue,
    htarget]
  cases s.asksForSort t <;> cases s.gate.authorizes (Criterion.sortTarget s.gate t.value) <;>
    cases misdirects t.value <;> rfl

theorem reason_member (t : Token) (negated : Bool) :
    (refusalIn? (Criterion.ofMembership s.gate (s.normalize t.key) negated t.value)).map
        Refusal.reason =
      if s.limits.listValues < (Text.splitOn ',' t.value).length then some "list too long"
      else none := by
  have hl : s.gate.admitsLength (Text.splitOn ',' t.value).length =
      decide ((Text.splitOn ',' t.value).length ≤ s.limits.listValues) := rfl
  rw [Criterion.refusalIn?_ofMembership, hl]
  by_cases h : (Text.splitOn ',' t.value).length ≤ s.limits.listValues
  · simp [h]
  · simp [h, Nat.lt_of_not_le h, Refusal.reason]

/-- **A fragment is refused by the rules**, and for the reason that they give. -/
theorem reason_refusal? (fragment : String) :
    (s.refusal? fragment).map Refusal.reason = s.dropReason? fragment := by
  unfold refusal? readFragment dropReason?
  cases tokenize fragment with
  | none => rfl
  | some t =>
    simp only [Criterion.ofToken]
    cases ho : FragmentOperator.ofSymbol? t.operator with
    | none =>
      rw [if_pos (FragmentOperator.ofSymbol?_eq_none_iff.mp ho)]
      rfl
    | some o =>
      have hm : ¬ t.operator ∉ operatorSymbols := by
        rw [← FragmentOperator.ofSymbol?_eq_none_iff, ho]
        exact Option.some_ne_none o
      have hs := FragmentOperator.symbol_of_ofSymbol? ho
      have hg : ∀ x, s.gate.authorizes x = s.policy.authorizes x := fun _ => rfl
      rw [if_neg hm]
      by_cases ha : s.policy.authorizes (s.normalize t.key) = true
      · simp only [hg, ha, Bool.not_true, Bool.false_eq_true, if_false]
        cases o with
        | compare r =>
          have hl : t.operator ∉ listSymbols := hs ▸ FragmentOperator.symbol_compare_notMem r
          rw [if_neg hl]
          exact s.reason_compare hl ha r
        | member negated =>
          have hl : t.operator ∈ listSymbols := hs ▸ FragmentOperator.symbol_member_mem negated
          have hp : s.permits t = true := by simp [permits, asksForSort, ha, hl]
          simp only [hp, Bool.not_true, Bool.false_eq_true, if_false, if_pos hl]
          exact s.reason_member t negated
      · simp [hg, ha, permits, refusalIn?, Refusal.reason]

/-! ## Records -/

theorem records_fragmentReading (fragment : String) :
    (s.fragmentReading fragment).records =
      ((s.refusal? fragment).map (dropRecord fragment)).toList := by
  unfold fragmentReading refusal?
  cases s.readFragment fragment <;> rfl

theorem records_readFragments (fs : List String) :
    (s.readFragments fs).records =
      (fs.take s.limits.fragments).filterMap (fun f => (s.refusal? f).map (dropRecord f)) ++
        if s.limits.fragments < fs.length then [overflowRecord s.limits.fragments] else [] := by
  rw [List.filterMap_eq_flatMap_toList]
  simp only [readFragments, List.flatMap_map, records_fragmentReading]

theorem criterion?_eq_none_iff {fragment : String} :
    s.criterion? fragment = none ↔ (s.refusal? fragment).isSome = true := by
  unfold criterion? refusal?
  cases s.readFragment fragment <;> simp [refusalIn?, Except.toOption]

theorem length_criteria_add (fs : List String) :
    (fs.filterMap s.criterion?).length + (fs.filterMap s.refusal?).length = fs.length := by
  induction fs with
  | nil => rfl
  | cons f fs ih =>
    cases hc : s.criterion? f with
    | none =>
      obtain ⟨r, hr⟩ := Option.isSome_iff_exists.mp (s.criterion?_eq_none_iff.mp hc)
      rw [List.filterMap_cons_none hc, List.filterMap_cons_some hr, List.length_cons,
        List.length_cons]
      omega
    | some c =>
      have hr : s.refusal? f = none := by
        rw [← Option.not_isSome_iff_eq_none, ← s.criterion?_eq_none_iff, hc]
        exact Option.some_ne_none c
      rw [List.filterMap_cons_some hc, List.filterMap_cons_none hr, List.length_cons,
        List.length_cons]
      omega

theorem countP_debug_records (fs : List String) :
    (s.readFragments fs).records.countP (·.level = "debug") =
      ((fs.take s.limits.fragments).filterMap s.refusal?).length := by
  have hw : ∀ m, (overflowRecord m).level ≠ "debug" := by
    intro m
    show "warn" ≠ "debug"
    decide
  have hd : ∀ gs : List String, (gs.filterMap fun f => (s.refusal? f).map (dropRecord f)).countP
      (·.level = "debug") = (gs.filterMap s.refusal?).length := by
    intro gs
    induction gs with
    | nil => rfl
    | cons f gs ih => cases hr : s.refusal? f <;> simp [hr, ih, dropRecord]
  rw [records_readFragments, List.countP_append, hd]
  split_ifs <;> simp [hw]

/-- **Every fragment is accounted for.** Each fragment within the limit gives a criterion or, in
order, a record with its text and the reason. One more record says that there are fragments beyond
the limit. Where logging is off, nothing is written. -/
theorem records_read_account (s : Sieve) {query : String} (hq : query ≠ "") :
    LogRecord.emitted true (s.read query).records =
        (((fragments query).take s.limits.fragments).filterMap fun f =>
          (s.dropReason? f).map fun reason =>
            { level := "debug"
              message := "fragment dropped"
              fields := [("fragment", f), ("reason", reason)] }) ++
          (if s.limits.fragments < (fragments query).length then
            [{ level := "warn"
               message := "fragment limit reached, ignoring the rest"
               fields := [("max", s.limits.fragments.repr)] }]
          else []) ∧
      (∀ f, s.criterion? f = none ↔ (s.dropReason? f).isSome = true) ∧
      (s.read query).criteria.length + (s.read query).records.countP (·.level = "debug") =
        min (fragments query).length s.limits.fragments ∧
      LogRecord.emitted false (s.read query).records = [] := by
  have hread : s.read query = s.readFragments (fragments query) := if_neg hq
  refine ⟨?_, ?_, ?_, rfl⟩
  · show (s.read query).records = _
    rw [hread, records_readFragments]
    congr 1
    refine congrArg (List.filterMap · _) (funext fun f => ?_)
    rw [← s.reason_refusal?, Option.map_map]
    rfl
  · intro f
    rw [← s.reason_refusal?, Option.isSome_map]
    exact s.criterion?_eq_none_iff
  · rw [hread, criteria_readFragments, countP_debug_records, length_criteria_add, List.length_take,
      Nat.min_comm]

/-- A fragment for each reason, and one beyond the limit. -/
def strictQuery : String :=
  "name=Bob&name&password==x&name=<x&salary=3&order_by=salary&name~a,b&order_by=name,up&name=Eve"

/-- A sieve that looks at eight fragments and lets lists of one value through. -/
def strictSieve : Sieve where
  policy := { allowance := .only ["name", "order_by"] }
  normalize := FieldName.verbatim
  limits := { fragments := 8, listValues := 1 }

theorem records_read_account_strict :
    strictQuery ≠ "" ∧
      (LogRecord.emitted true (strictSieve.read strictQuery).records).map
          (fun r => r.fields.map (·.2)) =
        [["name", "malformed"], ["password==x", "unsupported operator"],
          ["name=<x", "unsupported operator"], ["salary=3", "unauthorized"],
          ["order_by=salary", "unauthorized"], ["name~a,b", "list too long"],
          ["order_by=name,up", "invalid sort direction"], ["8"]] ∧
      (strictSieve.read strictQuery).criteria.length +
        (strictSieve.read strictQuery).records.countP (·.level = "debug") = 8 := by
  have hq : strictQuery ≠ "" := by decide
  obtain ⟨hr, -, hc, -⟩ := records_read_account strictSieve hq
  refine ⟨hq, ?_, hc.trans ?_⟩
  · rw [hr]
    decide +kernel
  · decide +kernel

end Sieve

end QuerySieve
