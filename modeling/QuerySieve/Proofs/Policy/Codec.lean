import QuerySieve.Proofs.Policy.Run

/-!
# Policies in data

A policy is written with `*` for all fields or the list of those that are allowed, and with the list
of those that are hidden. A list from elsewhere may repeat a name or hold `*` among others; it is
read as if its names had been allowed one by one.

* `Policy.ofJson?_toJson`: a well-formed policy is read back.
* `Policy.ofJson?_members`: a policy from its two parts.
* **`Policy.data_and_edits_agree`**: every policy that edits lead to is read back, and data means
  what the edits mean.
-/

namespace QuerySieve

open Json (Value)

namespace Allowance

theorem ofNames_eq_only {names : List String} (h : (Allowance.only names).WellFormed) :
    ofNames names = .only names := by
  rw [ofNames, if_neg h.2, eraseDups_eq_self h.1]

/-- A list is read as if its names had been allowed one by one. -/
theorem ofJson?_strings (names : List String) :
    ofJson? (.strings names) = some (ofList names) := by
  have hs : ofJson? (.strings names) = (Value.strings names).asStrings?.map ofNames := rfl
  rw [hs, Value.asStrings?_strings, ofList_eq_ofNames]
  rfl

theorem ofJson?_str (name : String) : ofJson? (.str name) = some (ofList [name]) := by
  rw [ofList_eq_ofNames, ofJson?, ofNames]
  by_cases h : name = everyField
  · simp [h]
  · simp [h, Ne.symm h, List.eraseDups_cons]

theorem ofJson?_toJson {a : Allowance} (h : a.WellFormed) : ofJson? a.toJson = some a := by
  cases a with
  | all => rfl
  | only names => rw [toJson, ofJson?_strings, ofList_eq_ofNames, ofNames_eq_only h]

end Allowance

namespace Policy

/-- **A policy from its two parts.** -/
theorem ofJson?_members {v : Value} {a : Allowance} (ha : Allowance.ofJson? v = some a)
    (hidden : List String) :
    ofJson? (.obj [("allow", v), ("hidden", .strings hidden)]) = some ⟨a, hidden⟩ := by
  have hp : Json.closedPartsOf? ["allow", "hidden"]
      (.obj [("allow", v), ("hidden", .strings hidden)]) = some [some v, some (.strings hidden)] :=
    rfl
  simp [ofJson?, hp, Json.partOr, ha, Value.asStrings?_strings]

/-- A well-formed policy is read back. -/
theorem ofJson?_toJson {p : Policy} (h : p.allowance.WellFormed) : ofJson? p.toJson = some p :=
  ofJson?_members (Allowance.ofJson?_toJson h) p.hidden

theorem ofValue?_fields (ms : List (String × Value)) :
    PolicyFile.ofValue? (.obj [("fields", .obj ms)]) =
      (ofJson? (.obj ms)).map fun p => { policy := p } := by
  have hp : Json.closedPartsOf? ["fields", "limits"] (.obj [("fields", .obj ms)]) =
      some [some (.obj ms), none] := rfl
  have hc : PolicyFile.cutItems 2 (.obj ms) = .obj ms := rfl
  simp [PolicyFile.ofValue?, hp, Json.partOr, hc, Option.map_eq_bind]

theorem authorizes_hideOnly (p : Policy) (names : List String) (x : String) :
    (p.hideOnly names).authorizes x = authorizes ⟨p.allowance, names⟩ x := by
  simp [authorizes, hidden_hideOnly, allowance_hideOnly]

theorem exists_ofJson?_eq {v : Value} {names : List String}
    (hv : Allowance.ofJson? v = some (.ofList names)) (hidden : List String) :
    ∃ q, ofJson? (.obj [("allow", v), ("hidden", .strings hidden)]) = some q ∧
      q.allowance = (empty.allowOnly names).allowance ∧
      ∀ x, q.authorizes x = ((empty.allowOnly names).hideOnly hidden).authorizes x := by
  refine ⟨_, ofJson?_members hv hidden, rfl, fun x => ?_⟩
  rw [authorizes_hideOnly]
  rfl

/-- **Data and edits agree.** Every policy that edits lead to is read back as it was written, and
names in data, in a list or alone, are allowed as by edits. -/
theorem data_and_edits_agree {p : Policy} (h : p.Start) (es : List Edit)
    (names hidden : List String) (name : String) :
    ofJson? (p.run es).toJson = some (p.run es) ∧
      (∀ q, ofJson? (p.run es).toJson = some q → q.allowsAll = (p.run es).allowsAll) ∧
      (∃ q, ofJson? (.obj [("allow", .strings names), ("hidden", .strings hidden)]) = some q ∧
        q.allowance = (empty.allowOnly names).allowance ∧
        ∀ x, q.authorizes x = ((empty.allowOnly names).hideOnly hidden).authorizes x) ∧
      (∃ q, ofJson? (.obj [("allow", .str name), ("hidden", .strings hidden)]) = some q ∧
        q.allowance = (empty.allowOnly [name]).allowance ∧
        ∀ x, q.authorizes x = ((empty.allowOnly [name]).hideOnly hidden).authorizes x) ∧
      ∀ ms, PolicyFile.ofValue? (.obj [("fields", .obj ms)]) =
        (ofJson? (.obj ms)).map fun q => { policy := q } := by
  have hw : (p.run es).allowance.WellFormed := (lists_run h.wellFormed.lists es).wellFormed
  have hr := ofJson?_toJson hw
  refine ⟨hr, fun q hq => ?_, exists_ofJson?_eq (Allowance.ofJson?_strings names) hidden,
    exists_ofJson?_eq (Allowance.ofJson?_str name) hidden, ofValue?_fields⟩
  rw [hr] at hq
  cases hq
  rfl

theorem data_and_edits_agree_staff :
    staffPolicy.Start ∧
      ofJson? (staffPolicy.run staffEdits).toJson = some (staffPolicy.run staffEdits) ∧
      (staffPolicy.run staffEdits).allowsAll = false ∧
      (∃ q, ofJson? (.obj [("allow", .strings ["name", "*", "name"]),
          ("hidden", .strings ["age", "age"])]) = some q ∧ q.allowance = .all ∧
        q.authorizes "age" = ((empty.allowOnly ["name", "*", "name"]).hideOnly
          ["age", "age"]).authorizes "age") := by
  obtain ⟨hr, -, ⟨q, hq, ha, hx⟩, -, -⟩ :=
    data_and_edits_agree staffPolicy_start staffEdits ["name", "*", "name"] ["age", "age"] "*"
  exact ⟨staffPolicy_start, hr, by decide, q, hq, ha.trans (by decide), hx "age"⟩

end Policy

end QuerySieve
