import Mathlib.Data.Finset.Image
import Mathlib.Data.List.Dedup
import QuerySieve.PolicyFile

/-!
# Policies as sets of fields

A policy keeps its names in lists. What it authorizes is a matter of the sets of these names, and
every edit is an operation on the sets; the lists add the order, in which a name stands where it was
first put.

* `FieldSets`, `FieldSets.edit`: the sets and what an edit makes of them.
* `Policy.Edit.entriesAfter`: the entries of the allow-list, with all repetitions.
* `Policy.Start`: the policies that edits begin with.
* `Policy.lists_edit`, `Policy.hidden_edit`, `Policy.sets_edit`: one edit.
* **`Policy.run_refines_sets`**: any number of them.
-/

namespace QuerySieve

/-! ## Lists without repetitions -/

section EraseDups

variable {α : Type} [DecidableEq α]

theorem eraseDups_concat (l : List α) (x : α) :
    (l ++ [x]).eraseDups = if x ∈ l then l.eraseDups else l.eraseDups ++ [x] := by
  rw [List.eraseDups_append]
  by_cases h : x ∈ l <;> simp [List.removeAll, List.eraseDups_cons, h]

theorem nodup_eraseDups (l : List α) : l.eraseDups.Nodup := by
  induction l using List.reverseRecOn with
  | nil => simp
  | append_singleton l x ih =>
    rw [eraseDups_concat]
    split_ifs with h
    · exact ih
    · simpa [List.nodup_append, ih] using fun a ha => ne_of_mem_of_not_mem ha h

theorem eraseDups_eq_self {l : List α} (h : l.Nodup) : l.eraseDups = l := by
  induction l using List.reverseRecOn with
  | nil => rfl
  | append_singleton l x ih =>
    obtain ⟨hl, -, hx⟩ := List.nodup_append.mp h
    have hx : x ∉ l := fun hm => hx x hm x (by simp) rfl
    rw [eraseDups_concat, if_neg hx, ih hl]

theorem eraseDups_filter (p : α → Bool) (l : List α) :
    (l.filter p).eraseDups = l.eraseDups.filter p := by
  induction l using List.reverseRecOn with
  | nil => rfl
  | append_singleton l x ih =>
    rw [List.filter_append, eraseDups_concat]
    by_cases hp : p x <;> by_cases hx : x ∈ l <;> simp [eraseDups_concat, hp, hx, ih]

theorem toFinset_eraseDups (l : List α) : l.eraseDups.toFinset = l.toFinset := by
  ext x
  simp

end EraseDups

/-- Put a name at the end of a list if it is new. -/
def putNew (names : List String) (name : String) : List String :=
  if name ∈ names then names else names ++ [name]

theorem putNew_eraseDups (names : List String) (name : String) :
    putNew names.eraseDups name = (names ++ [name]).eraseDups := by
  simp [putNew, eraseDups_concat]

theorem foldl_putNew (names : List String) : names.foldl putNew [] = names.eraseDups := by
  induction names using List.reverseRecOn with
  | nil => rfl
  | append_singleton names name ih =>
    rw [List.foldl_append, List.foldl_cons, List.foldl_nil, ih, putNew_eraseDups]

/-! ## Allowances and their entries -/

namespace Allowance

/-- The names of an allowance; none if all are allowed. -/
def entries : Allowance → Option (List String)
  | .all => none
  | .only names => some names

/-- The allowance of a list with repetitions: each name stands where it was first put. -/
def ofEntries : Option (List String) → Allowance
  | none => .all
  | some names => .only names.eraseDups

theorem add_only (names : List String) (name : String) :
    (Allowance.only names).add name =
      if name = everyField then .all else .only (putNew names name) := by
  by_cases hm : name ∈ names <;> simp [add, putNew, hm]

/-- **Names added one by one** are the names as read from a list. -/
theorem ofList_eq_ofNames (names : List String) : ofList names = ofNames names := by
  induction names using List.reverseRecOn with
  | nil => simp [ofList, ofNames]
  | append_singleton names name ih =>
    have hstep : ofList (names ++ [name]) = (ofNames names).add name := by
      rw [← ih, ofList, List.foldl_append]
      rfl
    rw [hstep]
    -- Once all fields are allowed, no name that comes later takes this back.
    by_cases hs : everyField ∈ names
    · simp [ofNames, hs, add]
    · by_cases hn : name = everyField
      · simp [ofNames, hn, add]
      · have hn' : everyField ≠ name := Ne.symm hn
        simp [ofNames, hs, hn, hn', add_only, putNew_eraseDups]

/-- A list of an allowance repeats no name, and has no entry for all fields. -/
def WellFormed : Allowance → Prop
  | .all => True
  | .only names => names.Nodup ∧ everyField ∉ names

theorem wellFormed_ofNames (names : List String) : (ofNames names).WellFormed := by
  unfold ofNames
  split_ifs with h
  · trivial
  · exact ⟨nodup_eraseDups names, by simpa using h⟩

theorem wellFormed_ofJson? {v : Json.Value} {a : Allowance} (h : ofJson? v = some a) :
    a.WellFormed := by
  unfold ofJson? at h
  split at h
  · next name =>
    cases h
    split_ifs with hn
    · trivial
    · exact ⟨List.nodup_singleton name, by simpa using Ne.symm hn⟩
  · obtain ⟨names, -, rfl⟩ := Option.map_eq_some_iff.mp h
    exact wellFormed_ofNames names

/-- An allowance is that of a list of entries, of which none stands for all fields. -/
structure Lists (a : Allowance) (l : Option (List String)) : Prop where
  eq : a = ofEntries l
  plain : ∀ names, l = some names → everyField ∉ names

theorem WellFormed.lists {a : Allowance} (h : a.WellFormed) : a.Lists a.entries := by
  cases a with
  | all => exact ⟨rfl, by simp [entries]⟩
  | only names =>
    refine ⟨?_, fun l hl => ?_⟩
    · rw [entries, ofEntries, eraseDups_eq_self h.1]
    · cases hl
      exact h.2

theorem Lists.wellFormed {a : Allowance} {l : Option (List String)} (h : a.Lists l) :
    a.WellFormed := by
  obtain ⟨rfl, hp⟩ := h
  cases l with
  | none => trivial
  | some names => exact ⟨nodup_eraseDups names, by simpa using hp names rfl⟩

end Allowance

/-! ## Edits of the two lists -/

namespace Policy

/-- The entries of the allow-list after an edit: a name goes to the end each time that it is put on
the list, and is taken off with all its repetitions. -/
def Edit.entriesAfter (l : Option (List String)) : Edit → Option (List String)
  | .allow name => if name = everyField then none else l.map (· ++ [name])
  | .disallow name => l.map (·.filter (· ≠ name))
  | .allowAll => none
  | .allowNone => some []
  | .allowOnly names => if everyField ∈ names then none else some names
  | .reset => some []
  | .hide _ => l
  | .unhide _ => l
  | .hideOnly _ => l

/-- The hidden names after an edit. -/
def Edit.hiddenAfter (hidden : List String) : Edit → List String
  | .hide name => putNew hidden name
  | .unhide name => hidden.filter (· ≠ name)
  | .hideOnly names => names.eraseDups
  | .reset => []
  | _ => hidden

theorem hidden_hide (p : Policy) (name : String) :
    (p.hide name).hidden = putNew p.hidden name := by
  unfold hide putNew
  split_ifs <;> rfl

theorem foldl_hide (names : List String) (p : Policy) :
    (names.foldl hide p).hidden = names.foldl putNew p.hidden ∧
      (names.foldl hide p).allowance = p.allowance := by
  induction names generalizing p with
  | nil => exact ⟨rfl, rfl⟩
  | cons name names ih =>
    obtain ⟨hh, ha⟩ := ih (p.hide name)
    rw [hidden_hide] at hh
    rw [allowance_hide] at ha
    exact ⟨hh, ha⟩

theorem hidden_hideOnly (p : Policy) (names : List String) :
    (p.hideOnly names).hidden = names.eraseDups := by
  rw [hideOnly, (foldl_hide names _).1, foldl_putNew]

theorem allowance_hideOnly (p : Policy) (names : List String) :
    (p.hideOnly names).allowance = p.allowance :=
  (foldl_hide names _).2

/-- **One edit, on the hidden names.** -/
theorem hidden_edit (p : Policy) (e : Edit) : (p.edit e).hidden = e.hiddenAfter p.hidden := by
  cases e with
  | hide name => exact hidden_hide p name
  | hideOnly names => exact hidden_hideOnly p names
  | _ => rfl

/-- **One edit, on the allow-list.** -/
theorem lists_edit {p : Policy} {l : Option (List String)} (h : p.allowance.Lists l) (e : Edit) :
    (p.edit e).allowance.Lists (e.entriesAfter l) := by
  obtain ⟨he, hp⟩ := h
  cases e with
  | allow name =>
    -- A name that is there already only repeats an entry.
    show (p.allowance.add name).Lists _
    by_cases hn : name = everyField
    · exact ⟨by simp [Allowance.add, Edit.entriesAfter, Allowance.ofEntries, hn],
        by simp [Edit.entriesAfter, hn]⟩
    · rw [Edit.entriesAfter, if_neg hn, he]
      cases l with
      | none => exact ⟨by simp [Allowance.ofEntries, Allowance.add], by simp⟩
      | some names =>
        refine ⟨?_, fun _ hl => ?_⟩
        · rw [Allowance.ofEntries, Allowance.add_only, if_neg hn, putNew_eraseDups]
          rfl
        · cases hl
          simpa using ⟨hp names rfl, Ne.symm hn⟩
  | disallow name =>
    show (p.allowance.remove name).Lists _
    rw [he]
    cases l with
    | none => exact ⟨rfl, by simp [Edit.entriesAfter]⟩
    | some names =>
      refine ⟨?_, fun _ hl => ?_⟩
      · simp [Allowance.ofEntries, Allowance.remove, Edit.entriesAfter, eraseDups_filter]
      · cases hl
        exact fun hm => hp names rfl (List.mem_of_mem_filter hm)
  | allowOnly names =>
    show (Allowance.ofList names).Lists _
    rw [Allowance.ofList_eq_ofNames, Edit.entriesAfter, Allowance.ofNames]
    split_ifs with hs
    · exact ⟨rfl, by simp⟩
    · refine ⟨rfl, fun _ hl => ?_⟩
      cases hl
      exact hs
  | hide name =>
    show (p.hide name).allowance.Lists l
    rw [allowance_hide]
    exact ⟨he, hp⟩
  | hideOnly names =>
    show (p.hideOnly names).allowance.Lists l
    rw [allowance_hideOnly]
    exact ⟨he, hp⟩
  | unhide name => exact ⟨he, hp⟩
  | allowAll => exact ⟨rfl, by simp [Edit.entriesAfter]⟩
  | allowNone => exact ⟨rfl, by simp [Edit.entriesAfter]⟩
  | reset => exact ⟨rfl, by simp [Edit.entriesAfter]⟩

theorem nodup_hidden_edit {p : Policy} (h : p.hidden.Nodup) (e : Edit) :
    (p.edit e).hidden.Nodup := by
  rw [hidden_edit]
  cases e with
  | hide name =>
    show (putNew p.hidden name).Nodup
    rw [← eraseDups_eq_self h, putNew_eraseDups]
    exact nodup_eraseDups _
  | unhide name => exact h.filter _
  | hideOnly names => exact nodup_eraseDups names
  | reset => exact List.nodup_nil
  | _ => exact h

end Policy

/-! ## Sets -/

/-- The allowed fields, none if all are, and the hidden ones. -/
structure FieldSets where
  allowed : Option (Finset String)
  hidden : Finset String
  deriving DecidableEq

namespace FieldSets

/-- Whether a field may be used: it has a name, is not hidden, and all are allowed or it is. -/
def Authorizes (m : FieldSets) (x : String) : Prop :=
  x ≠ "" ∧ x ∉ m.hidden ∧ (m.allowed = none ∨ ∃ names, m.allowed = some names ∧ x ∈ names)

/-- What an edit makes of the sets. -/
def edit (m : FieldSets) : Policy.Edit → FieldSets
  | .allow name => { m with allowed := if name = "*" then none else m.allowed.map (insert name) }
  | .disallow name => { m with allowed := m.allowed.map (·.erase name) }
  | .allowAll => { m with allowed := none }
  | .allowNone => { m with allowed := some ∅ }
  | .allowOnly names => { m with allowed := if "*" ∈ names then none else some names.toFinset }
  | .hide name => { m with hidden := insert name m.hidden }
  | .unhide name => { m with hidden := m.hidden.erase name }
  | .hideOnly names => { m with hidden := names.toFinset }
  | .reset => { allowed := some ∅, hidden := ∅ }

end FieldSets

theorem toFinset_putNew (names : List String) (name : String) :
    (putNew names name).toFinset = insert name names.toFinset := by
  ext x
  unfold putNew
  split_ifs with h <;> simp_all

theorem toFinset_filter_ne (names : List String) (name : String) :
    (names.filter (· ≠ name)).toFinset = names.toFinset.erase name := by
  ext x
  simp [and_comm]

namespace Allowance

/-- The set of an allowance; none if all are allowed. -/
def set (a : Allowance) : Option (Finset String) :=
  a.entries.map List.toFinset

theorem set_add (a : Allowance) (name : String) :
    (a.add name).set = if name = everyField then none else a.set.map (insert name) := by
  by_cases hn : name = everyField
  · simp [add, hn, set, entries]
  · cases a with
    | all => simp [add, hn, set, entries]
    | only names => simp [add_only, hn, set, entries, toFinset_putNew]

theorem set_remove (a : Allowance) (name : String) :
    (a.remove name).set = a.set.map (·.erase name) := by
  cases a with
  | all => rfl
  | only names => exact congrArg some (toFinset_filter_ne names name)

theorem set_ofList (names : List String) :
    (ofList names).set = if everyField ∈ names then none else some names.toFinset := by
  rw [ofList_eq_ofNames, ofNames]
  split_ifs with h
  · rfl
  · exact congrArg some (toFinset_eraseDups names)

theorem allows_iff_set {a : Allowance} {x : String} :
    a.allows x = true ↔ a.set = none ∨ ∃ names, a.set = some names ∧ x ∈ names := by
  cases a <;> simp [allows, set, entries]

end Allowance

namespace Policy

/-- The sets of a policy. -/
def sets (p : Policy) : FieldSets where
  allowed := p.allowance.set
  hidden := p.hidden.toFinset

theorem authorizes_iff_sets {p : Policy} {x : String} :
    p.authorizes x = true ↔ p.sets.Authorizes x := by
  rw [authorizes_iff, Allowance.allows_iff_set, FieldSets.Authorizes, sets, List.mem_toFinset]

/-- **One edit, on the sets.** -/
theorem sets_edit (p : Policy) (e : Edit) : (p.edit e).sets = p.sets.edit e := by
  rw [sets, hidden_edit]
  cases e with
  | allow name => exact congrArg (FieldSets.mk · _) (Allowance.set_add _ _)
  | disallow name => exact congrArg (FieldSets.mk · _) (Allowance.set_remove _ _)
  | allowOnly names => exact congrArg (FieldSets.mk · _) (Allowance.set_ofList names)
  | hide name =>
    show FieldSets.mk (p.hide name).allowance.set (putNew p.hidden name).toFinset = _
    rw [allowance_hide, toFinset_putNew]
    rfl
  | unhide name => exact congrArg (FieldSets.mk _) (toFinset_filter_ne _ _)
  | hideOnly names =>
    show FieldSets.mk (p.hideOnly names).allowance.set names.eraseDups.toFinset = _
    rw [allowance_hideOnly, toFinset_eraseDups]
    rfl
  | allowAll => rfl
  | allowNone => rfl
  | reset => rfl

/-- The policy after edits. -/
def run (p : Policy) (es : List Edit) : Policy :=
  es.foldl edit p

theorem sets_run (p : Policy) (es : List Edit) :
    (p.run es).sets = es.foldl FieldSets.edit p.sets :=
  (List.foldl_hom sets fun p e => (sets_edit p e).symm).symm

theorem lists_run {p : Policy} {l : Option (List String)} (h : p.allowance.Lists l)
    (es : List Edit) : (p.run es).allowance.Lists (es.foldl Edit.entriesAfter l) :=
  List.foldl_rel (r := fun (q : Policy) l => q.allowance.Lists l) h fun e _ _ _ hq =>
    lists_edit hq e

theorem nodup_hidden_run {p : Policy} (h : p.hidden.Nodup) (es : List Edit) :
    (p.run es).hidden.Nodup :=
  List.foldlRecOn (motive := fun q : Policy => q.hidden.Nodup) es edit h fun _ hq e _ =>
    nodup_hidden_edit hq e

/-! ## Where edits begin -/

/-- The policies that edits begin with: the two built-in ones, and those that data holds. -/
inductive Start : Policy → Prop
  | empty : Start .empty
  | unrestricted : Start .unrestricted
  | json {v : Json.Value} {p : Policy} (h : ofJson? v = some p) : Start p
  | file {text : String} {f : PolicyFile} (h : PolicyFile.read text = .ok f) : Start f.policy

theorem partOr_eq_some {α : Type} {fallback a : α} {read : Json.Value → Option α}
    {part : Option Json.Value} (h : Json.partOr fallback read part = some a) :
    a = fallback ∨ ∃ v, read v = some a := by
  cases part with
  | none => cases h; exact .inl rfl
  | some v => exact .inr ⟨v, h⟩

theorem wellFormed_ofJson? {v : Json.Value} {p : Policy} (h : ofJson? v = some p) :
    p.allowance.WellFormed := by
  simp only [ofJson?, Option.bind_eq_bind, Option.bind_eq_some_iff] at h
  obtain ⟨parts, -, h⟩ := h
  split at h
  · simp only [Option.bind_eq_some_iff] at h
    obtain ⟨a, ha, hidden, -, h⟩ := h
    cases h
    obtain rfl | ⟨w, hw⟩ := partOr_eq_some ha
    · exact Allowance.wellFormed_ofNames []
    · exact Allowance.wellFormed_ofJson? hw
  · cases h

theorem wellFormed_ofValue? {v : Json.Value} {f : PolicyFile} (h : PolicyFile.ofValue? v = some f) :
    f.policy.allowance.WellFormed := by
  simp only [PolicyFile.ofValue?, Option.bind_eq_bind, Option.bind_eq_some_iff] at h
  obtain ⟨parts, -, h⟩ := h
  split at h
  · simp only [Option.bind_eq_some_iff] at h
    obtain ⟨p, hp, limits, -, h⟩ := h
    cases h
    obtain rfl | ⟨w, hw⟩ := partOr_eq_some hp
    · exact Allowance.wellFormed_ofNames []
    · exact wellFormed_ofJson? hw
  · cases h

theorem wellFormed_of_read {text : String} {f : PolicyFile} (h : PolicyFile.read text = .ok f) :
    f.policy.allowance.WellFormed := by
  unfold PolicyFile.read at h
  split at h
  · next hf =>
    cases h
    obtain ⟨v, -, hv⟩ := Option.bind_eq_some_iff.mp hf
    exact wellFormed_ofValue? hv
  · cases h

theorem Start.wellFormed {p : Policy} (h : p.Start) : p.allowance.WellFormed := by
  cases h with
  | empty => exact Allowance.wellFormed_ofNames []
  | unrestricted => trivial
  | json h => exact wellFormed_ofJson? h
  | file h => exact wellFormed_of_read h

/-- **Edits are operations on sets.** From a policy that is built in or that data holds, and after
any edits, a field may be used if and only if the sets say so. The allow-list holds no name twice,
in the order in which names were put there. -/
theorem run_refines_sets {p : Policy} (h : p.Start) (es : List Edit) :
    (∀ x, (p.run es).authorizes x = true ↔ (es.foldl FieldSets.edit p.sets).Authorizes x) ∧
      (p.run es).sets = es.foldl FieldSets.edit p.sets ∧
      (∀ names, (p.run es).allowance = .only names → names.Nodup ∧ "*" ∉ names) ∧
      (p.run es).allowance =
        Allowance.ofEntries (es.foldl Edit.entriesAfter p.allowance.entries) ∧
      (p = .empty ∨ p = .unrestricted → (p.run es).hidden.Nodup) := by
  have hl := lists_run h.wellFormed.lists es
  refine ⟨fun x => ?_, sets_run p es, fun names hn => ?_, hl.eq, ?_⟩
  · rw [← sets_run, authorizes_iff_sets]
  · have hw := hl.wellFormed
    rwa [hn] at hw
  · rintro (rfl | rfl) <;> exact nodup_hidden_run List.nodup_nil es

/-- A policy that data holds, with a name that is hidden twice. -/
def staffPolicy : Policy where
  allowance := .only ["role", "name"]
  hidden := ["age", "age"]

theorem staffPolicy_start : staffPolicy.Start :=
  .json (v := .obj [("allow", .strings ["role", "name", "role"]),
    ("hidden", .strings ["age", "age"])]) (by decide)

/-- Edits that move a name to the end of the list and bring a hidden one out. -/
def staffEdits : List Edit :=
  [.allow "mail", .disallow "role", .allow "age", .allow "role", .allow "name", .unhide "age"]

theorem run_staffEdits :
    staffPolicy.Start ∧
      (staffPolicy.run staffEdits).allowance = .only ["name", "mail", "age", "role"] ∧
      (staffPolicy.run staffEdits).authorizes "age" = true := by
  obtain ⟨ha, -, -, hl, -⟩ := run_refines_sets staffPolicy_start staffEdits
  have hage : (staffEdits.foldl FieldSets.edit staffPolicy.sets).Authorizes "age" :=
    ⟨by decide, by decide, .inr ⟨_, rfl, by decide⟩⟩
  exact ⟨staffPolicy_start, hl.trans (by decide), (ha "age").mpr hage⟩

end Policy

end QuerySieve
