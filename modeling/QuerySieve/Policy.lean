/-!
# Field policies

A policy says which fields a client may filter and sort on.

* `Allowance`: every field, or the listed ones.
* `Policy`: an allowance, less the hidden fields.
* **`Policy.authorizes`**: whether a field may be used.
* `Policy.Edit`, `Policy.edit`: the ways to change a policy.
-/

namespace QuerySieve

/-- The entry of an allow-list that stands for every field. -/
def everyField : String := "*"

/-- Every field, or the listed ones. -/
inductive Allowance where
  | all
  | only (names : List String)
  deriving DecidableEq, Repr

namespace Allowance

/-- Also allow a name, at the end of the list if it is new; the entry `*` allows all. -/
def add (a : Allowance) (name : String) : Allowance :=
  if name = everyField then .all else
  match a with
  | .all => .all
  | .only names => if name ∈ names then .only names else .only (names ++ [name])

/-- No longer allow a name. Where all are allowed this changes nothing. -/
def remove (a : Allowance) (name : String) : Allowance :=
  match a with
  | .all => .all
  | .only names => .only (names.filter (· ≠ name))

/-- Exactly the names, or all if one of them is `*`. -/
def ofList (names : List String) : Allowance :=
  names.foldl add (.only [])

/-- Whether a name is allowed. -/
def allows : Allowance → String → Bool
  | .all, _ => true
  | .only names, name => name ∈ names

/-- Adding a name allows it besides the others, and adding `*` allows all. -/
theorem allows_add_iff {a : Allowance} {name x : String} :
    (a.add name).allows x = true ↔ name = everyField ∨ a.allows x = true ∨ x = name := by
  unfold add
  by_cases h : name = everyField
  · simp [h, allows]
  · cases a with
    | all => simp [h, allows]
    | only names =>
      by_cases hm : name ∈ names
      · simp only [h, hm, if_true, if_false, allows, decide_eq_true_eq, false_or]
        exact ⟨Or.inl, fun hx => hx.elim id fun hx => hx ▸ hm⟩
      · simp [h, hm, allows]

end Allowance

/-- The allowed fields, less the hidden ones. -/
structure Policy where
  allowance : Allowance := .only []
  hidden : List String := []
  deriving DecidableEq, Repr

namespace Policy

/-- Nothing is allowed, nothing is hidden. -/
def empty : Policy := {}

/-- All is allowed, nothing is hidden. -/
def unrestricted : Policy := { allowance := .all }

/-- Also allow a field; the entry `*` allows all. -/
def allow (p : Policy) (name : String) : Policy :=
  { p with allowance := p.allowance.add name }

/-- Take a field off the allow-list. -/
def disallow (p : Policy) (name : String) : Policy :=
  { p with allowance := p.allowance.remove name }

/-- Allow every field that is not hidden. -/
def allowAll (p : Policy) : Policy :=
  { p with allowance := .all }

/-- Empty the allow-list. -/
def allowNone (p : Policy) : Policy :=
  { p with allowance := .only [] }

/-- Replace the allow-list. -/
def allowOnly (p : Policy) (names : List String) : Policy :=
  { p with allowance := .ofList names }

/-- Hide a field. -/
def hide (p : Policy) (name : String) : Policy :=
  if name ∈ p.hidden then p else { p with hidden := p.hidden ++ [name] }

/-- Hide a field no longer. -/
def unhide (p : Policy) (name : String) : Policy :=
  { p with hidden := p.hidden.filter (· ≠ name) }

/-- Replace the hidden fields. -/
def hideOnly (p : Policy) (names : List String) : Policy :=
  names.foldl hide { p with hidden := [] }

/-- Whether every field that is not hidden is allowed. -/
def allowsAll (p : Policy) : Bool :=
  p.allowance = .all

/-- Whether a field may be used: it has a name, is not hidden, and is allowed. -/
def authorizes (p : Policy) (name : String) : Bool :=
  name ≠ "" && name ∉ p.hidden && p.allowance.allows name

theorem authorizes_iff {p : Policy} {x : String} :
    p.authorizes x = true ↔ x ≠ "" ∧ x ∉ p.hidden ∧ p.allowance.allows x = true := by
  simp [authorizes, and_assoc]

/-- Hiding a name hides it besides the others. -/
theorem mem_hidden_hide {p : Policy} {name x : String} :
    x ∈ (p.hide name).hidden ↔ x ∈ p.hidden ∨ x = name := by
  unfold hide
  split
  next hm => exact ⟨Or.inl, fun hx => hx.elim id fun hx => hx ▸ hm⟩
  next => simp

/-- Hiding a name leaves the allowance as it is. -/
theorem allowance_hide (p : Policy) (name : String) : (p.hide name).allowance = p.allowance := by
  unfold hide
  split <;> rfl

/-- The ways to change a policy. -/
inductive Edit where
  | allow (name : String)
  | disallow (name : String)
  | allowAll
  | allowNone
  | allowOnly (names : List String)
  | hide (name : String)
  | unhide (name : String)
  | hideOnly (names : List String)
  | reset
  deriving DecidableEq, Repr

/-- Change a policy. -/
def edit (p : Policy) : Edit → Policy
  | .allow name => p.allow name
  | .disallow name => p.disallow name
  | .allowAll => p.allowAll
  | .allowNone => p.allowNone
  | .allowOnly names => p.allowOnly names
  | .hide name => p.hide name
  | .unhide name => p.unhide name
  | .hideOnly names => p.hideOnly names
  | .reset => empty

end Policy

end QuerySieve
