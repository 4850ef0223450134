import QuerySieve.Proofs.Authorization

/-!
# Queries that are joined, and limits that are lowered

Two queries with a separator between them are read one after the other, the second with what the
first has left of the limit on fragments. A lower limit on fragments cuts the end off. A lower limit
on the values of a list leaves out the longer lists, and nothing else.

* `fragments_append`, `length_fragments`: the fragments of joined queries, and their number.
* `Criterion.ofToken_eq_ok_iff_fits`: what a limit on the values of a list keeps of one token.
* `Sieve.criteria_read_join`, `Sieve.criteria_read_withListValues`: joined queries, shorter lists.
* **`Sieve.criteria_read_fragmentwise`**: queries fragment by fragment, under any limits.
-/

namespace QuerySieve

/-! ## The fragments of joined queries -/

theorem fragments_append (q₁ q₂ : String) :
    fragments (q₁ ++ "&" ++ q₂) = fragments q₁ ++ fragments q₂ := by
  have hs : "&".toList = ['&'] := rfl
  unfold fragments Text.splitOn
  rw [String.toList_append, String.toList_append, hs, List.append_assoc, List.singleton_append,
    List.splitOn_append_cons_self, List.map_append]

theorem length_splitOn (separator : Char) (cs : List Char) :
    (cs.splitOn separator).length = cs.count separator + 1 := by
  induction cs with
  | nil => simp
  | cons c cs ih =>
    rw [List.splitOn_cons_eq_if_modifyHead, List.count_cons]
    split_ifs
    · rw [List.length_cons, ih]
    · rw [List.length_modifyHead, ih, Nat.add_zero]

theorem length_fragments (query : String) :
    (fragments query).length = query.toList.count '&' + 1 := by
  rw [fragments, Text.splitOn, List.length_map, length_splitOn]

/-! ## Shorter lists -/

/-- The gate that lets lists of any length through. -/
def Gate.unbounded (g : Gate) : Gate :=
  { g with maxListValues := none }

/-- The values that a criterion lists, if it is about a list. -/
def Criterion.values? : Criterion → Option (List String)
  | inclusionTest _ _ values => some values
  | _ => none

/-- The number of values that a criterion lists. -/
def Criterion.listLength : Criterion → Nat
  | inclusionTest _ _ values => values.length
  | _ => 0

/-- Whether the list of a criterion is within the bound. -/
def Gate.fits (g : Gate) (c : Criterion) : Bool :=
  g.admitsLength c.listLength

namespace Criterion

variable {g : Gate} {c : Criterion}

theorem fits_of_listLength (h : c.listLength = 0) : g.fits c = true := by
  rw [Gate.fits, h, Gate.admitsLength]
  cases g.maxListValues <;> simp

theorem values?_of_ofComparison {name value : String} {r : Relation}
    (h : ofComparison g name r value = .ok c) : c.values? = none := by
  unfold ofComparison at h
  by_cases hn : value = nullWord
  · rw [if_pos hn] at h
    cases h
    rfl
  rw [if_neg hn] at h
  cases hp : likePattern? value with
  | some pattern =>
    rw [hp] at h
    cases h
    rfl
  | none =>
    simp only [hp] at h
    split_ifs at h
    · obtain ⟨d, rfl⟩ := eq_sortDirective_of_ofSortValue h
      rfl
    · cases h
      rfl

theorem listLength_of_ofComparison {name value : String} {r : Relation}
    (h : ofComparison g name r value = .ok c) : c.listLength = 0 := by
  have hv := values?_of_ofComparison h
  cases c with
  | inclusionTest key negated values => cases hv
  | _ => rfl

theorem ofMembership_eq_ok_iff (name value : String) (negated : Bool) :
    ofMembership g name negated value = .ok c ↔
      ofMembership g.unbounded name negated value = .ok c ∧ g.fits c = true := by
  have hu : ofMembership g.unbounded name negated value =
      .ok (.inclusionTest name negated (Text.splitOn ',' value)) := rfl
  rw [hu]
  unfold ofMembership
  simp only
  constructor
  · intro h
    split_ifs at h with ha
    cases h
    exact ⟨rfl, ha⟩
  · rintro ⟨h, ha⟩
    cases h
    exact if_pos ha

/-- **One token**: a bound on lists keeps what is within it. -/
theorem ofToken_eq_ok_iff_fits (g : Gate) (t : Token) (c : Criterion) :
    ofToken g t = .ok c ↔ ofToken g.unbounded t = .ok c ∧ g.fits c = true := by
  have ha : g.unbounded.authorizes = g.authorizes := rfl
  unfold ofToken
  rw [ha]
  cases FragmentOperator.ofSymbol? t.operator with
  | none => simp
  | some o =>
    cases g.authorizes t.key with
    | false => simp
    | true =>
      cases o with
      | compare r =>
        show ofComparison g t.key r t.value = .ok c ↔ ofComparison g t.key r t.value = .ok c ∧ _
        exact ⟨fun h => ⟨h, fits_of_listLength (listLength_of_ofComparison h)⟩, And.left⟩
      | member negated => exact ofMembership_eq_ok_iff t.key t.value negated

end Criterion

/-! ## Queries -/

namespace Sieve

variable (s : Sieve)

/-- The same sieve with another limit on fragments. -/
def withFragments (m : Nat) : Sieve :=
  { s with limits := { s.limits with fragments := m } }

/-- The same sieve with another limit on the values of a list. -/
def withListValues (n : Nat) : Sieve :=
  { s with limits := { s.limits with listValues := n } }

theorem criterion?_withListValues {n n' : Nat} (h : n ≤ n') (fragment : String) :
    (s.withListValues n).criterion? fragment =
      ((s.withListValues n').criterion? fragment).filter (s.withListValues n).gate.fits := by
  have hu : (s.withListValues n).gate.unbounded = (s.withListValues n').gate.unbounded := rfl
  have hn : (s.withListValues n).normalize = (s.withListValues n').normalize := rfl
  have wider : ∀ c, (s.withListValues n).gate.fits c = true →
      (s.withListValues n').gate.fits c = true := by
    intro c hc
    have hc : c.listLength ≤ n := of_decide_eq_true hc
    exact decide_eq_true (Nat.le_trans hc h)
  unfold criterion? readFragment
  rw [hn]
  cases tokenize fragment with
  | none => rfl
  | some t =>
    refine toOption_eq_filter fun c => ?_
    rw [Criterion.ofToken_eq_ok_iff_fits (s.withListValues n).gate, hu,
      Criterion.ofToken_eq_ok_iff_fits (s.withListValues n').gate]
    exact ⟨fun h => ⟨⟨h.1, wider c h.2⟩, h.2⟩, fun h => ⟨h.1.1, h.2⟩⟩

theorem criteria_read_withListValues {n n' : Nat} (h : n ≤ n') (query : String) :
    ((s.withListValues n).read query).criteria =
      ((s.withListValues n').read query).criteria.filter (s.withListValues n).gate.fits := by
  rw [criteria_read, criteria_read, List.filter_filterMap]
  exact congrArg (List.filterMap · _) (funext (s.criterion?_withListValues h))

/-- Joined queries are read one after the other. -/
theorem criteria_read_join (q₁ q₂ : String) :
    (s.read (q₁ ++ "&" ++ q₂)).criteria =
      (s.read q₁).criteria ++
        ((s.withFragments (s.limits.fragments - (fragments q₁).length)).read q₂).criteria := by
  rw [criteria_read, criteria_read, criteria_read, fragments_append, List.take_append,
    List.filterMap_append]
  rfl

/-- **Queries are read fragment by fragment.** Of joined queries, the second is read with what the
first has left of the limit. A lower limit on fragments keeps a first part of the criteria, and one
on the values of a list some of them in order. -/
theorem criteria_read_fragmentwise (s : Sieve) :
    (∀ q₁ q₂ : String, (fragments q₁).length = q₁.toList.count '&' + 1 ∧
      (s.read (q₁ ++ "&" ++ q₂)).criteria =
        (s.read q₁).criteria ++
          ((s.withFragments (s.limits.fragments - (fragments q₁).length)).read q₂).criteria) ∧
      (∀ query, (s.read query).criteria =
        ((fragments query).take s.limits.fragments).filterMap s.criterion?) ∧
      (∀ query m m', m ≤ m' → ((s.withFragments m).read query).criteria <+:
        ((s.withFragments m').read query).criteria) ∧
      ∀ query n n', n ≤ n' → ((s.withListValues n).read query).criteria.Sublist
        ((s.withListValues n').read query).criteria := by
  refine ⟨fun q₁ q₂ => ⟨length_fragments q₁, s.criteria_read_join q₁ q₂⟩, s.criteria_read, ?_, ?_⟩
  · intro query m m' h
    have hc : (s.withFragments m).criterion? = (s.withFragments m').criterion? := rfl
    rw [criteria_read, criteria_read, hc]
    exact (List.take_prefix_take_left h).filterMap _
  · intro query n n' h
    rw [s.criteria_read_withListValues h]
    exact List.filter_sublist

/-- A sieve that lets all fields through. -/
def openSieve : Sieve where
  policy := .unrestricted
  normalize := FieldName.verbatim

/-- The second fragment is empty and counts, the third one has a list of two. -/
theorem criteria_read_fragmentwise_openSieve :
    3 ≤ 4 ∧ 1 ≤ 2 ∧
      ((openSieve.withFragments 3).read "a=1&&b~x,y&c=2").criteria =
        [.comparison "a" .eq "1", .inclusionTest "b" false ["x", "y"]] ∧
      ((openSieve.withFragments 3).read "a=1&&b~x,y&c=2").criteria <+:
        ((openSieve.withFragments 4).read "a=1&&b~x,y&c=2").criteria ∧
      ((openSieve.withListValues 1).read "a=1&&b~x,y&c=2").criteria =
        [.comparison "a" .eq "1", .comparison "c" .eq "2"] ∧
      ((openSieve.withListValues 1).read "a=1&&b~x,y&c=2").criteria.Sublist
        ((openSieve.withListValues 2).read "a=1&&b~x,y&c=2").criteria := by
  obtain ⟨-, -, hm, hn⟩ := criteria_read_fragmentwise openSieve
  exact ⟨by decide, by decide, by decide +kernel, hm _ 3 4 (by decide), by decide +kernel,
    hn _ 1 2 (by decide)⟩

end Sieve

end QuerySieve
