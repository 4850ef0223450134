import QuerySieve.CommandLine.Program
import QuerySieve.Proofs.Authorization
import QuerySieve.Proofs.Policy.Run

/-!
# What the command line allows and hides

The command line adds to the policy of a file: names that are allowed, or all of them, and names
that are hidden. They are taken in one after the other, and come to a union less what is hidden: the
order of the names and their repetitions do not matter, and what one side hides the other does not
bring back.

* `Policy.allows_foldl_allow`, `Policy.mem_hidden_foldl_hide`: names one after the other.
* `authorizes_mergedPolicy_iff`: the fields that may be used.
* `Sieve.read_congr`, `Sieve.readEncoded_congr`: sieves that judge alike.
* **`flags_extend_policy`**: the policy of a run, and what is read by it.
-/

namespace QuerySieve

/-! ## Names one after the other -/

theorem Allowance.allows_iff {a : Allowance} {x : String} :
    a.allows x = true ↔ a = .all ∨ ∃ names, a = .only names ∧ x ∈ names := by
  cases a <;> simp [allows]

namespace Policy

theorem allows_foldl_allow (names : List String) (p : Policy) (x : String) :
    (names.foldl allow p).allowance.allows x = true ↔
      everyField ∈ names ∨ p.allowance.allows x = true ∨ x ∈ names := by
  induction names generalizing p with
  | nil => simp
  | cons name names ih =>
    have hstep : (p.allow name).allowance.allows x = true ↔
        name = everyField ∨ p.allowance.allows x = true ∨ x = name := Allowance.allows_add_iff
    rw [List.foldl_cons, ih, hstep, List.mem_cons, List.mem_cons, eq_comm (a := everyField)]
    tauto

theorem hidden_foldl_allow (names : List String) (p : Policy) :
    (names.foldl allow p).hidden = p.hidden := by
  induction names generalizing p with
  | nil => rfl
  | cons name names ih =>
    rw [List.foldl_cons, ih]
    rfl

theorem mem_hidden_foldl_hide (names : List String) (p : Policy) (x : String) :
    x ∈ (names.foldl hide p).hidden ↔ x ∈ p.hidden ∨ x ∈ names := by
  induction names generalizing p with
  | nil => simp
  | cons name names ih => rw [List.foldl_cons, ih, mem_hidden_hide, List.mem_cons, or_assoc]

end Policy

namespace CommandLine

/-! ## The policy of a run -/

section

variable (o : Options) (p : Policy) {x : String} (hx : x ≠ "")

include hx

theorem mem_hidden_mergedPolicy : x ∈ (mergedPolicy o p).hidden ↔ x ∈ p.hidden ∨ x ∈ o.hide := by
  have hall : (if o.all then p.allowAll else p).hidden = p.hidden := by
    split_ifs <;> rfl
  have hentry : x ∈ o.hide.filter (· ≠ "") ↔ x ∈ o.hide := by
    simp [hx]
  rw [mergedPolicy, Policy.mem_hidden_foldl_hide, Policy.hidden_foldl_allow, hall, hentry]

theorem allows_mergedPolicy :
    (mergedPolicy o p).allowance.allows x = true ↔
      everyField ∈ o.allow ∨ (o.all = true ∨ p.allowance.allows x = true) ∨ x ∈ o.allow := by
  have hall : (if o.all then p.allowAll else p).allowance.allows x = true ↔
      o.all = true ∨ p.allowance.allows x = true := by
    cases o.all <;> simp [Policy.allowAll, Allowance.allows]
  have hstar : everyField ∈ o.allow.filter (· ≠ "") ↔ everyField ∈ o.allow := by
    simp [everyField]
  have hentry : x ∈ o.allow.filter (· ≠ "") ↔ x ∈ o.allow := by
    simp [hx]
  rw [mergedPolicy, (Policy.foldl_hide _ _).2, Policy.allows_foldl_allow, hall, hstar, hentry]

end

/-- **The fields that may be used** are allowed on either side and hidden on neither. -/
theorem authorizes_mergedPolicy_iff (o : Options) (p : Policy) (x : String) :
    (mergedPolicy o p).authorizes x = true ↔
      x ≠ "" ∧ x ∉ p.hidden ∧ x ∉ o.hide ∧
        (o.all = true ∨ p.allowance = .all ∨ everyField ∈ o.allow ∨
          (∃ names, p.allowance = .only names ∧ x ∈ names) ∨ x ∈ o.allow) := by
  rw [Policy.authorizes_iff]
  refine and_congr_right fun hx => ?_
  rw [mem_hidden_mergedPolicy o p hx, not_or, and_assoc, allows_mergedPolicy o p hx,
    Allowance.allows_iff]
  simp only [or_assoc, or_left_comm]

end CommandLine

/-! ## Sieves that judge alike -/

namespace Sieve

variable {s t : Sieve}

theorem readFragment_congr (hg : s.gate = t.gate) : s.readFragment = t.readFragment := by
  have hn : s.normalize = t.normalize := congrArg Gate.normalize hg
  funext fragment
  rw [readFragment, readFragment, hg, hn]

theorem read_congr (hg : s.gate = t.gate) (hl : s.limits = t.limits) : s.read = t.read := by
  have hf : s.fragmentReading = t.fragmentReading := by
    funext fragment
    rw [fragmentReading, fragmentReading, readFragment_congr hg]
  funext query
  rw [read, read, readFragments, readFragments, hf, hl]

theorem readEncoded_congr (hg : s.gate = t.gate) (hl : s.limits = t.limits) :
    s.readEncoded = t.readEncoded := by
  funext raw
  cases raw with
  | none => rfl
  | some raw => rw [readEncoded, readEncoded, hl, read_congr hg hl]

theorem ne_of_not_authorizes {name query : String} {raw : Option String}
    (hn : s.policy.authorizes name = false) {c : Criterion}
    (hc : c ∈ (s.read query).criteria ++ (s.readEncoded raw).criteria) :
    c.key ≠ name ∧ (c.isSort = true → sortKey ≠ name) := by
  rw [criteria_read_eq_filter, criteria_readEncoded_eq_filter, ← List.filter_append] at hc
  have ha := (List.mem_filter.mp hc).2
  have other {x : String} (hx : s.policy.authorizes x = true) : x ≠ name := by
    rintro rfl
    rw [hn] at hx
    cases hx
  rw [Criterion.admittedBy, Bool.and_eq_true, Bool.or_eq_true, Bool.not_eq_true'] at ha
  refine ⟨other ha.1, fun hs => other (ha.2.resolve_left ?_)⟩
  rw [hs]
  decide

end Sieve

namespace CommandLine

/-! ## Runs -/

section

variable (o : Options) {allow hide : List String} (ha : ∀ x, x ∈ allow ↔ x ∈ o.allow)
  (hh : ∀ x, x ∈ hide ↔ x ∈ o.hide)

include ha hh

theorem authorizes_mergedPolicy_congr (p : Policy) :
    (mergedPolicy { o with allow, hide } p).authorizes = (mergedPolicy o p).authorizes := by
  funext x
  rw [Bool.eq_iff_iff, authorizes_mergedPolicy_iff, authorizes_mergedPolicy_iff]
  simp only [ha, hh]

/-- **Entries with the same names** lead to the same run. -/
theorem execute_congr (file : PolicyFile) (environment : Limits) :
    execute { o with allow, hide } file environment = execute o file environment := by
  have hg : (sieveOf { o with allow, hide } file environment).gate =
      (sieveOf o file environment).gate :=
    congrArg (Gate.mk _ · _) (authorizes_mergedPolicy_congr o ha hh file.policy)
  have hl : (sieveOf { o with allow, hide } file environment).limits =
      (sieveOf o file environment).limits := rfl
  have hr : readQuery { o with allow, hide } (sieveOf { o with allow, hide } file environment) =
      readQuery o (sieveOf o file environment) := by
    rw [readQuery, readQuery, Sieve.read_congr hg hl, Sieve.readEncoded_congr hg hl]
  rw [execute, execute, hr]
  rfl

end

/-- **The command line extends the policy of a file, and hiding wins.** A field may be used if and
only if it is allowed on either side and hidden on neither. Order and repetition of the entries
change nothing, and what is hidden comes out of no query. -/
theorem flags_extend_policy (o : Options) (file : PolicyFile) :
    (∀ x, (mergedPolicy o file.policy).authorizes x = true ↔
      x ≠ "" ∧ x ∉ file.policy.hidden ∧ x ∉ o.hide ∧
        (o.all = true ∨ file.policy.allowance = .all ∨ "*" ∈ o.allow ∨
          (∃ names, file.policy.allowance = .only names ∧ x ∈ names) ∨ x ∈ o.allow)) ∧
      (∀ allow hide : List String,
        (∀ x, x ∈ allow ↔ x ∈ o.allow) → (∀ x, x ∈ hide ↔ x ∈ o.hide) →
          (mergedPolicy { o with allow, hide } file.policy).authorizes =
            (mergedPolicy o file.policy).authorizes ∧
          ∀ environment, execute { o with allow, hide } file environment =
            execute o file environment) ∧
      ∀ s : Sieve, s.policy = mergedPolicy o file.policy →
        ∀ (query : String) (raw : Option String),
          ∀ c ∈ (s.read query).criteria ++ (s.readEncoded raw).criteria,
            ∀ name, name ∈ file.policy.hidden ∨ name ∈ o.hide →
              c.key ≠ name ∧ (c.isSort = true → "order_by" ≠ name) := by
  refine ⟨authorizes_mergedPolicy_iff o file.policy, fun allow hide ha hh =>
    ⟨authorizes_mergedPolicy_congr o ha hh file.policy, execute_congr o ha hh file⟩,
    fun s hs query raw c hc name hn => Sieve.ne_of_not_authorizes ?_ hc⟩
  rw [hs]
  refine Bool.eq_false_iff.mpr fun hx => ?_
  obtain ⟨-, hp, ho, -⟩ := (authorizes_mergedPolicy_iff o file.policy name).mp hx
  exact hn.elim hp ho

/-- A run that allows all by an entry among others, and hides a field, twice, and an empty name. -/
def flaggedOptions : Options where
  query := "salary=1&mail=2&name=3&order_by=name"
  allow := ["", "name", "*"]
  hide := ["salary", "", "salary"]

/-- A file that allows a field that the run hides, and hides another one and all sorts. -/
def guardedFile : PolicyFile where
  policy := { allowance := .only ["salary"], hidden := ["mail", "order_by"] }

theorem flags_extend_policy_flagged :
    (mergedPolicy flaggedOptions guardedFile.policy).authorizes "name" = true ∧
      (mergedPolicy flaggedOptions guardedFile.policy).authorizes "salary" = false ∧
      execute { flaggedOptions with allow := ["*", "name", "*", ""], hide := ["", "salary"] }
          guardedFile .builtIn = execute flaggedOptions guardedFile .builtIn ∧
      ((sieveOf flaggedOptions guardedFile .builtIn).read flaggedOptions.query).criteria =
        [.comparison "name" .eq "3"] ∧
      (Criterion.comparison "name" .eq "3").key ≠ "salary" := by
  obtain ⟨hauth, hcongr, hread⟩ := flags_extend_policy flaggedOptions guardedFile
  have hallow : ∀ x, x ∈ ["*", "name", "*", ""] ↔ x ∈ flaggedOptions.allow := by
    intro x
    simp only [flaggedOptions, List.mem_cons, List.not_mem_nil, or_false]
    tauto
  have hhide : ∀ x, x ∈ ["", "salary"] ↔ x ∈ flaggedOptions.hide := by
    intro x
    simp only [flaggedOptions, List.mem_cons, List.not_mem_nil, or_false]
    tauto
  have hc : ((sieveOf flaggedOptions guardedFile .builtIn).read flaggedOptions.query).criteria =
      [.comparison "name" .eq "3"] := by decide +kernel
  have hname : (mergedPolicy flaggedOptions guardedFile.policy).authorizes "name" = true :=
    (hauth "name").mpr ⟨by decide, by decide, by decide, .inr (.inr (.inl (by decide)))⟩
  refine ⟨hname, ?_, (hcongr _ _ hallow hhide).2 .builtIn, hc, ?_⟩
  · refine Bool.eq_false_iff.mpr fun hx => ?_
    exact ((hauth "salary").mp hx).2.2.1 (by decide)
  · have hm := hread (sieveOf flaggedOptions guardedFile .builtIn) rfl flaggedOptions.query none
    rw [hc] at hm
    exact (hm _ List.mem_cons_self "salary" (.inr (by decide))).1

end CommandLine

end QuerySieve
