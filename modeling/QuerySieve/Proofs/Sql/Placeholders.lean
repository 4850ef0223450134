import Mathlib.Data.List.TakeWhile
import QuerySieve.Proofs.Sql.Clauses
import QuerySieve.Proofs.Sql.Run

/-!
# Placeholders and parameters

The text of a statement refers to its parameters by number. Each test takes the numbers after those
of the tests before it, as many as it binds parameters.

* `numbersAfter`: the numbers after a sign, as the text is read from the left.
* `Condition.numbersAfter_text`: the numbers of one test.
* `Criterion.boundParams`: the parameters that a criterion binds.
* **`Draft.numbersAfter_sql_of_make`**: every parameter has its placeholder, in order.
-/

namespace QuerySieve

open Text Sql

namespace Text

/-- The numbers that follow the occurrences of a sign, from left to right. -/
def numbersAfter (sign : Char) : List Char → List Nat
  | [] => []
  | c :: cs =>
    if c = sign then Nat.ofDigitChars 10 (cs.takeWhile Char.isDigit) 0 :: numbersAfter sign cs
    else numbersAfter sign cs

section

variable {sign : Char}

theorem numbersAfter_eq_nil {a : List Char} (h : sign ∉ a) : numbersAfter sign a = [] := by
  induction a with
  | nil => rfl
  | cons c a ih =>
    rw [List.mem_cons, not_or] at h
    rw [numbersAfter, if_neg (Ne.symm h.1), ih h.2]

theorem takeWhile_isDigit_append {r : List Char} (hr : stops r = true) (a : List Char) :
    (a ++ r).takeWhile Char.isDigit = a.takeWhile Char.isDigit := by
  induction a with
  | nil =>
    cases r with
    | nil => rfl
    | cons c r =>
      have hc : ¬ c.isDigit = true := by
        intro h
        simp [stops, isWordChar_of_isDigit h] at hr
      simp [hc]
  | cons c a ih => simp only [List.cons_append, List.takeWhile_cons, ih]

theorem numbersAfter_append {r : List Char} (hr : stops r = true) (a : List Char) :
    numbersAfter sign (a ++ r) = numbersAfter sign a ++ numbersAfter sign r := by
  induction a with
  | nil => rfl
  | cons c a ih =>
    simp only [List.cons_append, numbersAfter, takeWhile_isDigit_append hr, ih]
    split_ifs <;> rfl

theorem numbersAfter_append_of_notMem {a : List Char} (h : sign ∉ a) (r : List Char) :
    numbersAfter sign (a ++ r) = numbersAfter sign r := by
  induction a with
  | nil => rfl
  | cons c a ih =>
    rw [List.mem_cons, not_or] at h
    rw [List.cons_append, numbersAfter, if_neg (Ne.symm h.1), ih h.2]

theorem numbersAfter_clause {α : Type} {opening sep : List Char} (ho : sign ∉ opening)
    (hs : sign ∉ sep) (hsep : ∀ r, stops (sep ++ r) = true) (text : α → List Char) (xs : List α) :
    numbersAfter sign (clause opening sep text xs) =
      xs.flatMap fun x => numbersAfter sign (text x) := by
  have hst : ∀ xs : List α, stops (xs.flatMap fun x => sep ++ text x) = true :=
    stops_separated hsep
  have rest : ∀ xs : List α, numbersAfter sign (xs.flatMap fun x => sep ++ text x) =
      xs.flatMap fun x => numbersAfter sign (text x) := by
    intro xs
    induction xs with
    | nil => rfl
    | cons x xs ih =>
      rw [List.flatMap_cons, List.append_assoc, numbersAfter_append_of_notMem hs,
        numbersAfter_append (hst xs), ih, List.flatMap_cons]
  cases xs with
  | nil => rfl
  | cons x xs =>
    rw [clause, numbersAfter_append_of_notMem ho, numbersAfter_append (hst xs), rest,
      List.flatMap_cons]

end

end Text

namespace Sql

theorem Dialect.isWordChar_sign (d : Dialect) : isWordChar d.sign = false := by
  cases d <;> rfl

theorem Dialect.sign_notMem_word (d : Dialect) {cs : List Char}
    (h : ∀ c ∈ cs, isWordChar c = true) : d.sign ∉ cs := by
  intro hm
  have := h _ hm
  rw [d.isWordChar_sign] at this
  cases this

/-! ## Conditions -/

theorem numbersAfter_placeholder (d : Dialect) (n : Nat) :
    numbersAfter d.sign (d.placeholder n).toList = [n] := by
  have hd : n.repr.toList.takeWhile Char.isDigit = n.repr.toList := by
    rw [List.takeWhile_eq_self_iff]
    exact isDigit_of_mem_repr n
  rw [d.toList_placeholder, numbersAfter, if_pos rfl, hd,
    numbersAfter_eq_nil (d.sign_notMem_word (isWordChar_of_mem_repr n)), Nat.repr,
    String.toList_ofList, Nat.ofDigitChars_ten_toDigits]

theorem numbersAfter_placeholders (d : Dialect) (first count : Nat) :
    numbersAfter d.sign (d.placeholders first count).toList = List.range' first count := by
  rw [Dialect.placeholders, toList_intercalate_map,
    numbersAfter_clause List.not_mem_nil (by cases d <;> decide) fun _ => rfl]
  simp [numbersAfter_placeholder]

namespace Condition

/-- **The numbers of one test** are those of its parameters. -/
theorem numbersAfter_text (d : Dialect) (first : Nat) (c : Condition) :
    numbersAfter d.sign (c.text d first).toList = List.range' first (c.params d).length := by
  cases h : c.test? with
  | none =>
    rw [eq_never_of_test? h, toList_text_never]
    exact numbersAfter_eq_nil (by cases d <;> decide)
  | some p =>
    obtain ⟨i, t⟩ := p
    have fixed : ∀ t ∈ Test.all, d.sign ∉ (t.opening d).toList ∧ d.sign ∉ t.closing.toList ∧
        stops t.closing.toList = true := by
      cases d <;> decide +kernel
    obtain ⟨ho, hc, hst⟩ := fixed t t.mem_all
    rw [text_of_test? h, String.toList_append, String.toList_append, String.toList_append,
      numbersAfter_append_of_notMem (d.sign_notMem_word i.isWordChar_of_mem),
      numbersAfter_append_of_notMem ho, numbersAfter_append hst, numbersAfter_eq_nil hc,
      List.append_nil, numbersAfter_placeholders]

theorem numbersAfter_numbered (d : Dialect) (first : Nat) (cs : List Condition) :
    ((numbered d first cs).flatMap fun p => List.range' p.1 (p.2.params d).length) =
      List.range' first (cs.flatMap (·.params d)).length := by
  induction cs generalizing first with
  | nil => rfl
  | cons c cs ih =>
    rw [numbered, List.flatMap_cons, ih, List.flatMap_cons, List.length_append,
      List.range'_append_1]

end Condition

/-! ## Statements -/

namespace Select

variable (q : Select)

theorem numbersAfter_columnsText :
    numbersAfter q.dialect.sign q.columnsText.toList = [] := by
  rw [toList_columnsText]
  cases q.columns with
  | nil => exact numbersAfter_eq_nil (by cases q.dialect <;> decide)
  | cons i is =>
    show numbersAfter _ (clause _ _ _ _) = _
    rw [numbersAfter_clause List.not_mem_nil (by cases q.dialect <;> decide) fun _ => rfl]
    refine List.flatMap_eq_nil_iff.mpr fun i _ => ?_
    exact numbersAfter_eq_nil (q.dialect.sign_notMem_word i.isWordChar_of_mem)

theorem numbersAfter_orderText : numbersAfter q.dialect.sign q.orderText.toList = [] := by
  rw [toList_orderText, numbersAfter_clause (by cases q.dialect <;> decide)
    (by cases q.dialect <;> decide) fun _ => rfl]
  refine List.flatMap_eq_nil_iff.mpr fun s _ => ?_
  have hw : q.dialect.sign ∉ " ".toList ++ (directionWord s.2).toList := by
    cases q.dialect <;> cases s.2 <;> decide
  rw [sortText, String.toList_append, String.toList_append, List.append_assoc,
    numbersAfter_append_of_notMem (q.dialect.sign_notMem_word s.1.isWordChar_of_mem),
    numbersAfter_eq_nil hw]

theorem numbersAfter_limitText : numbersAfter q.dialect.sign q.limitText.toList = [] := by
  obtain h | ⟨n, h⟩ := q.limitText_cases
  · rw [h]; rfl
  · rw [h, numbersAfter_append_of_notMem (by cases q.dialect <;> decide),
      numbersAfter_eq_nil (q.dialect.sign_notMem_word (isWordChar_of_mem_repr n))]

theorem numbersAfter_whereText :
    numbersAfter q.dialect.sign q.whereText.toList = List.range' 1 q.params.length := by
  rw [toList_whereText, numbersAfter_clause (by cases q.dialect <;> decide)
    (by cases q.dialect <;> decide) fun _ => rfl]
  simp only [Condition.numbersAfter_text, Condition.numbersAfter_numbered]
  rfl

/-- **The numbers of a statement** are those of its parameters. -/
theorem numbersAfter_sql :
    numbersAfter q.dialect.sign q.sql.toList = List.range' 1 q.params.length := by
  have hselect : q.dialect.sign ∉ "SELECT ".toList := by cases q.dialect <;> decide
  have hfrom : q.dialect.sign ∉ " FROM ".toList := by cases q.dialect <;> decide
  have htable : q.dialect.sign ∉ q.table.name.toList :=
    q.dialect.sign_notMem_word q.table.isWordChar_of_mem
  rw [toList_sql, numbersAfter_append_of_notMem hselect,
    numbersAfter_append (r := " FROM ".toList ++ _) rfl, numbersAfter_columnsText, List.nil_append,
    numbersAfter_append_of_notMem hfrom, numbersAfter_append_of_notMem htable,
    numbersAfter_append q.stops_orderText, numbersAfter_append q.stops_limitText,
    numbersAfter_orderText, numbersAfter_limitText, numbersAfter_whereText, List.append_nil,
    List.append_nil]

end Select

end Sql

/-! ## Runs -/

/-- The parameters that a criterion binds, if its field is an identifier. -/
def Criterion.boundParams (d : Dialect) (c : Criterion) : List Param :=
  if isIdentifier c.key then
    match c with
    | .comparison _ _ value => [.text value]
    | .patternMatch _ pattern => [.text pattern]
    | .nullTest _ _ => []
    | .inclusionTest _ _ [] => []
    | .inclusionTest _ _ values =>
      match d with
      | .postgres => [.list values]
      | .sqlite => values.map .text
    | .sortDirective _ _ => []
  else []

theorem Criterion.params_condition? (d : Dialect) (c : Criterion) :
    c.condition?.toList.flatMap (·.params d) = c.boundParams d := by
  unfold boundParams
  cases h : isIdentifier c.key with
  | false => rw [condition?_of_invalid h]; rfl
  | true =>
    rw [condition?_of_valid h, if_pos rfl]
    cases c with
    | comparison name r value => rfl
    | nullTest name isNull => rfl
    | patternMatch name pattern => rfl
    | inclusionTest name negated values =>
      cases values with
      | nil => cases negated <;> rfl
      | cons v values =>
        cases negated <;> cases d <;> simp [conditionOn, Condition.params, Dialect.memberParams]
    | sortDirective name direction => rfl

namespace Sql

/-- The parameters that a step binds. -/
def Step.boundParams (d : Dialect) : Step → List Param
  | criterion c => c.boundParams d
  | _ => []

/-- **Every parameter has its placeholder**, in order, and the parameters are those of the criteria
in the order they were handed over. -/
theorem Draft.numbersAfter_sql_of_make (d : Dialect) {table : String} {steps : List Step}
    {draft : Draft} (h : Draft.make d table steps = .ok draft) :
    numbersAfter d.sign draft.query.statement.sql.toList =
        List.range' 1 draft.query.statement.params.length ∧
      draft.query.statement.params = steps.flatMap (Step.boundParams d) := by
  have hm := Draft.made h
  refine ⟨?_, ?_⟩
  · rw [← hm.dialect_eq]
    exact draft.query.numbersAfter_sql
  · have hs : ∀ s : Step, s.condition?.toList.flatMap (·.params d) = s.boundParams d := by
      rintro (c | _ | _)
      · exact c.params_condition? d
      · rfl
      · rfl
    show draft.query.conditions.flatMap (·.params draft.query.dialect) = _
    rw [hm.conditions_eq, hm.dialect_eq, List.filterMap_eq_flatMap_toList, List.flatMap_assoc]
    exact congrArg (steps.flatMap ·) (funext hs)

/-- A list takes two numbers, a field that is no identifier and an empty list take none. -/
theorem Draft.numbersAfter_sql_lists :
    ∃ draft, Draft.make .sqlite "users" [.criterion (.inclusionTest "status" false ["a", "b"]),
        .criterion (.comparison "a name" .eq "x"), .limit 5,
        .criterion (.inclusionTest "role" true []), .criterion (.comparison "age" .ge "3")] =
          .ok draft ∧
      numbersAfter '?' draft.query.statement.sql.toList = [1, 2, 3] ∧
      draft.query.statement.params = [.text "a", .text "b", .text "3"] := by
  obtain ⟨draft, h⟩ : ∃ draft, Draft.make .sqlite "users"
      [.criterion (.inclusionTest "status" false ["a", "b"]),
        .criterion (.comparison "a name" .eq "x"), .limit 5,
        .criterion (.inclusionTest "role" true []), .criterion (.comparison "age" .ge "3")] =
          .ok draft := ⟨_, rfl⟩
  obtain ⟨hn, hp⟩ := Draft.numbersAfter_sql_of_make .sqlite h
  have hv : draft.query.statement.params = [.text "a", .text "b", .text "3"] :=
    hp.trans (by decide +kernel)
  rw [hv] at hn
  exact ⟨draft, h, hn, hv⟩

end Sql

end QuerySieve
