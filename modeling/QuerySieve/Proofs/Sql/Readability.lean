import QuerySieve.Proofs.Sql.Outline
import Std.Data.String.ToNat

/-!
# The text of a statement reads in one way

Names may be spelled like the words of a statement, and a statement may be of any length. Still its
text can be cut in one way only, as every name and number is followed by a character that neither
holds, and the words between them begin no other such word.

* `readable_identifier`, `readable_number`, `readable_opening`, `readable_condition`: the parts.
* `Select.outline_eq_of_sql_eq`: the outline can be read off the text.
* **`Draft.sql_eq_iff_outline_eq`**: two runs make the same text if and only if they have the same
  outline.
-/

namespace QuerySieve.Sql

open Text

/-! ## Words -/

theorem readable_identifier : Readable (fun i : Identifier => i.name.toList) (·.name) := by
  intro i j r s hr hs e
  obtain ⟨h, hrs⟩ := readable_word Identifier.isWordChar_of_mem i j r s hr hs e
  exact ⟨String.toList_inj.mp h, hrs⟩

theorem readable_number : Readable (fun n : Nat => n.repr.toList) id := by
  intro m n r s hr hs e
  obtain ⟨h, hrs⟩ := readable_word isWordChar_of_mem_repr m n r s hr hs e
  exact ⟨Nat.repr_injective (String.toList_inj.mp h), hrs⟩

theorem readable_placeholder (d : Dialect) :
    Readable (fun n : Nat => (d.placeholder n).toList) id := by
  intro m n r s hr hs e
  simp only [d.toList_placeholder, List.cons_append, List.cons.injEq, true_and] at e
  exact readable_number m n r s hr hs e

/-- No opening of a test begins another, but by a part of a word. -/
theorem readable_opening (d : Dialect) : Readable (fun t : Test => (t.opening d).toList) id := by
  refine readable_code fun a b hab => ?_
  have h : ∀ a ∈ Test.all, ∀ b ∈ Test.all, (a.opening d).toList <+: (b.opening d).toList →
      a = b ∨ stops ((b.opening d).toList.drop (a.opening d).toList.length) = false := by
    cases d <;> decide +kernel
  exact h a a.mem_all b b.mem_all hab

/-! ## Conditions -/

theorem placeholders_inj {d : Dialect} {t : Test} {first first' n n' : Nat} {r s : List Char}
    (hn : ∀ m, t.size? d = some m → n = m) (hn' : ∀ m, t.size? d = some m → n' = m)
    (hr : stops r = true) (hs : stops s = true)
    (e : (d.placeholders first n).toList ++ (t.closing.toList ++ r) =
      (d.placeholders first' n').toList ++ (t.closing.toList ++ s)) : n = n' ∧ r = s := by
  cases t with
  | null isNull =>
    obtain rfl := hn 0 rfl
    obtain rfl := hn' 0 rfl
    rw [placeholders_zero, placeholders_zero] at e
    exact ⟨rfl, e⟩
  | like =>
    obtain rfl := hn 1 rfl
    obtain rfl := hn' 1 rfl
    rw [placeholders_one, placeholders_one] at e
    exact ⟨rfl, (readable_placeholder d _ _ r s hr hs e).2⟩
  | compare relation =>
    obtain rfl := hn 1 rfl
    obtain rfl := hn' 1 rfl
    rw [placeholders_one, placeholders_one] at e
    exact ⟨rfl, (readable_placeholder d _ _ r s hr hs e).2⟩
  | member negated =>
    have closes : ∀ u, Closes [] ", ".toList (fun n : Nat => (d.placeholder n).toList)
        (")".toList ++ u) := by
      intro u
      refine ⟨rfl, fun x v h => ?_, by simp⟩
      rw [d.toList_placeholder] at h
      cases d <;> simp [Dialect.sign] at h
    rw [Dialect.placeholders, Dialect.placeholders, toList_intercalate_map,
      toList_intercalate_map] at e
    obtain ⟨h, hrs⟩ := (readable_placeholder d).clause_inj (fun _ => rfl) (closes r) (closes s) e
    refine ⟨?_, List.append_cancel_left hrs⟩
    simpa using congrArg List.length h

theorem text_ne_never {c : Condition} {p : Identifier × Test} (h : c.test? = some p) (d : Dialect)
    (first first' : Nat) (r s : List Char) :
    (c.text d first).toList ++ r ≠ (Condition.never.text d first').toList ++ s := by
  obtain ⟨x, xs, hi, hd, -⟩ := p.1.toList_eq
  intro e
  rw [Condition.text_of_test? h, String.toList_append, hi, Condition.toList_text_never] at e
  obtain ⟨rfl, -⟩ := List.cons.inj e
  exact absurd hd (by decide)

/-- **A test reads in one way.** -/
theorem readable_condition (d : Dialect) :
    Readable (fun p : Nat × Condition => (p.2.text d p.1).toList) (fun p => p.2.shape d) := by
  rintro ⟨first, c⟩ ⟨first', c'⟩ r s hr hs e
  simp only at e ⊢
  cases h : c.test? with
  | none =>
    cases h' : c'.test? with
    | none =>
      rw [Condition.eq_never_of_test? h, Condition.eq_never_of_test? h',
        Condition.toList_text_never, Condition.toList_text_never] at e
      rw [Condition.eq_never_of_test? h, Condition.eq_never_of_test? h']
      exact ⟨rfl, List.append_cancel_left e⟩
    | some p =>
      rw [Condition.eq_never_of_test? h] at e
      exact absurd e.symm (text_ne_never h' d _ _ _ _)
  | some p =>
    cases h' : c'.test? with
    | none =>
      rw [Condition.eq_never_of_test? h'] at e
      exact absurd e (text_ne_never h d _ _ _ _)
    | some p' =>
      obtain ⟨i, t⟩ := p
      obtain ⟨i', t'⟩ := p'
      rw [Condition.text_of_test? h, Condition.text_of_test? h'] at e
      simp only [String.toList_append, List.append_assoc] at e
      -- the field, then what is asked of it, then the placeholders
      obtain ⟨hi, e⟩ := readable_identifier i i' _ _ (stops_opening d t _) (stops_opening d t' _) e
      obtain ⟨ht, e⟩ := readable_opening d t t' _ _
        (stops_placeholders d _ _ (stops_closing t hr))
        (stops_placeholders d _ _ (stops_closing t' hs)) e
      obtain rfl : t = t' := ht
      obtain ⟨hn, hrs⟩ := placeholders_inj (fun m => Condition.length_params_of_size? h)
        (fun m => Condition.length_params_of_size? h') hr hs e
      refine ⟨?_, hrs⟩
      simp only [Condition.shape, h, h', hi, hn]

/-! ## Statements -/

namespace Select

theorem readable_direction :
    Readable (fun d : Direction => ' ' :: (directionWord d).toList) id := by
  refine readable_code fun a b hab => .inl ?_
  cases a with
  | asc =>
    cases b with
    | asc => rfl
    | desc => exact absurd hab (by decide)
  | desc =>
    cases b with
    | asc => exact absurd hab (by decide)
    | desc => rfl

theorem readable_sort :
    Readable (fun s => (sortText s).toList) fun s => (s.1.name, s.2) := by
  have h : Readable (fun s : Identifier × Direction =>
      s.1.name.toList ++ ' ' :: (directionWord s.2).toList) fun s => (s.1.name, s.2) :=
    Readable.append (fun a b => readable_identifier a.1 b.1) (fun _ _ _ => rfl)
      fun a b r s _ hr hs e => readable_direction a.2 b.2 r s hr hs e
  intro a b r s hr hs e
  refine h a b r s hr hs ?_
  simpa [sortText] using e

variable (q : Select)

theorem closes_limitText :
    Closes " ORDER BY ".toList ", ".toList (fun s => (sortText s).toList) q.limitText.toList := by
  refine ⟨q.stops_limitText, ?_, ?_⟩
  · intro s u
    obtain h | ⟨n, h⟩ := q.limitText_cases <;> simp [h]
  · obtain h | ⟨n, h⟩ := q.limitText_cases <;> simp [h]

theorem closes_orderText :
    Closes " WHERE ".toList " AND ".toList
      (fun p : Nat × Condition => (p.2.text q.dialect p.1).toList)
      (q.orderText.toList ++ q.limitText.toList) := by
  refine ⟨q.stops_orderText, ?_, ?_⟩
  · intro p u
    rw [toList_orderText]
    obtain h | ⟨n, h⟩ := q.limitText_cases <;> cases q.sorts <;> simp [h, clause]
  · rw [toList_orderText]
    obtain h | ⟨n, h⟩ := q.limitText_cases <;> cases q.sorts <;> simp [h, clause]

theorem closes_columns (r : List Char) :
    Closes [] ", ".toList (fun i : Identifier => i.name.toList) (" FROM ".toList ++ r) :=
  ⟨rfl, fun i u h => i.toList_append_ne (by decide) u _ h.symm, by simp⟩

theorem columnsText_inj {q q' : Select} {r s : List Char}
    (e : q.columnsText.toList ++ (" FROM ".toList ++ r) =
      q'.columnsText.toList ++ (" FROM ".toList ++ s)) :
    q.columns.map (·.name) = q'.columns.map (·.name) ∧ r = s := by
  have star : ∀ (i : Identifier) (is : List Identifier) (u v : List Char),
      clause [] ", ".toList (fun i : Identifier => i.name.toList) (i :: is) ++ u ≠ ['*'] ++ v := by
    intro i is u v
    rw [clause, List.nil_append, List.append_assoc]
    exact i.toList_append_ne (by decide) _ _
  rw [toList_columnsText, toList_columnsText] at e
  cases hq : q.columns with
  | nil =>
    cases hq' : q'.columns with
    | nil =>
      rw [hq, hq'] at e
      exact ⟨rfl, List.append_cancel_left (List.append_cancel_left e)⟩
    | cons i is =>
      rw [hq, hq'] at e
      exact absurd e.symm (star i is _ _)
  | cons i is =>
    cases hq' : q'.columns with
    | nil =>
      rw [hq, hq'] at e
      exact absurd e (star i is _ _)
    | cons i' is' =>
      rw [hq, hq'] at e
      obtain ⟨h, hrs⟩ := readable_identifier.clause_inj (fun _ => rfl) (closes_columns r)
        (closes_columns s) e
      exact ⟨h, List.append_cancel_left hrs⟩

theorem limit_eq_of_limitText_eq {q q' : Select} (e : q.limitText.toList = q'.limitText.toList) :
    q.limit = q'.limit := by
  unfold limitText at e
  cases hq : q.limit with
  | none =>
    cases hq' : q'.limit with
    | none => rfl
    | some n => rw [hq, hq'] at e; simp at e
  | some m =>
    cases hq' : q'.limit with
    | none => rw [hq, hq'] at e; simp at e
    | some n =>
      rw [hq, hq'] at e
      simp only [String.toList_append] at e
      rw [Nat.repr_injective (String.toList_inj.mp (List.append_cancel_left e))]

/-- **The outline can be read off the text.** -/
theorem outline_eq_of_sql_eq {q q' : Select} (hd : q.dialect = q'.dialect) (h : q.sql = q'.sql) :
    q.outline = q'.outline := by
  have e := congrArg String.toList h
  rw [toList_sql, toList_sql] at e
  obtain ⟨hcol, e⟩ := columnsText_inj (List.append_cancel_left e)
  obtain ⟨ht, e⟩ := readable_identifier q.table q'.table _ _ q.stops_whereText q'.stops_whereText e
  have hc := q.closes_orderText
  rw [toList_whereText, toList_whereText] at e
  rw [hd] at e hc
  obtain ⟨hcon, e⟩ := (readable_condition q'.dialect).clause_inj (fun _ => rfl) hc
    q'.closes_orderText e
  rw [toList_orderText, toList_orderText] at e
  obtain ⟨hs, e⟩ := readable_sort.clause_inj (fun _ => rfl) q.closes_limitText q'.closes_limitText e
  rw [Condition.map_numbered, Condition.map_numbered, ← hd] at hcon
  have ht : q.table.name = q'.table.name := ht
  unfold outline
  rw [ht, hcol, hcon, hs, limit_eq_of_limitText_eq e, hd]

end Select

/-! ## Runs -/

/-- **Two runs make the same text if and only if they have the same outline**: the same table,
columns, sorts and limit, and the same tests up to the values. -/
theorem Draft.sql_eq_iff_outline_eq (d : Dialect) {table table' : String} {steps steps' : List Step}
    {draft draft' : Draft} (h : Draft.make d table steps = .ok draft)
    (h' : Draft.make d table' steps' = .ok draft') :
    draft.query.statement.sql = draft'.query.statement.sql ↔
      Outline.ofSteps d table steps = Outline.ofSteps d table' steps' := by
  have hm := Draft.made h
  have hm' := Draft.made h'
  have hd : draft.query.dialect = draft'.query.dialect := by rw [hm.dialect_eq, hm'.dialect_eq]
  rw [← hm.outline_eq, ← hm'.outline_eq]
  exact ⟨Select.outline_eq_of_sql_eq hd, Select.sql_eq_of_outline_eq hd⟩

/-- Names and a value that are spelled like words of the statement. -/
theorem Draft.sql_eq_for_other_values :
    ∃ draft draft', Draft.make .postgres "FROM" [.criterion (.comparison "AND" .lt "5"),
          .criterion (.inclusionTest "WHERE" true ["a"])] = .ok draft ∧
      Draft.make .postgres "FROM" [.criterion (.comparison "AND" .lt "0 OR 1=1"),
          .criterion (.inclusionTest "WHERE" true ["b", "c"])] = .ok draft' ∧
      draft.query.statement.sql = draft'.query.statement.sql := by
  obtain ⟨draft, h⟩ : ∃ draft, Draft.make .postgres "FROM" [.criterion (.comparison "AND" .lt "5"),
      .criterion (.inclusionTest "WHERE" true ["a"])] = .ok draft := ⟨_, rfl⟩
  obtain ⟨draft', h'⟩ : ∃ draft, Draft.make .postgres "FROM"
      [.criterion (.comparison "AND" .lt "0 OR 1=1"),
        .criterion (.inclusionTest "WHERE" true ["b", "c"])] = .ok draft := ⟨_, rfl⟩
  exact ⟨draft, draft', h, h', (Draft.sql_eq_iff_outline_eq .postgres h h').mpr (by decide +kernel)⟩

end QuerySieve.Sql
