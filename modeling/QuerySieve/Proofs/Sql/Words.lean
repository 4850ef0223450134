import QuerySieve.Proofs.Sql.Clauses

/-!
# The words of a statement

A text is cut into its words at the characters that no word has. The words of the two clauses that
hold fields of criteria are keywords, numbers and the names of these fields.

* `words`: the words of a text.
* `words_append`, `words_append_left`: the words before and after a place where no word goes on.
* `Select.fieldNames`: the fields in the tests and the sorts of a query.
* **`Select.mem_words_clauses`**: the words of the two clauses.
-/

namespace QuerySieve

namespace Text

/-- The words of a text, its longest stretches of letters and digits of ASCII and `_`. -/
def words (cs : List Char) : List (List Char) :=
  (cs.splitOnP (!isWordChar ·)).filter (· ≠ [])

theorem words_append_cons (a : List Char) {x : Char} (hx : isWordChar x = false) (b : List Char) :
    words (a ++ x :: b) = words a ++ words b := by
  rw [words, List.splitOnP_append_cons _ _ (by simp [hx]), List.filter_append, words, words]

theorem words_append (a : List Char) {r : List Char} (hr : stops r = true) :
    words (a ++ r) = words a ++ words r := by
  cases r with
  | nil => simp [words]
  | cons x r =>
    have hx : isWordChar x = false := by simpa [stops] using hr
    have hc : words (x :: r) = words r := words_append_cons [] hx r
    rw [words_append_cons a hx, hc]

theorem words_append_left {a : List Char} (ha : stops a.reverse = true) (r : List Char) :
    words (a ++ r) = words a ++ words r := by
  induction a using List.reverseRecOn with
  | nil => rfl
  | append_singleton a x ih =>
    have hx : isWordChar x = false := by simpa [stops] using ha
    have hc : words (a ++ [x]) = words a := by simpa [words] using words_append_cons a hx []
    rw [hc, List.append_assoc, List.cons_append, List.nil_append, words_append_cons a hx]

theorem words_word {w : List Char} (hne : w ≠ []) (h : ∀ c ∈ w, isWordChar c = true) :
    words w = [w] := by
  rw [words, List.splitOnP_eq_singleton fun c hc => by simp [h c hc]]
  simp [hne]

theorem mem_words_clause {α : Type} {opening sep : List Char} (ho : stops opening.reverse = true)
    (hs : stops sep.reverse = true) (hsep : ∀ r, stops (sep ++ r) = true) {text : α → List Char}
    {xs : List α} {w : List Char} (hw : w ∈ words (clause opening sep text xs)) :
    w ∈ words opening ∨ w ∈ words sep ∨ ∃ x ∈ xs, w ∈ words (text x) := by
  have hst : ∀ ys : List α, stops (ys.flatMap fun y => sep ++ text y) = true :=
    stops_separated hsep
  -- Each member has its separator in front, so the induction is on the members after the first.
  have rest : ∀ ys : List α, w ∈ words (ys.flatMap fun y => sep ++ text y) →
      w ∈ words sep ∨ ∃ y ∈ ys, w ∈ words (text y) := by
    intro ys hy
    induction ys with
    | nil => simp [words] at hy
    | cons y ys ih =>
      rw [List.flatMap_cons, List.append_assoc, words_append_left hs, words_append _ (hst ys)] at hy
      simp only [List.mem_append] at hy
      obtain hy | hy | hy := hy
      · exact .inl hy
      · exact .inr ⟨y, List.mem_cons_self, hy⟩
      · exact (ih hy).imp_right fun ⟨z, hz, hw⟩ => ⟨z, List.mem_cons_of_mem _ hz, hw⟩
  cases xs with
  | nil => simp [clause, words] at hw
  | cons x xs =>
    rw [clause, words_append_left ho, words_append _ (hst xs)] at hw
    simp only [List.mem_append] at hw
    obtain hw | hw | hw := hw
    · exact .inl hw
    · exact .inr (.inr ⟨x, List.mem_cons_self, hw⟩)
    · exact .inr ((rest xs hw).imp_right fun ⟨z, hz, hw⟩ => ⟨z, List.mem_cons_of_mem _ hz, hw⟩)

end Text

namespace Sql

open Text

/-- The keywords of the clauses that hold the fields of criteria. -/
def keywords : List String :=
  ["WHERE", "AND", "LIKE", "IS", "NOT", "NULL", "IN", "ANY", "ALL", "ORDER", "BY", "ASC", "DESC"]

/-- Whether a word is a keyword or a number. -/
def isFixedWord (w : List Char) : Bool :=
  keywords.any (·.toList == w) || w.all Char.isDigit

theorem words_identifier (i : Identifier) : words i.name.toList = [i.name.toList] := by
  refine words_word ?_ i.isWordChar_of_mem
  obtain ⟨c, cs, hi, -, -⟩ := i.toList_eq
  simp [hi]

theorem words_placeholder (d : Dialect) (n : Nat) :
    words (d.placeholder n).toList = [n.repr.toList] := by
  have hs : isWordChar d.sign = false := by cases d <;> rfl
  have hne : n.repr.toList ≠ [] := by simp [Nat.repr, Nat.toDigits_ne_nil]
  have h : words (d.sign :: n.repr.toList) = words n.repr.toList := words_append_cons [] hs _
  rw [d.toList_placeholder, h, words_word hne (isWordChar_of_mem_repr n)]

theorem isFixedWord_of_mem_placeholders {d : Dialect} {first count : Nat} {w : List Char}
    (hw : w ∈ words (d.placeholders first count).toList) : isFixedWord w = true := by
  have hsep : words ", ".toList = [] := by decide
  rw [Dialect.placeholders, toList_intercalate_map] at hw
  obtain hw | hw | ⟨n, -, hw⟩ := mem_words_clause rfl (by decide) (fun _ => rfl) hw
  · simp [words] at hw
  · rw [hsep] at hw
    cases hw
  · rw [words_placeholder, List.mem_singleton] at hw
    have hd : n.repr.toList.all Char.isDigit = true := List.all_eq_true.mpr (isDigit_of_mem_repr n)
    rw [isFixedWord, hw, hd, Bool.or_true]

/-- **The words of a test** are its field, keywords and numbers. -/
theorem Condition.mem_words_text {c : Condition} {d : Dialect} {first : Nat} {w : List Char}
    (hw : w ∈ words (c.text d first).toList) :
    isFixedWord w = true ∨ ∃ p, c.test? = some p ∧ w = p.1.name.toList := by
  cases h : c.test? with
  | none =>
    have hn : ∀ w ∈ words ['1', '=', '0'], isFixedWord w = true := by decide +kernel
    rw [eq_never_of_test? h, toList_text_never] at hw
    exact .inl (hn w hw)
  | some p =>
    obtain ⟨i, t⟩ := p
    have fixed : ∀ t ∈ Test.all, (∀ w ∈ words (t.opening d).toList, isFixedWord w = true) ∧
        (∀ w ∈ words t.closing.toList, isFixedWord w = true) ∧ stops t.closing.toList = true := by
      cases d <;> decide +kernel
    obtain ⟨ho, hc, hst⟩ := fixed t t.mem_all
    rw [text_of_test? h, String.toList_append, String.toList_append, String.toList_append,
      words_append _ (stops_opening d t _), words_append _ (stops_placeholders d _ _ hst),
      words_append _ hst, words_identifier] at hw
    simp only [List.mem_append, List.mem_singleton] at hw
    obtain hw | hw | hw | hw := hw
    · exact .inr ⟨_, rfl, hw⟩
    · exact .inl (ho w hw)
    · exact .inl (isFixedWord_of_mem_placeholders hw)
    · exact .inl (hc w hw)

namespace Select

theorem mem_words_sortText {s : Identifier × Direction} {w : List Char}
    (hw : w ∈ words (sortText s).toList) : isFixedWord w = true ∨ w = s.1.name.toList := by
  have hd : ∀ d : Direction, ∀ w ∈ words (" " ++ directionWord d).toList, isFixedWord w = true := by
    intro d
    cases d <;> decide +kernel
  rw [sortText, String.append_assoc, String.toList_append, words_append _ ?_, words_identifier,
    List.mem_append, List.mem_singleton] at hw
  · exact hw.symm.imp_left (hd s.2 w)
  · rw [String.toList_append]
    rfl

/-- The fields in the tests and the sorts of a query. -/
def fieldNames (q : Select) : List String :=
  q.conditions.filterMap (fun c => c.test?.map (·.1.name)) ++ q.sorts.map (·.1.name)

/-- **The words of the two clauses** are keywords, numbers and fields. -/
theorem mem_words_clauses {q : Select} {w : List Char}
    (hw : w ∈ words (q.whereText ++ q.orderText).toList) :
    isFixedWord w = true ∨ ∃ name ∈ q.fieldNames, w = name.toList := by
  have fixed : (∀ w ∈ words " WHERE ".toList, isFixedWord w = true) ∧
      (∀ w ∈ words " AND ".toList, isFixedWord w = true) ∧
      (∀ w ∈ words " ORDER BY ".toList, isFixedWord w = true) ∧
      (∀ w ∈ words ", ".toList, isFixedWord w = true) := by decide +kernel
  have hst : stops q.orderText.toList = true := by
    have hn : stops [] = true := rfl
    rw [toList_orderText]
    simpa using stops_clause (fun _ => rfl) hn q.sorts
  rw [String.toList_append, words_append _ hst, List.mem_append, toList_whereText,
    toList_orderText] at hw
  obtain hw | hw := hw
  · obtain hw | hw | ⟨p, hp, hw⟩ := mem_words_clause (by decide) (by decide) (fun _ => rfl) hw
    · exact .inl (fixed.1 w hw)
    · exact .inl (fixed.2.1 w hw)
    · refine (Condition.mem_words_text hw).imp_right fun ⟨t, ht, hn⟩ => ⟨t.1.name, ?_, hn⟩
      have hc : p.2 ∈ q.conditions := by
        have hm := List.mem_map_of_mem (f := fun p => id p.2) hp
        rwa [Condition.map_numbered, List.map_id] at hm
      exact List.mem_append_left _ (List.mem_filterMap.mpr ⟨p.2, hc, by rw [ht]; rfl⟩)
  · obtain hw | hw | ⟨s, hs, hw⟩ := mem_words_clause (by decide) (by decide) (fun _ => rfl) hw
    · exact .inl (fixed.2.2.1 w hw)
    · exact .inl (fixed.2.2.2 w hw)
    · refine (mem_words_sortText hw).imp_right fun hn => ⟨s.1.name, ?_, hn⟩
      exact List.mem_append_right _ (List.mem_map.mpr ⟨s, hs, rfl⟩)

end Select

end Sql

end QuerySieve
