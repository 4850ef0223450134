import QuerySieve.Proofs.Sql.Clauses

/-!
# The characters of statements

The text of a statement is made of fixed words and signs, identifiers and numbers. Values are bound
and leave no character in it, so that no quote, no comment and no line break can stand there.

* `isStatementChar`: the characters of statements.
* `Condition.isStatementChar_of_mem_text`: the text of one test.
* **`Select.isStatementChar_of_mem_sql`**: the text of a statement.
-/

namespace QuerySieve.Sql

open Text

/-- The characters of statements: letters, digits and `_`, a blank and a few signs. -/
def isStatementChar (c : Char) : Bool :=
  isWordChar c || [' ', '*', ',', '(', ')', '=', '<', '>', '!', '$', '?'].contains c

theorem isStatementChar_of_isWordChar {c : Char} (h : isWordChar c = true) :
    isStatementChar c = true := by
  rw [isStatementChar, h, Bool.true_or]

theorem Identifier.isStatementChar_of_mem (i : Identifier) :
    ∀ c ∈ i.name.toList, isStatementChar c = true :=
  fun c hc => isStatementChar_of_isWordChar (i.isWordChar_of_mem c hc)

theorem isStatementChar_of_mem_repr (n : Nat) : ∀ c ∈ n.repr.toList, isStatementChar c = true :=
  fun c hc => isStatementChar_of_isWordChar (isWordChar_of_mem_repr n c hc)

theorem isStatementChar_of_mem_placeholders (d : Dialect) (first count : Nat) :
    ∀ c ∈ (d.placeholders first count).toList, isStatementChar c = true := by
  rw [Dialect.placeholders, toList_intercalate_map]
  refine forall_mem_clause (List.forall_mem_nil _) (List.all_eq_true.mp rfl) fun n _ c hc => ?_
  rw [d.toList_placeholder] at hc
  obtain rfl | hc := List.mem_cons.mp hc
  · cases d <;> decide
  · exact isStatementChar_of_mem_repr n c hc

/-- **The text of one test.** -/
theorem Condition.isStatementChar_of_mem_text (d : Dialect) (first : Nat) (x : Condition) :
    ∀ c ∈ (x.text d first).toList, isStatementChar c = true := by
  cases h : x.test? with
  | none =>
    rw [eq_never_of_test? h, toList_text_never]
    exact List.all_eq_true.mp rfl
  | some p =>
    obtain ⟨i, t⟩ := p
    have fixed : ∀ t ∈ Test.all,
        ((t.opening d).toList ++ t.closing.toList).all isStatementChar = true := by
      cases d <;> decide +kernel
    have fixed := List.all_eq_true.mp (fixed t t.mem_all)
    intro c hc
    simp only [text_of_test? h, String.toList_append, List.mem_append] at hc
    obtain hc | hc | hc | hc := hc
    · exact i.isStatementChar_of_mem c hc
    · exact fixed c (List.mem_append_left _ hc)
    · exact isStatementChar_of_mem_placeholders d first _ c hc
    · exact fixed c (List.mem_append_right _ hc)

namespace Select

variable (q : Select)

theorem isStatementChar_of_mem_columnsText :
    ∀ c ∈ q.columnsText.toList, isStatementChar c = true := by
  rw [toList_columnsText]
  cases q.columns with
  | nil => exact List.all_eq_true.mp rfl
  | cons i is =>
    exact forall_mem_clause (List.forall_mem_nil _) (List.all_eq_true.mp rfl)
      fun j _ => j.isStatementChar_of_mem

theorem isStatementChar_of_mem_whereText :
    ∀ c ∈ q.whereText.toList, isStatementChar c = true := by
  rw [toList_whereText]
  exact forall_mem_clause (List.all_eq_true.mp rfl) (List.all_eq_true.mp rfl)
    fun p _ => p.2.isStatementChar_of_mem_text q.dialect p.1

theorem isStatementChar_of_mem_orderText :
    ∀ c ∈ q.orderText.toList, isStatementChar c = true := by
  rw [toList_orderText]
  refine forall_mem_clause (List.all_eq_true.mp rfl) (List.all_eq_true.mp rfl) fun s _ c hc => ?_
  have word : ∀ c ∈ " ".toList ++ (directionWord s.2).toList, isStatementChar c = true := by
    cases s.2 <;> exact List.all_eq_true.mp rfl
  rw [sortText, String.toList_append, String.toList_append, List.append_assoc] at hc
  obtain hc | hc := List.mem_append.mp hc
  · exact s.1.isStatementChar_of_mem c hc
  · exact word c hc

theorem isStatementChar_of_mem_limitText :
    ∀ c ∈ q.limitText.toList, isStatementChar c = true := by
  have word : ∀ c ∈ " LIMIT ".toList, isStatementChar c = true := List.all_eq_true.mp rfl
  obtain h | ⟨n, h⟩ := q.limitText_cases
  · rw [h]
    exact List.forall_mem_nil _
  · rw [h]
    intro c hc
    obtain hc | hc := List.mem_append.mp hc
    · exact word c hc
    · exact isStatementChar_of_mem_repr n c hc

/-- **The text of a statement** has no other characters. -/
theorem isStatementChar_of_mem_sql : ∀ c ∈ q.sql.toList, isStatementChar c = true := by
  have word : ∀ c ∈ "SELECT ".toList ++ " FROM ".toList, isStatementChar c = true :=
    List.all_eq_true.mp rfl
  intro c hc
  simp only [toList_sql, List.mem_append] at hc
  obtain hc | hc | hc | hc | hc | hc | hc := hc
  · exact word c (List.mem_append_left _ hc)
  · exact q.isStatementChar_of_mem_columnsText c hc
  · exact word c (List.mem_append_right _ hc)
  · exact q.table.isStatementChar_of_mem c hc
  · exact q.isStatementChar_of_mem_whereText c hc
  · exact q.isStatementChar_of_mem_orderText c hc
  · exact q.isStatementChar_of_mem_limitText c hc

end Select

end QuerySieve.Sql
