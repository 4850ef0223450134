import QuerySieve.CommandLine.Program
import QuerySieve.Proofs.Json.Codec
import QuerySieve.Proofs.Sql.Bounds
import QuerySieve.Proofs.Sql.Characters
import QuerySieve.Proofs.Token

/-!
# What the program prints

A run prints the criteria of its query as JSON, or their statement on one line and its parameters in
a comment on the next one. The texts of a query stand in both, and neither form lets them out of
their quotes.

* `Sql.Param.read_compact`, `Criterion.read_pretty`: what is printed is read back.
* `splitOn_statementText`: a statement and its parameters are two lines.
* `respond_ne_panic`: no run gets to the panic of a query that cannot be started.
* **`execute_prints_two_lines`**: a run that prints a statement.
* **`render_reads_back`**: a run that prints criteria.
-/

namespace QuerySieve

open Json Sql

/-! ## Reading what is printed -/

/-- **Parameters on one line** are read back. -/
theorem Sql.Param.read_compact (ps : List Param) :
    (Value.read? (listToJson ps).compact).bind listOfJson? = some ps := by
  rw [Value.read?_of_written (Value.written_compact (integral_listToJson ps)), Option.bind_some,
    listOfJson?_listToJson]

/-- **Criteria over several lines** are read back. -/
theorem Criterion.read_pretty (cs : List Criterion) {tail : String} (ht : IsBlank tail.toList) :
    (Value.read? ((listToJson cs).pretty ++ tail)).bind listOfJson? = some cs := by
  rw [Value.read?_of_written (Value.written_pretty (integral_listToJson cs) ht), Option.bind_some,
    listOfJson?_listToJson]

namespace CommandLine

/-! ## Lines -/

theorem notMem_sql (q : Select) {c : Char} (hc : isStatementChar c = false) :
    c ∉ q.sql.toList := by
  intro hm
  rw [q.isStatementChar_of_mem_sql c hm] at hc
  cases hc

theorem notMem_compact (ps : List Param) {c : Char} (hc : c.toNat < 0x20) :
    c ∉ (Param.listToJson ps).compact.toList := fun hm =>
  Nat.not_le_of_lt hc (Value.le_toNat_of_mem_compact (Param.integral_listToJson ps) c hm)

/-- **A statement and its parameters are two lines.** -/
theorem splitOn_statementText (q : Select) :
    Text.splitOn '\n' (statementText q.statement) =
      [q.sql, "-- params: " ++ (Param.listToJson q.params).compact] := by
  have hj : statementText q.statement =
      "\n".intercalate [q.sql, "-- params: " ++ (Param.listToJson q.params).compact] := by
    rw [← String.toList_inj]
    simp [statementText, Select.statement]
  have hc : '\n' ∉ ("-- params: " ++ (Param.listToJson q.params).compact).toList := by
    rw [String.toList_append, List.mem_append, not_or]
    exact ⟨by decide, notMem_compact q.params (by decide)⟩
  rw [hj]
  refine Text.splitOn_intercalate rfl (List.cons_ne_nil _ _) fun t ht => ?_
  simp only [List.mem_cons, List.not_mem_nil, or_false] at ht
  obtain rfl | rfl := ht
  · exact notMem_sql q (by decide)
  · exact hc

/-! ## Rendering -/

theorem render_of_invalid {o : Options} (hf : o.format = .sql) (ht : isIdentifier o.table = false)
    (cs : List Criterion) : render o cs = (.error (.invalidTable o.table), []) := by
  rw [render, hf]
  simp only [ht]
  rfl

/-- Behind the check of the table, a query can be started. -/
theorem render_of_valid {o : Options} (hf : o.format = .sql) (ht : isIdentifier o.table = true)
    (cs : List Criterion) :
    (render o cs).1 = .ok (statementText
      (({ dialect := o.dialect, table := ⟨o.table, ht⟩ } : Select).withCriteria cs).statement) := by
  rw [render, hf]
  simp only [ht, Select.start_of_valid o.dialect ht]
  rfl

theorem render_of_json {o : Options} (hf : o.format = .json) (cs : List Criterion) :
    render o cs = (.ok (Criterion.listToJson cs).pretty, []) := by
  rw [render, hf]

theorem render_ne_panic (o : Options) (cs : List Criterion) (e : InvalidName) :
    (render o cs).1 ≠ .error (.panic e) := by
  cases hf : o.format with
  | json => simp [render_of_json hf]
  | sql =>
    cases ht : isIdentifier o.table with
    | false => simp [render_of_invalid hf ht]
    | true => simp [render_of_valid hf ht]

theorem policyFileOf_ne_panic (o : Options) (file : String → Option String) (e : InvalidName) :
    policyFileOf o file ≠ .error (.panic e) := by
  unfold policyFileOf
  split
  · simp
  · split
    · simp
    · split <;> simp

/-- **The program never panics**, whatever its arguments, files and environment. -/
theorem respond_ne_panic (arguments : List String) (file env : String → Option String)
    (e : InvalidName) (records : List LogRecord) :
    respond arguments file env ≠ .failed (.panic e) records := by
  intro h
  unfold respond at h
  split at h
  · cases h
  · cases h
  · next o _ =>
    unfold run at h
    split at h
    · next hp =>
      cases h
      exact policyFileOf_ne_panic o file e hp
    · next f _ =>
      split at h
      · cases h
      · next hr =>
        cases h
        exact render_ne_panic o _ e (congrArg Prod.fst hr)

/-! ## Statements -/

/-- **A run that prints a statement** fails if and only if its table is no identifier. Otherwise it
prints two lines: the statement, of letters, digits, `_`, blanks and `*,()=<>!$?` alone, and its
parameters as JSON in a comment. -/
theorem execute_prints_two_lines {o : Options} (hf : o.format = .sql) (file : PolicyFile)
    (environment : Limits) :
    ((∃ e, (execute o file environment).1 = .error e) ↔ isIdentifier o.table = false) ∧
      (isIdentifier o.table = false →
        (execute o file environment).1 = .error (.invalidTable o.table)) ∧
      (isIdentifier o.table = true → ∃ q s j, Select.start o.dialect o.table = .ok q ∧
        s = (q.withCriteria (readQuery o (sieveOf o file environment)).criteria).statement ∧
        j = (Param.listToJson s.params).compact ∧
        (execute o file environment).1 = .ok (s.sql ++ "\n-- params: " ++ j) ∧
        Text.splitOn '\n' (s.sql ++ "\n-- params: " ++ j) = [s.sql, "-- params: " ++ j] ∧
        (∀ c ∈ s.sql.toList, isStatementChar c = true) ∧
        '\n' ∉ j.toList ∧ '\r' ∉ j.toList ∧
        (∀ v : Value, v.Written j ↔ v = Param.listToJson s.params) ∧
        (Value.read? j).bind Param.listOfJson? = some s.params) := by
  have hinvalid (ht : isIdentifier o.table = false) :
      (execute o file environment).1 = .error (.invalidTable o.table) :=
    congrArg Prod.fst (render_of_invalid hf ht _)
  have hvalid (ht : isIdentifier o.table = true) :
      (execute o file environment).1 = .ok (statementText
        (({ dialect := o.dialect, table := ⟨o.table, ht⟩ } : Select).withCriteria
          (readQuery o (sieveOf o file environment)).criteria).statement) :=
    render_of_valid hf ht _
  refine ⟨⟨fun ⟨e, he⟩ => ?_, fun ht => ⟨_, hinvalid ht⟩⟩, hinvalid, fun ht => ?_⟩
  · by_contra ht
    rw [hvalid (Bool.eq_true_of_not_eq_false ht)] at he
    cases he
  · exact ⟨_, _, _, Select.start_of_valid o.dialect ht, rfl, rfl, hvalid ht,
      splitOn_statementText _, Select.isStatementChar_of_mem_sql _, notMem_compact _ (by decide),
      notMem_compact _ (by decide),
      (Value.written_compact (Param.integral_listToJson _)).iff_eq, Param.read_compact _⟩

/-- A run whose query tries to leave the comment and to close a string. -/
def breakingOptions : Options where
  query := "name=a\n; DROP TABLE staff\r&status~x,\"y\\"
  all := true
  format := .sql
  dialect := .sqlite
  table := "staff"

theorem breakingOptions_prints_two_lines :
    breakingOptions.format = .sql ∧ isIdentifier breakingOptions.table = true ∧
      ∃ j, (execute breakingOptions {} .builtIn).1 =
          .ok ("SELECT * FROM staff WHERE name = ?1 AND status IN (?2, ?3)" ++
            "\n-- params: " ++ j) ∧
        '\n' ∉ j.toList ∧ '\r' ∉ j.toList ∧
        (Value.read? j).bind Param.listOfJson? =
          some [.text "a\n; DROP TABLE staff\r", .text "x", .text "\"y\\"] ∧
        (execute { breakingOptions with table := "staff;" } {} .builtIn).1 =
          .error (.invalidTable "staff;") := by
  have hf : breakingOptions.format = .sql := rfl
  have ht : isIdentifier breakingOptions.table = true := by decide
  obtain ⟨-, -, hv⟩ := execute_prints_two_lines hf {} .builtIn
  obtain ⟨q, s, j, hq, hs, -, he, -, -, hn, hr, -, hp⟩ := hv ht
  have hstatement : s = ⟨"SELECT * FROM staff WHERE name = ?1 AND status IN (?2, ?3)",
      [.text "a\n; DROP TABLE staff\r", .text "x", .text "\"y\\"]⟩ := by
    cases hq
    rw [hs]
    decide +kernel
  subst hstatement
  have hf' : ({ breakingOptions with table := "staff;" } : Options).format = .sql := rfl
  obtain ⟨-, hi, -⟩ := execute_prints_two_lines hf' {} .builtIn
  exact ⟨hf, ht, j, he, hn, hr, hp, hi (by decide)⟩

/-! ## Criteria -/

/-- **A run that prints criteria** does so whatever they are, and what it prints, with or without a
line break after it, is JSON for these criteria and no others. -/
theorem render_reads_back {o : Options} (hf : o.format = .json) (cs : List Criterion) :
    ∃ text, render o cs = (.ok text, []) ∧
      (∀ tail : String, IsBlank tail.toList →
        (∀ v : Value, v.Written (text ++ tail) ↔ v = Criterion.listToJson cs) ∧
        (Value.read? (text ++ tail)).bind Criterion.listOfJson? = some cs) ∧
      ∀ ds, (render o ds).1 = (render o cs).1 → ds = cs := by
  refine ⟨_, render_of_json hf cs, fun tail ht =>
    ⟨(Value.written_pretty (Criterion.integral_listToJson cs) ht).iff_eq,
      Criterion.read_pretty cs ht⟩, fun ds he => ?_⟩
  rw [render_of_json hf, render_of_json hf] at he
  have blank : IsBlank "".toList := isBlank_nil
  have hread : some ds = some cs := by
    rw [← Criterion.read_pretty ds blank, Except.ok.inj he, Criterion.read_pretty cs blank]
  exact Option.some.inj hread

/-- Criteria of every kind, with texts that hold quotes, control characters and line breaks. -/
def everyKind : List Criterion :=
  [.comparison "a\"b" .ne "\x00\n", .nullTest "" true, .patternMatch "é\\" "%\u2028\x7f",
    .inclusionTest "c" true [], .inclusionTest "c" false ["", "\",\""],
    .sortDirective "kind" .desc]

theorem everyKind_reads_back :
    ({ query := "" } : Options).format = .json ∧ IsBlank "\n".toList ∧
      ∃ text, render { query := "" } everyKind = (.ok text, []) ∧
        (Value.read? (text ++ "\n")).bind Criterion.listOfJson? = some everyKind ∧
        (render { query := "" } []).1 ≠ (render { query := "" } everyKind).1 := by
  have hf : ({ query := "" } : Options).format = .json := rfl
  have hb : IsBlank "\n".toList := List.all_eq_true.mp rfl
  obtain ⟨text, ht, hr, hi⟩ := render_reads_back hf everyKind
  exact ⟨hf, hb, text, ht, (hr "\n" hb).2, fun he => List.cons_ne_nil _ _ (hi [] he).symm⟩

end CommandLine

end QuerySieve
