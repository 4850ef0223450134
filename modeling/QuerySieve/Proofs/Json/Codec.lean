import QuerySieve.Json.Codec
import QuerySieve.Proofs.Json.Writer

/-!
# Criteria and parameters in JSON

Every criterion and every parameter is read back from the value that stands for it, whatever its
texts, and so is a list of them. These values hold no number, so that both writers write them.

* `Criterion.ofJson?_toJson`, `Sql.Param.ofJson?_toJson`: one criterion, one parameter.
* **`Criterion.listOfJson?_listToJson`**, **`Sql.Param.listOfJson?_listToJson`**: lists.
* `Criterion.integral_listToJson`, `Sql.Param.integral_listToJson`: their values can be written.
-/

namespace QuerySieve

open Json

namespace Json

theorem mapM_map_eq_some {α : Type} {write : α → Value} {read : Value → Option α}
    (h : ∀ x, read (write x) = some x) (xs : List α) : (xs.map write).mapM read = some xs := by
  induction xs with
  | nil => rfl
  | cons x xs ih => simp [h, ih]

theorem Value.integral_arr_map {α : Type} {write : α → Value} (h : ∀ x, (write x).Integral)
    (xs : List α) : (Value.arr (xs.map write)).Integral := by
  refine .arr fun v hv => ?_
  obtain ⟨x, -, rfl⟩ := List.mem_map.mp hv
  exact h x

theorem Value.integral_obj {ms : List (String × Value)} (h : ms.Forall fun m => m.2.Integral) :
    (Value.obj ms).Integral :=
  .obj (List.forall_iff_forall_mem.mp h)

end Json

namespace Criterion

/-- **A criterion is read back.** -/
theorem ofJson?_toJson (c : Criterion) : ofJson? c.toJson = some c := by
  cases c with
  | comparison key r value =>
    have hp : partsOf? ["key", "op", "value"] (comparison key r value).toJson =
        some [some (.str key), some r.toJson, some (.str value)] := rfl
    have hk : kindOf? (comparison key r value).toJson =
        some ("comparison", (comparison key r value).toJson) := rfl
    simp [ofJson?, hk, ofKind?, hp, Value.asString?, Relation.toJson, innerName?, enumName?,
      Relation.ofSymbol?_symbol]
  | nullTest key isNull => rfl
  | patternMatch key pattern => rfl
  | inclusionTest key negated values =>
    have hp : partsOf? ["key", "negated", "values"] (inclusionTest key negated values).toJson =
        some [some (.str key), some (.bool negated), some (.strings values)] := rfl
    have hk : kindOf? (inclusionTest key negated values).toJson =
        some ("inclusion_test", (inclusionTest key negated values).toJson) := rfl
    simp [ofJson?, hk, ofKind?, hp, Value.asString?, Value.asBool?, Value.asStrings?_strings]
  | sortDirective key direction => cases direction <;> rfl

theorem listOfJson?_listToJson (cs : List Criterion) : listOfJson? (listToJson cs) = some cs :=
  mapM_map_eq_some ofJson?_toJson cs

theorem integral_toJson (c : Criterion) : c.toJson.Integral := by
  cases c with
  | comparison key r value => exact Value.integral_obj ⟨.str _, .str _, .str _, .str _⟩
  | nullTest key isNull => exact Value.integral_obj ⟨.str _, .str _, .bool _⟩
  | patternMatch key pattern => exact Value.integral_obj ⟨.str _, .str _, .str _⟩
  | inclusionTest key negated values =>
    exact Value.integral_obj ⟨.str _, .str _, .bool _, Value.integral_arr_map .str values⟩
  | sortDirective key direction => exact Value.integral_obj ⟨.str _, .str _, .str _⟩

theorem integral_listToJson (cs : List Criterion) : (listToJson cs).Integral :=
  Value.integral_arr_map integral_toJson cs

end Criterion

namespace Sql.Param

/-- **A parameter is read back.** -/
theorem ofJson?_toJson (p : Param) : ofJson? p.toJson = some p := by
  cases p with
  | text value => rfl
  | list values =>
    have hs : ofJson? (.strings values) = (Value.strings values).asStrings?.map .list := rfl
    rw [toJson, hs, Value.asStrings?_strings]
    rfl

theorem listOfJson?_listToJson (ps : List Param) : listOfJson? (listToJson ps) = some ps :=
  mapM_map_eq_some ofJson?_toJson ps

theorem integral_toJson (p : Param) : p.toJson.Integral := by
  cases p with
  | text value => exact .str value
  | list values => exact Value.integral_arr_map .str values

theorem integral_listToJson (ps : List Param) : (listToJson ps).Integral :=
  Value.integral_arr_map integral_toJson ps

end Sql.Param

end QuerySieve
