import QuerySieve.Proofs.Asking
import QuerySieve.Proofs.Grammar
import QuerySieve.Proofs.Spelling

/-!
# Fragments in any spelling

With names in snake case, the spelling of a key makes no difference, and neither does that of the
field to sort by as long as the value asks for a sort. The one spelling that does not is `null`: as a
whole value it asks for a null test.

* `Spelling.notMem_text`: a spelling has no sign that a fragment is cut at.
* `Sieve.readFragment_of_pieces`: fragments with keys of one name and all else alike.
* `Criterion.ofSortValue_congr`: sort values with targets of one name and all else alike.
* `Sieve.readFragment_of_parts`: fragments that are equal up to their value.
* **`Sieve.readFragment_of_spelling`**: fragments with keys or targets of the same words.
-/

namespace QuerySieve

open FieldName Text

/-! ## The characters of spellings -/

/-- The signs that a fragment or a value is cut at, and the wildcard. -/
def cutSigns : List Char :=
  ',' :: '*' :: operatorChars

theorem isOperatorChar_eq_false_iff {c : Char} : isOperatorChar c = false ↔ c ∉ operatorChars := by
  simp [isOperatorChar]

namespace FieldName

theorem Joint.isSeparator_of_mem {j : Joint} {a b : Written} (h : j.Fits a b) {c : Char}
    (hc : c ∈ j.chars) : c = '_' ∨ c = '-' ∨ isBlank c = true := by
  cases j with
  | underscore => exact .inl (List.mem_singleton.mp hc)
  | gap run => exact .inr (h.isGap_of_mem c hc)
  | direct => cases hc

theorem mem_continuation {a : Written} {more : List (Joint × Written)} (h : Joined a more) {c : Char}
    (hc : c ∈ continuation more) :
    c.isAlphanum = true ∨ c = '_' ∨ c = '-' ∨ isBlank c = true := by
  induction more generalizing a with
  | nil => cases hc
  | cons p more ih =>
    obtain ⟨hfits, hjoined⟩ := h
    rw [continuation, List.flatMap_cons, List.mem_append, List.mem_append] at hc
    rcases hc with (hc | hc) | hc
    · exact .inr (Joint.isSeparator_of_mem hfits hc)
    · exact .inl (Written.isAlphanum_of_mem hc)
    · exact ih hjoined hc

namespace Spelling

variable (x : Spelling)

theorem mem_text {c : Char} (hc : c ∈ x.text.toList) :
    c.isAlphanum = true ∨ c = '_' ∨ c = '-' ∨ isBlank c = true := by
  have hblank : c ∈ x.before ++ x.after → isBlank c = true := List.all_eq_true.mp x.blank c
  rw [text, String.toList_ofList, core, List.mem_append, List.mem_append, List.mem_append] at hc
  rcases hc with (hc | hc | hc) | hc
  · exact .inr (.inr (.inr (hblank (List.mem_append_left _ hc))))
  · exact .inl (Written.isAlphanum_of_mem hc)
  · exact mem_continuation x.joined hc
  · exact .inr (.inr (.inr (hblank (List.mem_append_right _ hc))))

theorem notMem_text {c : Char} (h : c ∈ cutSigns) : c ∉ x.text.toList := by
  have hsigns : cutSigns.all
      (fun d => !(d.isAlphanum || d == '_' || d == '-' || isBlank d)) = true := by
    decide
  have hsign : (c.isAlphanum || c == '_' || c == '-' || isBlank c) = false := by
    simpa using List.all_eq_true.mp hsigns c h
  simp only [Bool.or_eq_false_iff, beq_eq_false_iff_ne] at hsign
  obtain ⟨⟨⟨ha, hu⟩, hd⟩, hb⟩ := hsign
  intro hc
  rcases x.mem_text hc with h | h | h | h
  · rw [ha] at h
    cases h
  · exact hu h
  · exact hd h
  · rw [hb] at h
    cases h

theorem isOperatorChar_text : ∀ c ∈ x.text.toList, isOperatorChar c = false := by
  intro c hc
  rw [isOperatorChar_eq_false_iff]
  intro hm
  exact x.notMem_text (List.mem_cons_of_mem _ (List.mem_cons_of_mem _ hm)) hc

theorem text_ne_nil : x.text.toList ≠ [] := by
  simp [text, x.core_ne_nil]

end Spelling

/-! ## Operator characters in names -/

theorem mem_snakeFrom_of_mem {c : Char} (hd : c ≠ '-') (hb : isBlank c = false)
    (hu : isUpper c = false) {cs : List Char} (hc : c ∈ cs) (before : Before) :
    c ∈ snakeFrom before cs := by
  induction cs generalizing before with
  | nil => cases hc
  | cons d cs ih =>
    rw [snakeFrom]
    rcases List.mem_cons.mp hc with rfl | hc
    · by_cases he : c = '_'
      · rw [if_pos he, he]
        exact List.mem_cons_self
      · have hs : ¬ (c = '-' ∨ isBlank c = true) := by simp [hd, hb]
        rw [if_neg he, if_neg hs, if_neg (by simp [hu])]
        exact List.mem_cons_self
    · split_ifs <;> simp [ih hc]

theorem isOperatorChar_of_snakeCase {key : String}
    (h : ∀ c ∈ (snakeCase key).toList, isOperatorChar c = false) :
    ∀ c ∈ key.toList, isOperatorChar c = false := by
  have hkept : operatorChars.all (fun c => c != '-' && !isBlank c && !isUpper c) = true := by
    decide +kernel
  intro c hc
  rw [isOperatorChar_eq_false_iff]
  intro hm
  obtain ⟨⟨hd, hb⟩, hu⟩ : (c ≠ '-' ∧ isBlank c = false) ∧ isUpper c = false := by
    simpa using List.all_eq_true.mp hkept c hm
  have hname : c ∈ (snakeCase key).toList := by
    rw [snakeCase, String.toList_ofList]
    exact mem_snakeFrom_of_mem hd hb hu (mem_trim hc hb) .separator
  exact isOperatorChar_eq_false_iff.mp (h c hname) hm

end FieldName

/-! ## Keys -/

namespace Sieve

variable {s : Sieve}

theorem readFragment_of_pieces {f f' : String} {k k' : List Char} {ps : List (List Char)}
    (hf : pieces f.toList = k :: ps) (hf' : pieces f'.toList = k' :: ps)
    (hk : s.normalize (String.ofList k) = s.normalize (String.ofList k')) :
    s.readFragment f = s.readFragment f' := by
  unfold readFragment tokenize
  rw [hf, hf']
  rcases ps with _ | ⟨o, _ | ⟨v, _ | ⟨w, ps⟩⟩⟩
  · rfl
  · rfl
  · simp only [Token.ofPieces?, hk]
  · simp only [Token.ofPieces?, hk]

theorem readFragment_of_key {x y : Spelling} (hs : s.normalize x.text = s.normalize y.text)
    {rest : String} (hr : AtOperator rest.toList) :
    s.readFragment (x.text ++ rest) = s.readFragment (y.text ++ rest) := by
  have hpieces (z : Spelling) :
      pieces (z.text ++ rest).toList = z.text.toList :: pieces rest.toList := by
    rw [String.toList_append]
    exact pieces_stretch z.text_ne_nil z.isOperatorChar_text hr
  exact readFragment_of_pieces (hpieces x) (hpieces y) (by simpa using hs)

end Sieve

/-! ## Targets of sorts -/

theorem Text.exists_splitOn_append {separator : Char} {tail : String}
    (ht : ∀ c ∈ tail.toList.head?, c = separator) :
    ∃ parts, ∀ x : String, separator ∉ x.toList →
      Text.splitOn separator (x ++ tail) = x :: parts := by
  have hsingle : ∀ cs : List Char, separator ∉ cs → cs.splitOn separator = [cs] := by
    intro cs hcs
    have h : ([separator].intercalate [cs]).splitOn separator = [cs] :=
      List.splitOn_intercalate separator (by simpa using hcs) (List.cons_ne_nil cs [])
    simpa using h
  cases htail : tail.toList with
  | nil =>
    refine ⟨[], fun x hx => ?_⟩
    rw [Text.splitOn, String.toList_append, htail, List.append_nil, hsingle _ hx]
    simp
  | cons c cs =>
    obtain rfl : c = separator := ht c (by simp [htail])
    refine ⟨(cs.splitOn c).map String.ofList, fun x hx => ?_⟩
    rw [Text.splitOn, String.toList_append, htail, List.splitOn_append_cons_self, hsingle _ hx]
    simp

namespace Criterion

variable {g : Gate}

theorem ofSortValue_congr {v v' p p' : String} {parts : List String}
    (hv : Text.splitOn ',' v = p :: parts) (hv' : Text.splitOn ',' v' = p' :: parts)
    (hp : g.normalize p = g.normalize p') : ofSortValue g v = ofSortValue g v' := by
  unfold ofSortValue
  simp only [hv, hv', List.headD_cons, hp]
  rcases parts with _ | ⟨direction, _ | _⟩ <;> rfl

theorem ofToken_sort_congr {r : Relation} {v v' : String}
    (hv : v ≠ nullWord ∧ '*' ∉ v.toList) (hv' : v' ≠ nullWord ∧ '*' ∉ v'.toList)
    (h : ofSortValue g v = ofSortValue g v') :
    ofToken g ⟨sortKey, r.symbol, v⟩ = ofToken g ⟨sortKey, r.symbol, v'⟩ := by
  by_cases ha : g.authorizes sortKey = true
  · rw [ofToken_compare ha, ofToken_compare ha, ofComparison_sort hv.1 hv.2,
      ofComparison_sort hv'.1 hv'.2, h]
  · have ho := FragmentOperator.ofSymbol?_symbol (.compare r)
    rw [FragmentOperator.symbol] at ho
    simp [ofToken, ho, ha]

end Criterion

/-! ## Values -/

/-- A text without operator characters. -/
def IsStretch (text : String) : Prop :=
  text ≠ "" ∧ ∀ c ∈ text.toList, isOperatorChar c = false

theorem IsStretch.ne_nil {text : String} (h : IsStretch text) : text.toList ≠ [] := by
  simpa using h.1

theorem FragmentOperator.ofSymbol?_append_stretch (operator : String) {text : String}
    (h : IsStretch text) : ofSymbol? (operator ++ text) = none := by
  by_contra hne
  obtain ⟨o, ho⟩ := Option.ne_none_iff_exists'.mp hne
  obtain ⟨c, hc⟩ := List.exists_mem_of_ne_nil _ h.ne_nil
  have hm : c ∈ o.symbol.toList := by
    rw [← symbol_of_ofSymbol? ho, String.toList_append]
    exact List.mem_append_right _ hc
  have hop := (o.isOperatorChar_of_mem_symbol c hm).1
  rw [h.2 c hc] at hop
  cases hop

theorem pieces_of_parts {key value rest : String} {o : FragmentOperator} (hk : IsStretch key)
    (hv : IsStretch value) (hr : AtOperator rest.toList) :
    pieces (key ++ o.symbol ++ value ++ rest).toList =
      key.toList :: (o.symbol.toList.map (fun c => [c]) ++
        value.toList :: pieces rest.toList) := by
  have hop := o.isOperatorChar_of_mem_symbol
  rw [String.toList_append, String.toList_append, String.toList_append, List.append_assoc,
    List.append_assoc, pieces_stretch hk.ne_nil hk.2 (o.atOperator_symbol_append _),
    pieces_operators (fun c hc => (hop c hc).1), pieces_stretch hv.ne_nil hv.2 hr]

/-- The token of a fragment; what comes after its value is dropped, or turns the value into a part
of the operator. -/
theorem tokenize_of_parts {key rest : String} (o : FragmentOperator) (hk : IsStretch key)
    (hr : AtOperator rest.toList) :
    (∀ value, IsStretch value →
      tokenize (key ++ o.symbol ++ value ++ rest) = some ⟨key, o.symbol, value⟩) ∨
    ∃ lost, ∀ value, IsStretch value →
      tokenize (key ++ o.symbol ++ value ++ rest) = some ⟨key, o.symbol ++ value, lost⟩ := by
  rcases o.length_symbol with hl | hl
  · obtain ⟨a, hs⟩ := List.length_eq_one_iff.mp hl
    cases hrest : pieces rest.toList with
    | nil =>
      refine .inl fun value hv => ?_
      rw [tokenize, pieces_of_parts hk hv hr, Token.ofPieces?_eq_some_iff, hrest, hs]
      exact .inl rfl
    | cons p ps =>
      refine .inr ⟨String.ofList p, fun value hv => ?_⟩
      rw [tokenize, pieces_of_parts hk hv hr, Token.ofPieces?_eq_some_iff, hrest, hs]
      exact .inr ⟨[a], value.toList, ps, by simp, by simp [hs]⟩
  · obtain ⟨a, b, hs⟩ := List.length_eq_two.mp hl
    refine .inl fun value hv => ?_
    rw [tokenize, pieces_of_parts hk hv hr, Token.ofPieces?_eq_some_iff, hs]
    exact .inr ⟨[a], [b], pieces rest.toList, by simp, by simp⟩

/-- What may follow the target of a sort in its value: a separator and more, without a wildcard. -/
def EndsTarget (tail : String) : Prop :=
  (∀ c ∈ tail.toList.head?, c = ',') ∧ ∀ c ∈ tail.toList, isOperatorChar c = false ∧ c ≠ '*'

instance (tail : String) : Decidable (EndsTarget tail) :=
  decidable_of_iff
    (tail.toList.head?.all (· = ',') = true ∧
      tail.toList.all (fun c => !isOperatorChar c && c != '*') = true)
    (by
      unfold EndsTarget
      cases tail.toList <;> simp)

namespace FieldName.Spelling

theorem isStretch_append (x : Spelling) {tail : String} (ht : EndsTarget tail) :
    IsStretch (x.text ++ tail) := by
  refine ⟨fun he => ?_, fun c hc => ?_⟩
  · have hl := congrArg String.toList he
    rw [String.toList_append] at hl
    exact x.text_ne_nil (List.append_eq_nil_iff.mp hl).1
  · rw [String.toList_append, List.mem_append] at hc
    rcases hc with hc | hc
    · exact x.isOperatorChar_text c hc
    · exact (ht.2 c hc).1

theorem star_notMem_append (x : Spelling) {tail : String} (ht : EndsTarget tail) :
    '*' ∉ (x.text ++ tail).toList := by
  rw [String.toList_append, List.mem_append]
  rintro (hc | hc)
  · exact x.notMem_text (by decide) hc
  · exact (ht.2 '*' hc).2 rfl

end FieldName.Spelling

/-! ## Fragments -/

namespace Sieve

variable {s : Sieve}

/-- **Fragments that are equal up to their values** are read as their tokens are. -/
theorem readFragment_of_parts {key v v' rest : String} {o : FragmentOperator} (hk : IsStretch key)
    (hv : IsStretch v) (hv' : IsStretch v') (hr : AtOperator rest.toList)
    (h : Criterion.ofToken s.gate ⟨s.normalize key, o.symbol, v⟩ =
      Criterion.ofToken s.gate ⟨s.normalize key, o.symbol, v'⟩) :
    s.readFragment (key ++ o.symbol ++ v ++ rest) =
      s.readFragment (key ++ o.symbol ++ v' ++ rest) := by
  unfold readFragment
  rcases tokenize_of_parts o hk hr with htoken | ⟨lost, htoken⟩
  · rw [htoken v hv, htoken v' hv']
    exact h
  · rw [htoken v hv, htoken v' hv']
    simp only [Criterion.ofToken, FragmentOperator.ofSymbol?_append_stretch _ hv,
      FragmentOperator.ofSymbol?_append_stretch _ hv']

theorem isStretch_of_sortKey {key : String} (hk : snakeCase key = sortKey) : IsStretch key := by
  constructor
  · rintro rfl
    revert hk
    decide
  · have hname : sortKey.toList.all (fun c => !isOperatorChar c) = true := by decide
    apply isOperatorChar_of_snakeCase
    rw [hk]
    simpa using List.all_eq_true.mp hname

theorem readFragment_of_target (hs : s.normalize = snakeCase) {x y : Spelling}
    (hxy : snakeCase x.text = snakeCase y.text) {key tail rest : String} {r : Relation}
    (hk : snakeCase key = sortKey) (ht : EndsTarget tail) (hr : AtOperator rest.toList)
    (hx : x.text ++ tail ≠ nullWord) (hy : y.text ++ tail ≠ nullWord) :
    s.readFragment (key ++ r.symbol ++ (x.text ++ tail) ++ rest) =
      s.readFragment (key ++ r.symbol ++ (y.text ++ tail) ++ rest) := by
  obtain ⟨parts, hparts⟩ := Text.exists_splitOn_append ht.1
  have hsort : Criterion.ofSortValue s.gate (x.text ++ tail) =
      Criterion.ofSortValue s.gate (y.text ++ tail) := by
    refine Criterion.ofSortValue_congr (hparts x.text (x.notMem_text (by decide)))
      (hparts y.text (y.notMem_text (by decide))) ?_
    show s.normalize x.text = s.normalize y.text
    rw [hs, hxy]
  have htoken := Criterion.ofToken_sort_congr (r := r) ⟨hx, x.star_notMem_append ht⟩
    ⟨hy, y.star_notMem_append ht⟩ hsort
  rw [← hk, ← hs] at htoken
  exact readFragment_of_parts (o := .compare r) (isStretch_of_sortKey hk) (x.isStretch_append ht)
    (y.isStretch_append ht) hr htoken

/-- **Fragments in any spelling.** Fragments that differ in the spelling of their key give the same
criterion, or are refused for the same reason. So do those that differ in the spelling of the field
to sort by, unless the whole value of one is `null`. -/
theorem readFragment_of_spelling (s : Sieve) (hs : s.normalize = snakeCase) (x y : Spelling)
    (hw : x.words = y.words) :
    snakeCase x.text = Word.name x.words ∧
      (∀ rest : String, AtOperator rest.toList →
        s.readFragment (x.text ++ rest) = s.readFragment (y.text ++ rest)) ∧
      ∀ (key : String) (r : Relation) (tail rest : String), s.normalize key = "order_by" →
        EndsTarget tail → AtOperator rest.toList → x.text ++ tail ≠ "null" →
        y.text ++ tail ≠ "null" →
        s.readFragment (key ++ r.symbol ++ (x.text ++ tail) ++ rest) =
          s.readFragment (key ++ r.symbol ++ (y.text ++ tail) ++ rest) := by
  have hxy : snakeCase x.text = snakeCase y.text := by
    rw [x.snakeCase_text, y.snakeCase_text, hw]
  refine ⟨x.snakeCase_text, fun rest hr => ?_, ?_⟩
  · exact readFragment_of_key (by rw [hs, hxy]) hr
  · intro key r tail rest hk ht hr hx hy
    rw [hs] at hk
    exact readFragment_of_target hs hxy hk ht hr hx hy

/-- A sieve for names in snake case, all of which may be used. -/
def snakeSieve : Sieve where
  policy := .unrestricted

/-- The words of `created_at`. -/
def createdWord : Word :=
  ⟨'c', 'r', ['e', 'a', 't', 'e', 'd'], by decide, by decide⟩

/-- The second of them. -/
def atWord : Word :=
  ⟨'a', 't', [], by decide, by decide⟩

/-- `createdAt`. -/
def camelSpelling : Spelling where
  first := ⟨createdWord, .small, by decide⟩
  more := [(.direct, ⟨atWord, .initial, by decide⟩)]

/-- `CREATED- At`, with a wide blank after it. -/
def loudSpelling : Spelling where
  first := ⟨createdWord, .capitals, by decide⟩
  more := [(.gap ['-', ' '], ⟨atWord, .initial, by decide⟩)]
  after := ['\u3000']

/-- One name in two spellings, as a key and as the field to sort by. -/
theorem readFragment_of_spelling_createdAt :
    camelSpelling.words = loudSpelling.words ∧
      snakeCase camelSpelling.text = Word.name [createdWord, atWord] ∧
      snakeSieve.readFragment (camelSpelling.text ++ ">=3") =
        snakeSieve.readFragment (loudSpelling.text ++ ">=3") ∧
      snakeSieve.readFragment ("orderBy" ++ "!=" ++ (camelSpelling.text ++ ",DESC") ++ "=x") =
        snakeSieve.readFragment ("orderBy" ++ "!=" ++ (loudSpelling.text ++ ",DESC") ++ "=x") := by
  have hw : camelSpelling.words = loudSpelling.words := rfl
  obtain ⟨hname, hkey, htarget⟩ :=
    readFragment_of_spelling snakeSieve rfl camelSpelling loudSpelling hw
  refine ⟨hw, hname, hkey ">=3" (by decide), ?_⟩
  exact htarget "orderBy" .ne ",DESC" "=x" (by decide +kernel) (by decide) (by decide) (by decide)
    (by decide)

/-- The word that a value asks for a null test with. -/
def nullSpelling (style : Style) : Spelling where
  first := ⟨⟨'n', 'u', ['l', 'l'], by decide, by decide⟩, style, by cases style <;> decide⟩
  more := []
  joined := trivial

/-- Two spellings of one field to sort by, of which one is no field to sort by. -/
theorem readFragment_null_spelled_apart :
    (nullSpelling .initial).words = (nullSpelling .small).words ∧
      (nullSpelling .initial).text = "Null" ∧ (nullSpelling .small).text = "null" ∧
      snakeSieve.normalize = snakeCase ∧
      snakeSieve.readFragment ("order_by=" ++ (nullSpelling .initial).text) =
        .ok (.sortDirective "null" .asc) ∧
      snakeSieve.readFragment ("order_by=" ++ (nullSpelling .small).text) =
        .ok (.nullTest "order_by" true) :=
  ⟨rfl, by decide, by decide, rfl, by decide +kernel, by decide +kernel⟩

end Sieve

end QuerySieve
