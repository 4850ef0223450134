import QuerySieve.Proofs.Records
import QuerySieve.Proofs.Token

/-!
# The grammar of fragments

Fragments are read by counting: three pieces have the operator in the middle, more have an operator
of two pieces and lose what comes after the value. What this amounts to is a grammar. The pieces of a
text are the one way to cut it into blocks with no two stretches side by side, so that a fragment of
the grammar has the pieces that the count needs.

* `IsBlock`, `IsCut`: the blocks of a text, and the ways to cut it.
* `pieces_eq_iff`: the pieces of a text are its only cut.
* `ReadsAs`: the fragments that the grammar gives to a token.
* `tokenize_short_iff`, `tokenize_long_iff`: tokens with an operator of one character, or of two.
* **`tokenize_iff_readsAs`**: fragments with one of the eight operators.
-/

namespace QuerySieve

/-! ## Cuts of a text -/

/-- One operator character, or a stretch without any. -/
def IsBlock (cs : List Char) : Prop :=
  (∃ c, isOperatorChar c = true ∧ cs = [c]) ∨ (cs ≠ [] ∧ ∀ c ∈ cs, isOperatorChar c = false)

/-- Blocks, of which a stretch is followed by an operator character, if by anything. -/
def IsCut : List (List Char) → Prop
  | [] => True
  | p :: ps =>
    IsBlock p ∧ ((∀ c ∈ p, isOperatorChar c = false) → AtOperator ps.flatten) ∧ IsCut ps

theorem IsBlock.ne_nil {cs : List Char} (h : IsBlock cs) : cs ≠ [] := by
  rcases h with ⟨c, -, rfl⟩ | ⟨hne, -⟩
  · exact List.cons_ne_nil c []
  · exact hne

theorem isBlock_operator {c : Char} (h : isOperatorChar c = true) : IsBlock [c] :=
  .inl ⟨c, h, rfl⟩

theorem isBlock_cons_operator {c : Char} {cs : List Char} (hc : isOperatorChar c = true)
    (h : IsBlock (c :: cs)) : cs = [] := by
  rcases h with ⟨d, -, hd⟩ | ⟨-, hn⟩
  · exact (List.cons.inj hd).2
  · have := hn c List.mem_cons_self
    rw [hc] at this
    cases this

theorem IsBlock.stretch {cs : List Char} (h : IsBlock cs) (hp : isOperatorPiece cs = false) :
    ∀ c ∈ cs, isOperatorChar c = false := by
  rcases h with ⟨c, hc, rfl⟩ | ⟨-, hn⟩
  · simp [isOperatorPiece, hc] at hp
  · exact hn

theorem isCut_operator {c : Char} (hc : isOperatorChar c = true) (ps : List (List Char)) :
    IsCut ([c] :: ps) ↔ IsCut ps := by
  have hstretch : (∀ d ∈ [c], isOperatorChar d = false) → AtOperator ps.flatten := by
    intro h
    have := h c List.mem_cons_self
    rw [hc] at this
    cases this
  exact ⟨fun h => h.2.2, fun h => ⟨isBlock_operator hc, hstretch, h⟩⟩

theorem isCut_consPiece {c : Char} (hc : isOperatorChar c = false) {ps : List (List Char)}
    (h : IsCut ps) : IsCut (consPiece c ps) := by
  have hblock : IsBlock [c] := .inr ⟨List.cons_ne_nil c [], by simpa using hc⟩
  cases ps with
  | nil => exact ⟨hblock, fun _ => atOperator_nil, trivial⟩
  | cons p ps =>
    obtain ⟨hp, hnext, hps⟩ := h
    by_cases ho : isOperatorPiece p = true
    · have hat : AtOperator (p :: ps).flatten := by
        cases p with
        | nil => exact absurd rfl hp.ne_nil
        | cons d p => exact atOperator_cons (by simpa [isOperatorPiece] using ho) _
      rw [consPiece, if_pos ho]
      exact ⟨hblock, fun _ => hat, hp, hnext, hps⟩
    · have hstretch := hp.stretch (by simpa using ho)
      have hc' : ∀ d ∈ c :: p, isOperatorChar d = false := by
        intro d hd
        rcases List.mem_cons.mp hd with rfl | hd
        · exact hc
        · exact hstretch d hd
      rw [consPiece, if_neg ho]
      exact ⟨.inr ⟨List.cons_ne_nil c p, hc'⟩, fun _ => hnext hstretch, hps⟩

theorem isCut_pieces (cs : List Char) : IsCut (pieces cs) := by
  induction cs with
  | nil => trivial
  | cons c cs ih =>
    rw [pieces]
    by_cases hc : isOperatorChar c = true
    · rw [if_pos hc, isCut_operator hc]
      exact ih
    · rw [if_neg hc]
      exact isCut_consPiece (by simpa using hc) ih

theorem pieces_flatten {ps : List (List Char)} (h : IsCut ps) : pieces ps.flatten = ps := by
  induction ps with
  | nil => rfl
  | cons p ps ih =>
    obtain ⟨hp, hnext, hps⟩ := h
    rw [List.flatten_cons]
    rcases hp with ⟨c, hc, rfl⟩ | ⟨hne, hstretch⟩
    · rw [List.singleton_append, pieces, if_pos hc, ih hps]
    · rw [pieces_stretch hne hstretch (hnext hstretch), ih hps]

/-- **The pieces of a text are its only cut.** -/
theorem pieces_eq_iff {cs : List Char} {ps : List (List Char)} :
    pieces cs = ps ↔ ps.flatten = cs ∧ IsCut ps := by
  constructor
  · rintro rfl
    exact ⟨flatten_pieces cs, isCut_pieces cs⟩
  · rintro ⟨rfl, h⟩
    exact pieces_flatten h

/-! ## Tokens by their operator -/

theorem Token.ofPieces?_eq_some_iff {ps : List (List Char)} {t : Token} :
    Token.ofPieces? ps = some t ↔
      ps = [t.key.toList, t.operator.toList, t.value.toList] ∨
        ∃ o₁ o₂ rest, ps = t.key.toList :: o₁ :: o₂ :: t.value.toList :: rest ∧
          t.operator.toList = o₁ ++ o₂ := by
  constructor
  · intro h
    unfold ofPieces? at h
    split at h
    · cases h
      exact .inl (by simp)
    · next k o₁ o₂ v rest =>
      cases h
      exact .inr ⟨o₁, o₂, rest, by simp, by simp⟩
    · cases h
  · rintro (rfl | ⟨o₁, o₂, rest, rfl, ho⟩)
    · simp [ofPieces?]
    · rw [ofPieces?, ← ho]
      simp

theorem eq_singletons {a b : Char} {cs ds : List Char} (hc : cs ≠ []) (hd : ds ≠ [])
    (h : cs ++ ds = [a, b]) : cs = [a] ∧ ds = [b] := by
  rcases cs with _ | ⟨x, _ | ⟨y, cs⟩⟩
  · exact absurd rfl hc
  · simpa using h
  · simp only [List.cons_append, List.cons.injEq, List.append_eq_nil_iff] at h
    exact absurd h.2.2.2 hd

/-- What may follow a value: an operator character, if anything, where the value is a stretch. -/
def EndsValue (value rest : List Char) : Prop :=
  (∀ c ∈ value, isOperatorChar c = false) → AtOperator rest

theorem tokenize_short_iff {fragment : String} {t : Token} {o : Char}
    (ho : isOperatorChar o = true) (hop : t.operator.toList = [o]) :
    tokenize fragment = some t ↔
      IsBlock t.key.toList ∧ IsBlock t.value.toList ∧ fragment = t.text := by
  have hcut : IsCut [t.key.toList, [o], t.value.toList] ↔
      IsBlock t.key.toList ∧ IsBlock t.value.toList := by
    rw [IsCut, isCut_operator ho, IsCut]
    constructor
    · rintro ⟨hk, -, hv, -⟩
      exact ⟨hk, hv⟩
    · rintro ⟨hk, hv⟩
      exact ⟨hk, fun _ => atOperator_cons ho _, hv, fun _ => atOperator_nil, trivial⟩
  have htext : [t.key.toList, [o], t.value.toList].flatten = t.text.toList := by
    simp [Token.text, hop]
  rw [tokenize, Token.ofPieces?_eq_some_iff]
  constructor
  · rintro (h | ⟨o₁, o₂, rest, h, hsplit⟩)
    · rw [hop, pieces_eq_iff, htext, hcut] at h
      exact ⟨h.2.1, h.2.2, String.toList_inj.mp h.1.symm⟩
    · -- Two pieces have two characters at least.
      obtain ⟨-, -, h₁, -, h₂, -⟩ := (pieces_eq_iff.mp h).2
      have hl := congrArg List.length (hop.symm.trans hsplit)
      have hl₁ := List.length_pos_of_ne_nil h₁.ne_nil
      have hl₂ := List.length_pos_of_ne_nil h₂.ne_nil
      rw [List.length_append, List.length_singleton] at hl
      omega
  · rintro ⟨hk, hv, rfl⟩
    rw [hop]
    exact .inl (pieces_eq_iff.mpr ⟨htext, hcut.mpr ⟨hk, hv⟩⟩)

theorem tokenize_long_iff {fragment : String} {t : Token} {a b : Char}
    (ha : isOperatorChar a = true) (hb : isOperatorChar b = true)
    (hop : t.operator.toList = [a, b]) :
    tokenize fragment = some t ↔
      IsBlock t.key.toList ∧ IsBlock t.value.toList ∧
        ∃ rest : String, fragment = t.text ++ rest ∧ EndsValue t.value.toList rest.toList := by
  have hcut (ps : List (List Char)) : IsCut (t.key.toList :: [a] :: [b] :: t.value.toList :: ps) ↔
      IsBlock t.key.toList ∧ IsBlock t.value.toList ∧
        EndsValue t.value.toList ps.flatten ∧ IsCut ps := by
    rw [IsCut, isCut_operator ha, isCut_operator hb, IsCut]
    constructor
    · rintro ⟨hk, -, hv⟩
      exact ⟨hk, hv⟩
    · rintro ⟨hk, hv⟩
      exact ⟨hk, fun _ => atOperator_cons ha _, hv⟩
  have htext (ps : List (List Char)) :
      (t.key.toList :: [a] :: [b] :: t.value.toList :: ps).flatten =
        t.text.toList ++ ps.flatten := by
    simp [Token.text, hop]
  rw [tokenize, Token.ofPieces?_eq_some_iff]
  constructor
  · rintro (h | ⟨o₁, o₂, rest, h, hsplit⟩)
    · -- Two operator characters are no block.
      obtain ⟨-, -, ho, -⟩ := (pieces_eq_iff.mp h).2
      rw [hop] at ho
      cases isBlock_cons_operator ha ho
    · obtain ⟨-, -, h₁, -, h₂, -⟩ := (pieces_eq_iff.mp h).2
      obtain ⟨rfl, rfl⟩ := eq_singletons h₁.ne_nil h₂.ne_nil (hsplit.symm.trans hop)
      obtain ⟨hflat, hcuts⟩ := pieces_eq_iff.mp h
      obtain ⟨hk, hv, hend, -⟩ := (hcut rest).mp hcuts
      rw [htext] at hflat
      refine ⟨hk, hv, String.ofList rest.flatten, ?_, by rwa [String.toList_ofList]⟩
      apply String.toList_inj.mp
      rw [String.toList_append, String.toList_ofList, hflat]
  · rintro ⟨hk, hv, rest, rfl, hend⟩
    refine .inr ⟨[a], [b], pieces rest.toList, pieces_eq_iff.mpr ⟨?_, ?_⟩, hop⟩
    · rw [htext, flatten_pieces, String.toList_append]
    · rw [hcut, flatten_pieces]
      exact ⟨hk, hv, hend, isCut_pieces _⟩

/-! ## Supported operators -/

/-- The operators of one character. -/
def shortSymbols : List String := ["=", "<", ">", "~"]

/-- The operators of two characters. -/
def longSymbols : List String := ["!=", "<=", ">=", "!~"]

theorem exists_of_mem_shortSymbols {x : String} (h : x ∈ shortSymbols) :
    ∃ c, isOperatorChar c = true ∧ x.toList = [c] := by
  have hs : ∀ y ∈ shortSymbols, y.toList.length = 1 ∧ y.toList.all isOperatorChar = true := by
    decide
  obtain ⟨hl, hc⟩ := hs x h
  rw [List.all_eq_true] at hc
  obtain ⟨c, hx⟩ := List.length_eq_one_iff.mp hl
  exact ⟨c, hc c (by simp [hx]), hx⟩

theorem exists_of_mem_longSymbols {x : String} (h : x ∈ longSymbols) :
    ∃ a b, isOperatorChar a = true ∧ isOperatorChar b = true ∧ x.toList = [a, b] := by
  have hs : ∀ y ∈ longSymbols, y.toList.length = 2 ∧ y.toList.all isOperatorChar = true := by
    decide
  obtain ⟨hl, hc⟩ := hs x h
  rw [List.all_eq_true] at hc
  obtain ⟨a, b, hx⟩ := List.length_eq_two.mp hl
  exact ⟨a, b, hc a (by simp [hx]), hc b (by simp [hx]), hx⟩

/-- Whether a token has one of the operators of fragments. -/
def Token.isSupported (t : Token) : Bool :=
  (FragmentOperator.ofSymbol? t.operator).isSome

theorem Token.isSupported_iff (t : Token) :
    t.isSupported = true ↔ t.operator ∈ shortSymbols ∨ t.operator ∈ longSymbols := by
  have hmem : t.operator ∈ operatorSymbols ↔
      t.operator ∈ shortSymbols ∨ t.operator ∈ longSymbols := by
    simp only [operatorSymbols, shortSymbols, longSymbols, List.mem_cons, List.not_mem_nil,
      or_false]
    tauto
  rw [isSupported, Option.isSome_iff_ne_none, ne_eq, FragmentOperator.ofSymbol?_eq_none_iff,
    not_not, hmem]

/-- The fragments that are read as a token: key and value are blocks, the operator stands between
them, and an operator of two characters may be followed by more than the value. -/
def ReadsAs (fragment : String) (t : Token) : Prop :=
  IsBlock t.key.toList ∧ IsBlock t.value.toList ∧
    (t.operator ∈ shortSymbols ∧ fragment = t.text ∨
      t.operator ∈ longSymbols ∧
        ∃ rest : String, fragment = t.text ++ rest ∧ EndsValue t.value.toList rest.toList)

theorem tokenize_and_isSupported_iff (fragment : String) (t : Token) :
    tokenize fragment = some t ∧ t.isSupported = true ↔ ReadsAs fragment t := by
  have hdisjoint : ∀ x ∈ shortSymbols, x ∉ longSymbols := by decide
  rw [t.isSupported_iff, ReadsAs]
  by_cases hs : t.operator ∈ shortSymbols
  · obtain ⟨o, ho, hop⟩ := exists_of_mem_shortSymbols hs
    rw [tokenize_short_iff ho hop]
    simp [hs, hdisjoint _ hs]
  by_cases hl : t.operator ∈ longSymbols
  · obtain ⟨a, b, ha, hb, hop⟩ := exists_of_mem_longSymbols hl
    rw [tokenize_long_iff ha hb hop]
    simp [hs, hl]
  · simp [hs, hl]

theorem ReadsAs.exists_rest {fragment : String} {t : Token} (h : ReadsAs fragment t) :
    ∃ rest, fragment = t.text ++ rest ∧ (rest = "" ∨ t.operator ∈ longSymbols) := by
  obtain ⟨-, -, ⟨-, hf⟩ | ⟨hl, rest, hf, -⟩⟩ := h
  · exact ⟨"", by rw [hf, String.append_empty], .inl rfl⟩
  · exact ⟨rest, hf, .inr hl⟩

theorem ReadsAs.key_eq {fragment : String} {t : Token} (h : ReadsAs fragment t) {c : Char}
    (hf : fragment.toList.head? = some c) (hc : isOperatorChar c = true) :
    t.key.toList = [c] := by
  obtain ⟨rest, rfl, -⟩ := h.exists_rest
  have hk := h.1
  cases hkey : t.key.toList with
  | nil => exact absurd hkey hk.ne_nil
  | cons d cs =>
    obtain rfl : d = c := by simpa [Token.text, hkey] using hf
    rw [hkey] at hk
    rw [isBlock_cons_operator hc hk]

/-- **The grammar of fragments.** A fragment gives a token with one of the eight operators if and
only if the grammar has it for that token, and there is one such token at most. Only an operator of
two characters lets the end of a fragment be dropped. -/
theorem tokenize_iff_readsAs (fragment : String) :
    (∀ t, tokenize fragment = some t ∧ t.isSupported = true ↔ ReadsAs fragment t) ∧
      (∀ t t', ReadsAs fragment t → ReadsAs fragment t' → t = t') ∧
      (∀ t, ReadsAs fragment t → ∃ rest, fragment = t.text ++ rest ∧
        (rest ≠ "" → t.operator ∈ longSymbols)) ∧
      (∀ t c, ReadsAs fragment t → fragment.toList.head? = some c → isOperatorChar c = true →
        t.key = String.singleton c) := by
  have hiff := tokenize_and_isSupported_iff fragment
  refine ⟨hiff, fun t t' h h' => ?_, fun t h => ?_, fun t c h hf hc => ?_⟩
  · have ht := ((hiff t).mpr h).1
    have ht' := ((hiff t').mpr h').1
    exact Option.some.inj (ht.symm.trans ht')
  · obtain ⟨rest, hf, hr⟩ := h.exists_rest
    exact ⟨rest, hf, fun hne => hr.resolve_left hne⟩
  · apply String.toList_inj.mp
    rw [h.key_eq hf hc, String.toList_singleton]

/-- A fragment that begins with an operator character and goes on after its value. -/
theorem tokenize_iff_readsAs_dropped :
    ReadsAs "=<=b=c" ⟨"=", "<=", "b"⟩ ∧
      (∀ t, ReadsAs "=<=b=c" t → t = ⟨"=", "<=", "b"⟩ ∧ t.key = String.singleton '=' ∧
        ∃ rest, "=<=b=c" = t.text ++ rest ∧ (rest ≠ "" → t.operator ∈ longSymbols)) := by
  obtain ⟨hiff, huniq, hrest, hkey⟩ := tokenize_iff_readsAs "=<=b=c"
  have h : ReadsAs "=<=b=c" ⟨"=", "<=", "b"⟩ := (hiff _).mp (by decide)
  exact ⟨h, fun t ht => ⟨huniq t _ ht h, hkey t '=' ht (by decide) (by decide), hrest t ht⟩⟩

end QuerySieve
