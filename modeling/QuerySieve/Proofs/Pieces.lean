import Mathlib.Data.List.Chain
import QuerySieve.Proofs.Grammar

/-!
# The pieces of a fragment

The pieces of a fragment are determined by what they are like, and those of a token can be cut off
with nothing after them. A fragment is stored as bytes, and a scan from left to right can find the
pieces by the offsets of the operator characters. A cut within a character would lose a piece. There
is none: the next piece always begins at the end of what was scanned, less a stretch.

* `Text.between?`, `Text.between?_eq`: the part of a text between two offsets.
* `Scan.step`, `scannedPieces`: the scan, with the offset where the next piece begins.
* **`Scan.foldl_step`**, `scannedPieces_eq`: the scan loses nothing.
* `isCut_iff`: the ways to cut a text, by neighbours.
* `Token.exists_cut`: the pieces that a token comes from.
* **`pieces_canonical`**: the pieces of a fragment, and its token.
-/

namespace QuerySieve

/-! ## Parts between offsets -/

namespace Text

/-- The part of a text between two offsets in bytes; none if one of them is within a character or
behind the text, or if they stand the wrong way round. -/
def between? (s : String) (start stop : Nat) : Option String :=
  (s.pos? ⟨start⟩).bind fun i => (s.pos? ⟨stop⟩).bind fun j => (s.slice? i j).map String.Slice.copy

theorem exists_pos? {s front back : String} (h : s = front ++ back) :
    ∃ p : s.Pos, s.pos? ⟨front.utf8ByteSize⟩ = some p ∧ p.Splits front back := by
  subst h
  have hv : String.Pos.Raw.IsValid (front ++ back) front.rawEndPos :=
    String.Pos.Raw.isValid_rawEndPos.append_right back
  have hs := String.Pos.Raw.isValidForSlice_eq_true_iff.mpr hv.toSlice
  refine ⟨(front ++ back).pos front.rawEndPos hv, ?_, String.Pos.splits_append_rawEndPos⟩
  show ((front ++ back).toSlice.pos? front.rawEndPos).map String.Pos.ofToSlice = _
  rw [String.Slice.pos?, dif_pos hs]
  rfl

theorem between?_eq {s front part back : String} (h : s = front ++ part ++ back) :
    between? s front.utf8ByteSize (front ++ part).utf8ByteSize = some part := by
  have hfront : s = front ++ (part ++ back) := by rw [h, String.append_assoc]
  obtain ⟨i, hi, hsi⟩ := exists_pos? hfront
  obtain ⟨j, hj, hsj⟩ := exists_pos? h
  obtain ⟨hle, hcopy⟩ := String.copy_slice_eq_iff_splits.mpr ⟨front, back, hsi, hsj⟩
  rw [between?, hi, hj, Option.bind_some, Option.bind_some, String.slice?, dif_pos hle,
    Option.map_some, hcopy]

-- The `à` has two bytes.
example : between? "città" 0 6 = some "città" ∧ between? "città" 0 5 = none := by
  decide +kernel

/-- The characters with their offsets, if the first of them stands at the given one. -/
def offsets : Nat → List Char → List (Nat × Char)
  | _, [] => []
  | i, c :: cs => (i, c) :: offsets (i + c.utf8Size) cs

end Text

/-! ## The scan -/

/-- The pieces that were cut out so far, and the offset where the next one begins. -/
structure Scan where
  found : List String
  start : Nat

namespace Scan

/-- The stretch between two offsets as a piece, unless it is empty. -/
def stretch (fragment : String) (start stop : Nat) : List String :=
  ((Text.between? fragment start stop).filter (· ≠ "")).toList

/-- One character: an operator character ends the stretch in front of it and is a piece itself. -/
def step (fragment : String) (scan : Scan) (p : Nat × Char) : Scan :=
  if isOperatorChar p.2 then
    let stop := p.1 + p.2.utf8Size
    { found := scan.found ++ stretch fragment scan.start p.1 ++
        (Text.between? fragment p.1 stop).toList
      start := stop }
  else scan

/-- All pieces: those so far, and the stretch at the end. -/
def finish (fragment : String) (scan : Scan) : List String :=
  scan.found ++ stretch fragment scan.start fragment.utf8ByteSize

end Scan

/-- The pieces of a fragment as a scan from left to right cuts them out. -/
def scannedPieces (fragment : String) : List String :=
  ((Text.offsets 0 fragment.toList).foldl (Scan.step fragment) ⟨[], 0⟩).finish fragment

theorem pieces_append_operator {cs : List Char} (hcs : ∀ c ∈ cs, isOperatorChar c = false)
    {o : Char} (ho : isOperatorChar o = true) (rest : List Char) :
    pieces (cs ++ o :: rest) = pieces cs ++ [o] :: pieces rest := by
  have hrest : pieces (o :: rest) = [o] :: pieces rest := by rw [pieces, if_pos ho]
  cases cs with
  | nil => exact hrest
  | cons c cs =>
    have hne := List.cons_ne_nil c cs
    rw [pieces_stretch hne hcs (atOperator_cons ho rest), pieces_stretch_self hne hcs, hrest]
    rfl

theorem append_ofList_cons (s : String) (c : Char) (cs : List Char) :
    s ++ String.ofList (c :: cs) = s ++ String.singleton c ++ String.ofList cs := by
  rw [String.ofList_cons, String.append_assoc]

theorem utf8ByteSize_append_singleton (s : String) (c : Char) :
    (s ++ String.singleton c).utf8ByteSize = s.utf8ByteSize + c.utf8Size := by
  rw [String.utf8ByteSize_append, String.utf8ByteSize_singleton]

namespace Scan

variable {fragment front part : String}

theorem stretch_eq {back : String} (hf : fragment = front ++ part ++ back)
    (hpart : ∀ c ∈ part.toList, isOperatorChar c = false) :
    stretch fragment front.utf8ByteSize (front ++ part).utf8ByteSize =
      (pieces part.toList).map String.ofList := by
  rw [stretch, Text.between?_eq hf]
  by_cases hp : part = ""
  · subst hp
    rfl
  · have hne : part.toList ≠ [] := by simpa using hp
    simp [pieces_stretch_self hne hpart, hp]

/-- **One operator character**: the next piece begins behind it. -/
theorem step_operator {o : Char} {rest : List Char}
    (hf : fragment = front ++ part ++ String.ofList (o :: rest))
    (hpart : ∀ c ∈ part.toList, isOperatorChar c = false) (ho : isOperatorChar o = true)
    (found : List String) :
    step fragment ⟨found, front.utf8ByteSize⟩ ((front ++ part).utf8ByteSize, o) =
      ⟨found ++ (pieces part.toList).map String.ofList ++ [String.singleton o],
        (front ++ part ++ String.singleton o).utf8ByteSize⟩ := by
  have hop := Text.between?_eq (hf.trans (append_ofList_cons _ o rest))
  rw [step, if_pos ho]
  simp only [← utf8ByteSize_append_singleton, stretch_eq hf hpart, hop, Option.toList_some]

/-- **A whole scan**, whatever was scanned already. -/
theorem foldl_step {rest : List Char} (hf : fragment = front ++ part ++ String.ofList rest)
    (hpart : ∀ c ∈ part.toList, isOperatorChar c = false) (found : List String) :
    ((Text.offsets (front ++ part).utf8ByteSize rest).foldl (step fragment)
        ⟨found, front.utf8ByteSize⟩).finish fragment =
      found ++ (pieces (part.toList ++ rest)).map String.ofList := by
  -- The invariant is the state: `start` is where the open stretch `part` begins. It stays there as
  -- the stretch grows, and an operator character moves it to the end of what was scanned.
  induction rest generalizing front part found with
  | nil =>
    have hend := stretch_eq hf hpart
    have hsize : fragment.utf8ByteSize = (front ++ part).utf8ByteSize := by simp [hf]
    rw [Text.offsets, List.foldl_nil, finish, hsize, hend, List.append_nil]
  | cons c rest ih =>
    have hnext := hf.trans (append_ofList_cons _ c rest)
    rw [Text.offsets, List.foldl_cons, ← utf8ByteSize_append_singleton]
    by_cases hc : isOperatorChar c = true
    · have hclosed : fragment =
          front ++ part ++ String.singleton c ++ "" ++ String.ofList rest := by
        rw [hnext, String.append_empty]
      have h := ih hclosed (by simp)
        (found ++ (pieces part.toList).map String.ofList ++ [String.singleton c])
      rw [String.append_empty] at h
      rw [step_operator hf hpart hc, h, pieces_append_operator hpart hc]
      simp
    · have hopen : fragment = front ++ (part ++ String.singleton c) ++ String.ofList rest := by
        rw [hnext, ← String.append_assoc]
      have hgrown : ∀ d ∈ (part ++ String.singleton c).toList, isOperatorChar d = false := by
        rw [String.toList_append, String.toList_singleton, List.forall_mem_append]
        exact ⟨hpart, by simpa using hc⟩
      have h := ih hopen hgrown found
      rw [← String.append_assoc] at h
      rw [step, if_neg hc, h]
      simp

end Scan

/-- **The scan loses nothing.** -/
theorem scannedPieces_eq (fragment : String) :
    scannedPieces fragment = (pieces fragment.toList).map String.ofList := by
  have hf : fragment = "" ++ "" ++ String.ofList fragment.toList := by simp
  exact Scan.foldl_step hf (fun c hc => by cases hc) []

/-! ## Cuts by their neighbours -/

/-- Two pieces of which one at least has an operator character. -/
def Apart (p q : List Char) : Prop :=
  p.any isOperatorChar = true ∨ q.any isOperatorChar = true

theorem any_isOperatorChar_eq_false_iff {p : List Char} :
    p.any isOperatorChar = false ↔ ∀ c ∈ p, isOperatorChar c = false := by
  simp

theorem IsBlock.atOperator_append_iff {p : List Char} (h : IsBlock p) (cs : List Char) :
    AtOperator (p ++ cs) ↔ p.any isOperatorChar = true := by
  rcases h with ⟨c, hc, rfl⟩ | ⟨hne, hn⟩
  · exact iff_of_true (atOperator_cons hc cs) (by simp [hc])
  · obtain ⟨c, p, rfl⟩ := List.exists_cons_of_ne_nil hne
    have hc := hn c List.mem_cons_self
    refine iff_of_false (fun hat => ?_) ?_
    · rw [hat c rfl] at hc
      cases hc
    · rw [Bool.not_eq_true, any_isOperatorChar_eq_false_iff]
      exact hn

theorem IsBlock.apart_iff {q : List Char} (h : IsBlock q) (p cs : List Char) :
    Apart p q ↔ ((∀ c ∈ p, isOperatorChar c = false) → AtOperator (q ++ cs)) := by
  rw [Apart, h.atOperator_append_iff, ← any_isOperatorChar_eq_false_iff, or_iff_not_imp_left,
    Bool.not_eq_true]

/-- **A cut** is a list of blocks of which no two neighbours are stretches. -/
theorem isCut_iff {ps : List (List Char)} :
    IsCut ps ↔ (∀ p ∈ ps, IsBlock p) ∧ ps.IsChain Apart := by
  induction ps with
  | nil => simp [IsCut]
  | cons p ps ih =>
    rw [IsCut, ih, List.forall_mem_cons]
    cases ps with
    | nil => simp [atOperator_nil]
    | cons q ps =>
      rw [List.isChain_cons_cons]
      constructor
      · rintro ⟨hp, hnext, hblocks, hchain⟩
        have hq := hblocks q List.mem_cons_self
        exact ⟨⟨hp, hblocks⟩, (hq.apart_iff p _).mpr hnext, hchain⟩
      · rintro ⟨⟨hp, hblocks⟩, hapart, hchain⟩
        have hq := hblocks q List.mem_cons_self
        exact ⟨hp, (hq.apart_iff p _).mp hapart, hblocks, hchain⟩

theorem IsCut.left {ps qs : List (List Char)} (h : IsCut (ps ++ qs)) : IsCut ps := by
  obtain ⟨hblocks, hchain⟩ := isCut_iff.mp h
  exact isCut_iff.mpr ⟨fun p hp => hblocks p (List.mem_append_left _ hp), hchain.left_of_append⟩

/-! ## The pieces of a token -/

theorem Token.ofPieces?_eq_none_iff {ps : List (List Char)} :
    Token.ofPieces? ps = none ↔ ps.length < 3 := by
  rcases ps with _ | ⟨a, _ | ⟨b, _ | ⟨c, _ | ⟨d, ps⟩⟩⟩⟩ <;> simp [ofPieces?]

theorem Token.exists_cut {fragment : String} {t : Token} (h : tokenize fragment = some t) :
    ∃ ps qs, pieces fragment.toList = ps ++ qs ∧ ps.flatten = t.text.toList ∧
      Token.ofPieces? ps = some t ∧ t.key ≠ "" ∧ t.operator ≠ "" ∧ t.value ≠ "" := by
  have hne : ∀ p ∈ pieces fragment.toList, p ≠ [] := fun p hp =>
    ((isCut_iff.mp (isCut_pieces _)).1 p hp).ne_nil
  rw [tokenize, Token.ofPieces?_eq_some_iff] at h
  obtain hp | ⟨o₁, o₂, rest, hp, ho⟩ := h
  · refine ⟨_, [], hp.trans (List.append_nil _).symm, by simp [text], ?_, ?_⟩
    · exact Token.ofPieces?_eq_some_iff.mpr (.inl rfl)
    · simpa [hp] using hne
  · refine ⟨[t.key.toList, o₁, o₂, t.value.toList], rest, hp, by simp [text, ho], ?_, ?_⟩
    · exact Token.ofPieces?_eq_some_iff.mpr (.inr ⟨o₁, o₂, [], rfl, ho⟩)
    · have hop : t.operator ≠ "" := by
        rw [← String.toList_inj.ne, ho]
        exact fun he => hne o₁ (by simp [hp]) (List.append_eq_nil_iff.mp he).1
      exact ⟨by simpa using hne t.key.toList (by simp [hp]), hop,
        by simpa using hne t.value.toList (by simp [hp])⟩

/-- **The pieces of a fragment** are what a scan by byte offsets cuts out of it, and its only cut
into operator characters and stretches, no two of them side by side. There is a token unless they
are fewer than three, and its parts alone give it again. -/
theorem pieces_canonical (fragment : String) :
    scannedPieces fragment = (pieces fragment.toList).map String.ofList ∧
      (∀ ps, ps = pieces fragment.toList ↔
        ps.flatten = fragment.toList ∧
          (∀ p ∈ ps, (∃ c, isOperatorChar c = true ∧ p = [c]) ∨
            p ≠ [] ∧ ∀ c ∈ p, isOperatorChar c = false) ∧
          ps.IsChain fun p q => p.any isOperatorChar = true ∨ q.any isOperatorChar = true) ∧
      (tokenize fragment = none ↔ (pieces fragment.toList).length < 3) ∧
      ∀ t, tokenize fragment = some t →
        t.key ≠ "" ∧ t.operator ≠ "" ∧ t.value ≠ "" ∧
          (∃ rest, fragment = t.key ++ t.operator ++ t.value ++ rest) ∧
          tokenize (t.key ++ t.operator ++ t.value) = some t := by
  refine ⟨scannedPieces_eq fragment, fun ps => ?_, Token.ofPieces?_eq_none_iff, fun t ht => ?_⟩
  · rw [eq_comm, pieces_eq_iff, isCut_iff]
    rfl
  · obtain ⟨ps, qs, hp, htext, hps, hk, ho, hv⟩ := Token.exists_cut ht
    have hcut := isCut_pieces fragment.toList
    rw [hp] at hcut
    refine ⟨hk, ho, hv, ⟨String.ofList qs.flatten, ?_⟩, ?_⟩
    · apply String.toList_inj.mp
      rw [← flatten_pieces fragment.toList, hp, List.flatten_append, htext]
      simp [Token.text]
    · have hpieces : pieces t.text.toList = ps := pieces_eq_iff.mpr ⟨htext, hcut.left⟩
      rw [← Token.text, tokenize, hpieces, hps]

/-- A fragment with characters of two bytes, which goes on after its value. -/
theorem pieces_canonical_accented :
    scannedPieces "città!=Là<9" = ["città", "!", "=", "Là", "<", "9"] ∧
      tokenize "città!=Là<9" = some ⟨"città", "!=", "Là"⟩ ∧
      (∃ rest, "città!=Là<9" = "città" ++ "!=" ++ "Là" ++ rest) ∧
      tokenize ("città" ++ "!=" ++ "Là") = some ⟨"città", "!=", "Là"⟩ ∧
      tokenize "città!" = none := by
  obtain ⟨hscan, -, -, ht⟩ := pieces_canonical "città!=Là<9"
  have h : tokenize "città!=Là<9" = some ⟨"città", "!=", "Là"⟩ := by decide +kernel
  obtain ⟨-, -, -, hrest, hagain⟩ := ht _ h
  obtain ⟨-, -, hfew, -⟩ := pieces_canonical "città!"
  exact ⟨hscan.trans (by decide +kernel), h, hrest, hagain, hfew.mpr (by decide +kernel)⟩

end QuerySieve
