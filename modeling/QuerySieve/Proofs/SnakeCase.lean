import Mathlib.Data.List.Chain
import QuerySieve.Proofs.Spelling

/-!
# Snake case as a normal form

A name without `-`, blanks and capitals is left alone, and this is what a name in snake case is
like, but for capitals that have no lower case. On the way there only separators and letter case
change: less the `_`, the name has the letters of its spelling, each once and in order.

* `isInner_of_mem_lowered`: no lower case holds a separator.
* `snakeFrom_eq_self`, `isSettled_of_mem_snakeFrom`: some characters are left alone, and no others
  come out.
* **`snakeCase_normal_form`**: names in snake case.
* `letters`, `letters_snakeFrom`: the letters of a spelling, and of its name.
* `tidy_snakeFrom`: where a `_` can stand.
* **`snakeCase_keeps_letters`**: what a name has in common with its spellings.
-/

namespace QuerySieve.FieldName

open Text

/-! ## Separators and lower case -/

/-- The code points of the separators. -/
def separatorCodes : List Nat :=
  0x2D :: 0x5F :: blankCodes

theorem isInner_of_toNat {c : Char} (h : c.toNat ∉ separatorCodes) : IsInner c := by
  refine ⟨?_, ?_, ?_⟩
  · rintro rfl
    exact h (by decide)
  · rintro rfl
    exact h (by decide)
  · refine Bool.eq_false_iff.mpr fun hb => h ?_
    exact List.mem_cons_of_mem _ (List.mem_cons_of_mem _ (toNat_mem_blankCodes hb))

theorem isInner_ofNat {n : Nat} (h : n ∉ separatorCodes) : IsInner (Char.ofNat n) := by
  by_cases hv : n.isValidChar
  · have hn : (Char.ofNat n).toNat = n := by
      rw [Char.ofNat, dif_pos hv]
      rfl
    exact isInner_of_toNat (hn.symm ▸ h)
  · rw [Char.ofNat, dif_neg hv]
    decide

/-- **No lower case holds a separator.** -/
theorem isInner_of_mem_lowered {c x : Char} (hc : isUpper c = true) (h : x ∈ lowered c) :
    IsInner x := by
  have hruns : ∀ r ∈ capitalRuns, ∀ n ∈ separatorCodes,
      n < r.small ∨ r.small + (r.last - r.first) < n := by decide +kernel
  unfold lowered at h
  split_ifs at h with hi
  · obtain rfl | rfl : x = 'i' ∨ x = '\u0307' := by simpa using h
    all_goals decide
  · obtain ⟨r, hr⟩ := Option.isSome_iff_exists.mp hc
    rw [hr, List.mem_singleton] at h
    subst h
    have hlast : c.toNat ≤ r.last := by
      have hh := List.find?_some hr
      simp only [CaseRun.holds, Bool.and_eq_true, decide_eq_true_eq] at hh
      exact hh.1.2
    refine isInner_ofNat fun hm => ?_
    have := hruns r (List.mem_of_find?_eq_some hr) _ hm
    omega

theorem lowered_ne_nil (c : Char) : lowered c ≠ [] := by
  unfold lowered
  split_ifs
  · exact List.cons_ne_nil _ _
  · split <;> exact List.cons_ne_nil _ _

/-! ## Trimming -/

theorem filter_isInner_trim (cs : List Char) :
    (trim cs).filter (IsInner ·) = cs.filter (IsInner ·) := by
  obtain ⟨front, back, hcs, hblank⟩ := exists_trim cs
  have hnone : (front ++ back).filter (IsInner ·) = [] := by
    refine List.filter_eq_nil_iff.mpr fun c hc => ?_
    simp [IsInner, hblank c hc]
  rw [List.filter_append, List.append_eq_nil_iff] at hnone
  have hsplit := congrArg (List.filter (IsInner ·)) hcs
  rw [List.filter_append, List.filter_append, hnone.1, hnone.2, List.nil_append,
    List.append_nil] at hsplit
  exact hsplit.symm

/-! ## Names that are left alone -/

/-- A character that is left alone in snake case: no `-`, no blank and no capital. -/
def IsSettled (c : Char) : Prop :=
  c ≠ '-' ∧ isBlank c = false ∧ isUpper c = false

/-- A character whose lower case is no capital, if it is a capital itself. -/
def LowersOnce (c : Char) : Prop :=
  isUpper c = true → ∀ x ∈ lowered c, isUpper x = false

theorem lowersOnce_of_ascii {c : Char} (h : c.toNat < 0x80) : LowersOnce c := by
  intro hu x hx
  have hascii : x.toNat < 0x80 := by
    rw [isUpper_of_ascii h] at hu
    have hall := forall_ascii (p := fun c => c.isUpper = true → (lowered c).all (·.toNat < 0x80))
      (by decide +kernel) h hu
    exact of_decide_eq_true (List.all_eq_true.mp hall x hx)
  rw [isUpper_of_ascii hascii]
  exact isUpper_eq_false_of_mem_lowered hx

theorem snakeFrom_eq_self {cs : List Char} (h : ∀ c ∈ cs, IsSettled c) (before : Before) :
    snakeFrom before cs = cs := by
  induction cs generalizing before with
  | nil => rfl
  | cons c cs ih =>
    obtain ⟨hd, hb, hu⟩ := h c List.mem_cons_self
    have hcs : ∀ d ∈ cs, IsSettled d := fun d hm => h d (List.mem_cons_of_mem _ hm)
    obtain ⟨rfl, he⟩ | ⟨hs, -⟩ | ⟨-, hc, -⟩ | ⟨-, -, he⟩ := snakeFrom_cons_cases before c cs
    · rw [he, ih hcs]
    · simp [hd, hb] at hs
    · rw [hu] at hc
      cases hc
    · rw [he, ih hcs]

theorem isSettled_of_mem_snakeFrom {cs : List Char} (h : ∀ c ∈ cs, LowersOnce c) {before : Before}
    {x : Char} (hx : x ∈ snakeFrom before cs) : IsSettled x := by
  obtain rfl | ⟨c, hc, hs, ⟨hu, hl⟩ | ⟨hu, rfl⟩⟩ := mem_snakeFrom hx
  · exact ⟨by decide, by decide, isUpper_of_ascii (by decide)⟩
  · obtain ⟨-, hd, hb⟩ := isInner_of_mem_lowered hu hl
    exact ⟨hd, hb, h c hc hu x hl⟩
  · simp only [not_or, Bool.not_eq_true] at hs
    exact ⟨hs.2.1, hs.2.2, hu⟩

theorem snakeCase_eq_self {s : String} (h : ∀ c ∈ s.toList, IsSettled c) : snakeCase s = s := by
  rw [snakeCase, trim_eq_self fun c hc => (h c hc).2.1, snakeFrom_eq_self h, String.ofList_toList]

theorem isSettled_of_mem_snakeCase {s : String} (h : ∀ c ∈ s.toList, LowersOnce c) :
    ∀ x ∈ (snakeCase s).toList, IsSettled x := by
  intro x hx
  rw [snakeCase, String.toList_ofList] at hx
  exact isSettled_of_mem_snakeFrom (fun c hc => h c (mem_of_mem_trim hc)) hx

/-- **Snake case is a normal form.** A name without `-`, blanks and capitals is left alone, and a
name in snake case is of this kind if no capital of its spelling has a capital as its lower case, as
is so within ASCII. -/
theorem snakeCase_normal_form (s : String) :
    ((∀ c ∈ s.toList, c ≠ '-' ∧ isBlank c = false ∧ isUpper c = false) → snakeCase s = s) ∧
      ((∀ c ∈ s.toList, isUpper c = true → ∀ x ∈ lowered c, isUpper x = false) →
        (∀ x ∈ (snakeCase s).toList, x ≠ '-' ∧ isBlank x = false ∧ isUpper x = false) ∧
        snakeCase (snakeCase s) = snakeCase s) ∧
      ((∀ c ∈ s.toList, c.toNat < 0x80) →
        ∀ c ∈ s.toList, isUpper c = true → ∀ x ∈ lowered c, isUpper x = false) := by
  refine ⟨snakeCase_eq_self, fun h => ?_, fun h c hc => lowersOnce_of_ascii (h c hc)⟩
  have hsettled := isSettled_of_mem_snakeCase h
  exact ⟨hsettled, snakeCase_eq_self hsettled⟩

/-- A spelling with a separator of each kind, and with the Kelvin sign among its capitals. -/
theorem snakeCase_normal_form_kelvin :
    (∀ c ∈ " MAX-\u212aelvin Grad_2".toList,
        isUpper c = true → ∀ x ∈ lowered c, isUpper x = false) ∧
      snakeCase " MAX-\u212aelvin Grad_2" = "max_kelvin_grad_2" ∧
      snakeCase "max_kelvin_grad_2" = "max_kelvin_grad_2" := by
  have h : ∀ c ∈ " MAX-\u212aelvin Grad_2".toList,
      isUpper c = true → ∀ x ∈ lowered c, isUpper x = false := by
    intro c hc hu x hx
    have hall : " MAX-\u212aelvin Grad_2".toList.all
        (fun c => !isUpper c || (lowered c).all (!isUpper ·)) = true := by decide +kernel
    have hl := List.all_eq_true.mp hall c hc
    rw [hu, Bool.not_true, Bool.false_or] at hl
    simpa using List.all_eq_true.mp hl x hx
  have hs : snakeCase " MAX-\u212aelvin Grad_2" = "max_kelvin_grad_2" := by decide +kernel
  obtain ⟨-, hn, -⟩ := snakeCase_normal_form " MAX-\u212aelvin Grad_2"
  obtain ⟨-, hi⟩ := hn h
  rw [hs] at hi
  exact ⟨h, hs, hi⟩

-- A capital without a lower case stays one, and the letter before it does not: the second time it
-- begins a word.
example : snakeCase "𝐀A𝐀" = "𝐀a𝐀" ∧ snakeCase "𝐀a𝐀" = "𝐀a_𝐀" := by
  decide +kernel

/-! ## Letters -/

/-- The letters of a spelling: its characters less the separators, each in lower case if it is a
capital. -/
def letters (cs : List Char) : List Char :=
  (cs.filter (IsInner ·)).flatMap fun c => if isUpper c then lowered c else [c]

theorem letters_cons_of_not_isInner {c : Char} (h : ¬ IsInner c) (cs : List Char) :
    letters (c :: cs) = letters cs := by
  simp [letters, h]

theorem letters_cons_of_isInner {c : Char} (h : IsInner c) (cs : List Char) :
    letters (c :: cs) = (if isUpper c then lowered c else [c]) ++ letters cs := by
  simp [letters, h]

theorem filter_ne_underscore {word : List Char} (h : ∀ x ∈ word, IsInner x) :
    word.filter (· ≠ '_') = word :=
  List.filter_eq_self.mpr fun x hx => decide_eq_true (h x hx).1

/-- **The letters of a name in snake case.** -/
theorem letters_snakeFrom (before : Before) (cs : List Char) :
    (snakeFrom before cs).filter (· ≠ '_') = letters cs := by
  induction cs generalizing before with
  | nil => rfl
  | cons c cs ih =>
    obtain ⟨rfl, he⟩ | ⟨hs, he⟩ | ⟨hi, hu, he⟩ | ⟨hi, hu, he⟩ := snakeFrom_cons_cases before c cs
    · have hn : ¬ IsInner '_' := by decide
      rw [he, letters_cons_of_not_isInner hn, ← ih .separator]
      rfl
    · have hn : ¬ IsInner c := fun hi => hs.elim hi.2.1 (by simp [hi.2.2])
      rw [he, letters_cons_of_not_isInner hn, List.filter_append, ih]
      split_ifs <;> rfl
    · have hl := filter_ne_underscore fun x => isInner_of_mem_lowered hu (x := x)
      rw [he, letters_cons_of_isInner hi, if_pos hu, List.filter_append, List.filter_append, hl, ih]
      split_ifs <;> rfl
    · rw [he, letters_cons_of_isInner hi, hu, ← ih .other]
      exact List.filter_cons_of_pos (decide_eq_true hi.1)

theorem letters_snakeCase (s : String) :
    (snakeCase s).toList.filter (· ≠ '_') = letters s.toList := by
  rw [snakeCase, String.toList_ofList, letters_snakeFrom, letters, filter_isInner_trim, ← letters]

/-! ## Where a `_` can stand -/

/-- What a name without a `_` of its own is like from some place on: no two `_` stand side by side,
and none stands there if a separator came before. -/
structure Tidy (before : Before) (out : List Char) : Prop where
  single : out.IsChain fun a b => a ≠ '_' ∨ b ≠ '_'
  head : before = .separator → out.head? ≠ some '_'

theorem Tidy.mark {before : Before} (hb : before ≠ .separator) {out : List Char}
    (h : Tidy .separator out) : Tidy before ('_' :: out) where
  single := h.single.cons fun _ hy => .inr fun he => h.head rfl (he ▸ hy)
  head hs := absurd hs hb

theorem Tidy.word {before : Before} {word out : List Char} (h : Tidy before out) (hne : word ≠ [])
    (hw : ∀ x ∈ word, x ≠ '_') (before' : Before) : Tidy before' (word ++ out) where
  single := by
    refine List.isChain_append.mpr ⟨?_, h.single, fun x hx _ _ => .inl ?_⟩
    · refine List.isChain_iff_forall_rel_of_append_cons_cons.mpr fun a b l₁ l₂ he => .inl ?_
      exact hw a (by simp [he])
    · exact hw x (List.mem_of_getLast? hx)
  head _ hh := by
    rw [List.head?_append_of_ne_nil _ hne] at hh
    exact hw '_' (List.mem_of_head? hh) rfl

theorem tidy_snakeFrom {cs : List Char} (h : '_' ∉ cs) (before : Before) :
    Tidy before (snakeFrom before cs) := by
  -- A `_` is written only where no separator came before: as one itself, so that the rest begins
  -- with none, or in front of a lower case, which is not empty.
  induction cs generalizing before with
  | nil => exact ⟨.nil, fun _ => by simp [snakeFrom]⟩
  | cons c cs ih =>
    rw [List.mem_cons, not_or] at h
    have rest := ih h.2
    obtain ⟨rfl, -⟩ | ⟨-, he⟩ | ⟨hi, hu, he⟩ | ⟨hi, -, he⟩ := snakeFrom_cons_cases before c cs
    · exact absurd rfl h.1
    · rw [he]
      split_ifs with hb
      · exact hb ▸ rest .separator
      · exact (rest .separator).mark hb
    · have word (b : Before) : Tidy b (lowered c ++ snakeFrom .capital cs) :=
        (rest .capital).word (lowered_ne_nil c) (fun x hx => (isInner_of_mem_lowered hu hx).1) b
      rw [he, List.append_assoc]
      split_ifs with hb
      · have hs : before ≠ .separator := by
          rintro rfl
          cases hb
        exact (word .separator).mark hs
      · exact word before
    · rw [he]
      exact (rest .other).word (List.cons_ne_nil c []) (by simpa using hi.1) before

/-- **A name keeps the letters of its spellings.** Less the `_`, it has the characters of a spelling
that are no separators, in order and in lower case. A spelling without `_` gets none in front and no
two side by side. -/
theorem snakeCase_keeps_letters (s : String) :
    (snakeCase s).toList.filter (· ≠ '_') = letters s.toList ∧
      (∀ t, snakeCase t = snakeCase s → letters t.toList = letters s.toList) ∧
      ('_' ∉ s.toList → (snakeCase s).toList.head? ≠ some '_' ∧
        ∀ front back, (snakeCase s).toList ≠ front ++ '_' :: '_' :: back) := by
  refine ⟨letters_snakeCase s, fun t ht => ?_, fun hs => ?_⟩
  · rw [← letters_snakeCase, ht, letters_snakeCase]
  · have tidy : Tidy .separator (snakeCase s).toList := by
      rw [snakeCase, String.toList_ofList]
      exact tidy_snakeFrom (fun hm => hs (mem_of_mem_trim hm)) .separator
    refine ⟨tidy.head rfl, fun front back he => ?_⟩
    have := List.isChain_iff_forall_rel_of_append_cons_cons.mp tidy.single he
    simp at this

theorem snakeCase_keeps_letters_dotted :
    '_' ∉ " --XMLHttp  İd-".toList ∧
      snakeCase " --XMLHttp  İd-" = "xml_http_i\u0307d_" ∧
      letters " --XMLHttp  İd-".toList = "xmlhttpi\u0307d".toList ∧
      letters "xml_http_İd-".toList = letters " --XMLHttp  İd-".toList ∧
      ∀ front back, "xml_http_i\u0307d_".toList ≠ front ++ '_' :: '_' :: back := by
  have hn : '_' ∉ " --XMLHttp  İd-".toList := by decide
  have hs : snakeCase " --XMLHttp  İd-" = "xml_http_i\u0307d_" := by decide +kernel
  obtain ⟨hl, ht, hu⟩ := snakeCase_keeps_letters " --XMLHttp  İd-"
  obtain ⟨-, hd⟩ := hu hn
  rw [hs] at hl hd
  exact ⟨hn, hs, hl.symm.trans (by decide), ht "xml_http_İd-" (by decide +kernel), hd⟩

end QuerySieve.FieldName
