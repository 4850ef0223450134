import Mathlib.Data.List.Basic
import Mathlib.Data.List.Infix
import Mathlib.Tactic.Common

/-!
# Texts that read in one way

A text is read from its front, with some rest after it that begins with no character of words. It
reads in one way if text and rest together determine what was written, and the rest.

* `isWordChar`, `stops`: the characters of words, and the texts that can follow a word.
* `Readable`: a way of writing that reads in one way.
* `readable_word`, `readable_code`, `Readable.append`: words, closed sets of texts, sequences.
* **`Readable.clause`**: texts between separators, after an opening.
-/

namespace QuerySieve.Text

/-- The letters and digits of ASCII and `_`. -/
def isWordChar (c : Char) : Bool :=
  c.isAlphanum || c == '_'

/-- Whether a text can follow a word: it does not go on with it. -/
def stops (cs : List Char) : Bool :=
  !cs.head?.any isWordChar

theorem forall_mem_of_all {P : Char → Prop} [DecidablePred P] {cs : List Char}
    (h : (cs.all fun c => decide (P c)) = true) : ∀ c ∈ cs, P c :=
  fun c hc => of_decide_eq_true (List.all_eq_true.mp h c hc)

theorem isWordChar_of_isDigit {c : Char} (h : c.isDigit = true) : isWordChar c = true := by
  rw [isWordChar, Char.isAlphanum, h, Bool.or_true, Bool.true_or]

theorem toNat_lt_of_isWordChar {c : Char} (h : isWordChar c = true) : c.toNat < 0x80 := by
  have below {d : Char} (hd : d.toNat < 0x80) (hc : c.val ≤ d.val) : c.toNat < 0x80 :=
    Nat.lt_of_le_of_lt (UInt32.le_iff_toNat_le.mp hc) hd
  have hclasses : (((c.isUpper || c.isLower) || c.isDigit) || c == '_') = true := h
  simp only [Bool.or_eq_true, beq_iff_eq] at hclasses
  obtain ((h | h) | h) | rfl := hclasses
  · have hc : c.val ≥ 'A'.val ∧ c.val ≤ 'Z'.val := of_decide_eq_true h
    exact below (d := 'Z') (by decide) hc.2
  · have hc : (decide (c.val ≥ 'a'.val) && decide (c.val ≤ 'z'.val)) = true := h
    exact below (d := 'z') (by decide) (of_decide_eq_true (Bool.and_eq_true_iff.mp hc).2)
  · have hc : (decide (c.val ≥ '0'.val) && decide (c.val ≤ '9'.val)) = true := h
    exact below (d := '9') (by decide) (of_decide_eq_true (Bool.and_eq_true_iff.mp hc).2)
  · decide

theorem isWordChar_eq_false_of_ge {c : Char} (h : 0x80 ≤ c.toNat) : isWordChar c = false :=
  Bool.eq_false_iff.mpr fun hc => Nat.not_lt_of_le h (toNat_lt_of_isWordChar hc)

theorem not_stops_append {a r : List Char} (ha : stops a = false) : stops (a ++ r) = false := by
  cases a with
  | nil => cases ha
  | cons c a => exact ha

section

variable {a b r s : List Char}

theorem takeWhile_word (ha : ∀ c ∈ a, isWordChar c = true) (hr : stops r = true) :
    (a ++ r).takeWhile isWordChar = a := by
  rw [List.takeWhile_append_of_pos ha]
  cases r with
  | nil => simp
  | cons c r =>
    have hc : isWordChar c = false := by simpa [stops] using hr
    simp [hc]

theorem dropWhile_word (ha : ∀ c ∈ a, isWordChar c = true) (hr : stops r = true) :
    (a ++ r).dropWhile isWordChar = r := by
  have h := List.takeWhile_append_dropWhile (p := isWordChar) (l := a ++ r)
  rw [takeWhile_word ha hr] at h
  exact List.append_cancel_left h

theorem word_append_inj (ha : ∀ c ∈ a, isWordChar c = true) (hb : ∀ c ∈ b, isWordChar c = true)
    (hr : stops r = true) (hs : stops s = true) (h : a ++ r = b ++ s) : a = b ∧ r = s := by
  have he := congrArg (List.takeWhile isWordChar) h
  rw [takeWhile_word ha hr, takeWhile_word hb hs] at he
  subst he
  exact ⟨rfl, List.append_cancel_left h⟩

end

variable {α β γ : Type}

/-- **A way of writing reads in one way**: before any rest that stops, the text determines what was
written up to its shape, and the rest. -/
def Readable (text : α → List Char) (shape : α → β) : Prop :=
  ∀ a b r s, stops r = true → stops s = true → text a ++ r = text b ++ s → shape a = shape b ∧ r = s

theorem readable_word {text : α → List Char} (h : ∀ a, ∀ c ∈ text a, isWordChar c = true) :
    Readable text text :=
  fun a b _ _ hr hs e => word_append_inj (h a) (h b) hr hs e

/-- Where one text of a closed set begins another, the other goes on with a word. -/
theorem readable_code {code : α → List Char}
    (h : ∀ a b, code a <+: code b → a = b ∨ stops ((code b).drop (code a).length) = false) :
    Readable code id := by
  have half : ∀ {a b r s}, stops r = true → code a ++ r = code b ++ s → code a <+: code b →
      a = b ∧ r = s := by
    intro a b r s hr e hp
    obtain rfl | hd := h a b hp
    · exact ⟨rfl, List.append_cancel_left e⟩
    · obtain ⟨t, ht⟩ := hp
      rw [← ht, List.drop_left] at hd
      rw [← ht, List.append_assoc] at e
      rw [List.append_cancel_left e, not_stops_append hd] at hr
      cases hr
  intro a b r s hr hs e
  have ha : code a <+: code a ++ r := List.prefix_append _ _
  have hb : code b <+: code a ++ r := e ▸ List.prefix_append _ _
  obtain hp | hp := List.prefix_or_prefix_of_prefix ha hb
  · exact half hr e hp
  · obtain ⟨h₁, h₂⟩ := half hs e.symm hp
    exact ⟨h₁.symm, h₂.symm⟩

/-- A sequence of two texts. -/
theorem Readable.append {text text' : α → List Char} {shape : α → β} {shape' : α → γ}
    (h : Readable text shape) (hst : ∀ a r, stops r = true → stops (text' a ++ r) = true)
    (h' : ∀ a b r s, shape a = shape b → stops r = true → stops s = true →
      text' a ++ r = text' b ++ s → shape' a = shape' b ∧ r = s) :
    Readable (fun a => text a ++ text' a) (fun a => (shape a, shape' a)) := by
  intro a b r s hr hs e
  rw [List.append_assoc, List.append_assoc] at e
  obtain ⟨h₁, e'⟩ := h a b _ _ (hst a r hr) (hst b s hs) e
  obtain ⟨h₂, rfl⟩ := h' a b r s h₁ hr hs e'
  exact ⟨Prod.ext h₁ h₂, rfl⟩

/-! ## Clauses -/

/-- Texts with a separator between them, after an opening; nothing if there are none. -/
def clause (opening sep : List Char) (text : α → List Char) : List α → List Char
  | [] => []
  | x :: xs => opening ++ (text x ++ xs.flatMap fun y => sep ++ text y)

/-- Whether a text can follow a clause: it neither opens it nor goes on with it. -/
structure Closes (opening sep : List Char) (text : α → List Char) (t : List Char) : Prop where
  stops : stops t = true
  not_opening : ∀ x u, t ≠ opening ++ (text x ++ u)
  not_sep : ¬ sep <+: t

section Clause

variable {opening sep : List Char} {text : α → List Char} {shape : α → β}

theorem stops_flatMap (hsep : ∀ r, stops (sep ++ r) = true) {t : List Char}
    (ht : stops t = true) (xs : List α) :
    stops ((xs.flatMap fun x => sep ++ text x) ++ t) = true := by
  cases xs with
  | nil => exact ht
  | cons x xs => simpa using hsep _

theorem stops_separated (hsep : ∀ r, stops (sep ++ r) = true) (xs : List α) :
    stops (xs.flatMap fun x => sep ++ text x) = true := by
  have hn : stops [] = true := rfl
  simpa using stops_flatMap hsep hn xs

theorem stops_clause (ho : ∀ r, stops (opening ++ r) = true) {t : List Char}
    (ht : stops t = true) (xs : List α) : stops (clause opening sep text xs ++ t) = true := by
  cases xs with
  | nil => exact ht
  | cons x xs => rw [clause, List.append_assoc]; exact ho _

theorem forall_mem_clause {P : Char → Prop} (ho : ∀ c ∈ opening, P c) (hs : ∀ c ∈ sep, P c)
    {xs : List α} (h : ∀ x ∈ xs, ∀ c ∈ text x, P c) : ∀ c ∈ clause opening sep text xs, P c := by
  intro c hc
  cases xs with
  | nil => cases hc
  | cons x xs =>
    simp only [clause, List.mem_append, List.mem_flatMap] at hc
    obtain hc | hc | ⟨y, hy, hc | hc⟩ := hc
    · exact ho c hc
    · exact h x List.mem_cons_self c hc
    · exact hs c hc
    · exact h y (List.mem_cons_of_mem _ hy) c hc

theorem intercalate_map (sep : List Char) (text : α → List Char) (xs : List α) :
    sep.intercalate (xs.map text) = clause [] sep text xs := by
  cases xs with
  | nil => rfl
  | cons x xs =>
    rw [clause, List.nil_append, List.map_cons]
    induction xs generalizing x with
    | nil => simp
    | cons y xs ih => rw [List.map_cons, List.intercalate_cons_cons, ih]; simp

theorem Readable.flatMap (h : Readable text shape) (hsep : ∀ r, stops (sep ++ r) = true)
    {t t' : List Char} (ht : stops t = true) (ht' : stops t' = true) (hn : ¬ sep <+: t)
    (hn' : ¬ sep <+: t') {xs ys : List α}
    (e : (xs.flatMap fun x => sep ++ text x) ++ t = (ys.flatMap fun y => sep ++ text y) ++ t') :
    xs.map shape = ys.map shape ∧ t = t' := by
  induction xs generalizing ys with
  | nil =>
    cases ys with
    | nil => exact ⟨rfl, e⟩
    | cons y ys =>
      simp only [List.flatMap_nil, List.nil_append, List.flatMap_cons, List.append_assoc] at e
      exact absurd ⟨_, e.symm⟩ hn
  | cons x xs ih =>
    cases ys with
    | nil =>
      simp only [List.flatMap_nil, List.nil_append, List.flatMap_cons, List.append_assoc] at e
      exact absurd ⟨_, e⟩ hn'
    | cons y ys =>
      simp only [List.flatMap_cons, List.append_assoc, List.append_cancel_left_eq] at e
      obtain ⟨hx, e⟩ := h x y _ _ (stops_flatMap hsep ht xs) (stops_flatMap hsep ht' ys) e
      obtain ⟨hxs, rfl⟩ := ih e
      exact ⟨by rw [List.map_cons, List.map_cons, hx, hxs], rfl⟩

/-- **Clauses read in one way** before texts that close them. -/
theorem Readable.clause_inj (h : Readable text shape) (hsep : ∀ r, stops (sep ++ r) = true)
    {t t' : List Char} (ht : Closes opening sep text t) (ht' : Closes opening sep text t')
    {xs ys : List α}
    (e : clause opening sep text xs ++ t = clause opening sep text ys ++ t') :
    xs.map shape = ys.map shape ∧ t = t' := by
  cases xs with
  | nil =>
    cases ys with
    | nil => exact ⟨rfl, e⟩
    | cons y ys =>
      simp only [clause, List.nil_append, List.append_assoc] at e
      exact absurd e (ht.not_opening y _)
  | cons x xs =>
    cases ys with
    | nil =>
      simp only [clause, List.nil_append, List.append_assoc] at e
      exact absurd e.symm (ht'.not_opening x _)
    | cons y ys =>
      simp only [clause, List.append_assoc, List.append_cancel_left_eq] at e
      obtain ⟨hx, e⟩ := h x y _ _ (stops_flatMap hsep ht.stops xs)
        (stops_flatMap hsep ht'.stops ys) e
      obtain ⟨hxs, rfl⟩ := h.flatMap hsep ht.stops ht'.stops ht.not_sep ht'.not_sep e
      exact ⟨by rw [List.map_cons, List.map_cons, hx, hxs], rfl⟩

end Clause

/-! ## Strings -/

theorem toList_intercalate_map (sep : String) (text : α → String) (xs : List α) :
    (sep.intercalate (xs.map text)).toList =
      clause [] sep.toList (fun x => (text x).toList) xs := by
  rw [String.toList_intercalate, List.map_map, intercalate_map]
  rfl

theorem toList_opening_intercalate (opening sep : String) (text : α → String) (xs : List α) :
    (if xs.isEmpty then "" else opening ++ sep.intercalate (xs.map text)).toList =
      clause opening.toList sep.toList (fun x => (text x).toList) xs := by
  cases xs with
  | nil => rfl
  | cons x xs =>
    rw [if_neg (by simp), String.toList_append, toList_intercalate_map]
    simp [clause]

end QuerySieve.Text
