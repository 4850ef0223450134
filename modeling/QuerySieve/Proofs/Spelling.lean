import Mathlib.Data.List.Basic
import QuerySieve.Proofs.FieldName
import QuerySieve.Proofs.Text.Readable
import QuerySieve.Proofs.Text.Trim
import QuerySieve.Proofs.Text.Utf8

/-!
# The spellings of a name

A name is a list of words. Clients write each word in small letters, with a capital in front or all
in capitals, and put the words side by side or something between them. All spellings come to the same
name in snake case: the reader keeps what stood before a character, and a word leaves it in a state
from which the next word, however it is joined, begins with one `_`.

* `Word`, `Written`, `Joint`: words, how one is written, and what stands between two.
* `Spelling`: words written and joined so that they can be told apart.
* `snakeFrom_written`: one word in snake case, whatever stood before it.
* `snakeFrom_continuation`: all words after the first.
* **`Spelling.snakeCase_text`**: the name of a spelling.
-/

namespace QuerySieve.FieldName

open Text

/-! ## Words and their spellings -/

/-- A word: a small letter, and at least one more small letter or digit after it. -/
structure Word where
  first : Char
  second : Char
  rest : List Char
  isLower_first : first.isLower = true
  small : (second :: rest).all (fun c => c.isLower || c.isDigit) = true
  deriving DecidableEq, Repr

theorem Word.small_of_mem {w : Word} {c : Char} (h : c ∈ w.second :: w.rest) :
    (c.isLower || c.isDigit) = true :=
  List.all_eq_true.mp w.small c h

/-- The characters of a word. -/
def Word.chars (w : Word) : List Char :=
  w.first :: w.second :: w.rest

/-- The name that is made of words. -/
def Word.name (ws : List Word) : String :=
  "_".intercalate (ws.map fun w => String.ofList w.chars)

/-- How a word is written. -/
inductive Style where
  | small
  | initial
  | capitals
  deriving DecidableEq, Repr

/-- A word as it is written; one with a digit is not written in capitals. -/
structure Written where
  word : Word
  style : Style
  letters : style = .capitals → word.chars.all Char.isLower = true
  deriving DecidableEq, Repr

/-- The characters of a word as it is written. -/
def Written.chars (a : Written) : List Char :=
  match a.style with
  | .small => a.word.chars
  | .initial => a.word.first.toUpper :: a.word.second :: a.word.rest
  | .capitals => a.word.chars.map Char.toUpper

/-- What stands between two words: `_`, a run of `-` and blanks, or nothing. -/
inductive Joint where
  | underscore
  | gap (run : List Char)
  | direct
  deriving DecidableEq, Repr

/-- The characters between two words. -/
def Joint.chars : Joint → List Char
  | underscore => ['_']
  | gap run => run
  | direct => []

/-- Whether two words can be told apart by what stands between them. With nothing there, the second
begins with a capital, and after a word in capitals it goes on with a small letter. -/
def Joint.Fits : Joint → Written → Written → Prop
  | underscore, _, _ => True
  | gap run, _, _ => run ≠ [] ∧ run.all (fun c => c = '-' || isBlank c) = true
  | direct, a, b =>
    b.style ≠ .small ∧
      (a.style = .capitals → b.style = .initial ∧ b.word.second.isLower = true)

theorem Joint.Fits.isGap_of_mem {run : List Char} {a b : Written} (h : (gap run).Fits a b) :
    ∀ c ∈ run, c = '-' ∨ isBlank c = true := by
  intro c hc
  simpa using List.all_eq_true.mp h.2 c hc

instance : ∀ (j : Joint) (a b : Written), Decidable (j.Fits a b)
  | .underscore, _, _ => inferInstanceAs (Decidable True)
  | .gap _, _, _ => inferInstanceAs (Decidable (_ ∧ _))
  | .direct, _, _ => inferInstanceAs (Decidable (_ ∧ _))

/-- Whether a word and those after it can be told apart. -/
def Joined : Written → List (Joint × Written) → Prop
  | _, [] => True
  | a, (j, b) :: more => j.Fits a b ∧ Joined b more

instance decidableJoined : ∀ (a : Written) (more : List (Joint × Written)), Decidable (Joined a more)
  | _, [] => inferInstanceAs (Decidable True)
  | a, (j, b) :: more =>
    have : Decidable (Joined b more) := decidableJoined b more
    inferInstanceAs (Decidable (j.Fits a b ∧ Joined b more))

/-- The characters after the first word. -/
def continuation (more : List (Joint × Written)) : List Char :=
  more.flatMap fun p => p.1.chars ++ p.2.chars

/-- Words, each written in some way and joined in some way to the one before, with blanks around the
whole. -/
structure Spelling where
  before : List Char := []
  first : Written
  more : List (Joint × Written) := []
  after : List Char := []
  blank : (before ++ after).all isBlank = true := by decide
  joined : Joined first more := by decide

namespace Spelling

/-- The words of a spelling. -/
def words (x : Spelling) : List Word :=
  x.first.word :: x.more.map fun p => p.2.word

/-- The characters of a spelling without the blanks around it. -/
def core (x : Spelling) : List Char :=
  x.first.chars ++ continuation x.more

/-- The text of a spelling. -/
def text (x : Spelling) : String :=
  String.ofList (x.before ++ x.core ++ x.after)

end Spelling

/-! ## Characters -/

theorem toNat_lt_of_isAlphanum {c : Char} (h : c.isAlphanum = true) : c.toNat < 0x80 :=
  toNat_lt_of_isWordChar (by rw [isWordChar, h, Bool.true_or])

theorem isAlphanum_of_small {c : Char} (h : (c.isLower || c.isDigit) = true) :
    c.isAlphanum = true := by
  show (c.isUpper || c.isLower || c.isDigit) = true
  rw [Bool.or_assoc, h, Bool.or_true]

theorem isAlphanum_of_isLower {c : Char} (h : c.isLower = true) : c.isAlphanum = true :=
  isAlphanum_of_small (by simp [h])

theorem isInner_of_isAlphanum {c : Char} (h : c.isAlphanum = true) : IsInner c :=
  forall_ascii (p := fun c => c.isAlphanum = true → IsInner c) (by decide +kernel)
    (toNat_lt_of_isAlphanum h) h

theorem isUpper_of_small {c : Char} (h : (c.isLower || c.isDigit) = true) : isUpper c = false := by
  have hc := toNat_lt_of_isAlphanum (isAlphanum_of_small h)
  rw [isUpper_of_ascii hc]
  exact forall_ascii (p := fun c => (c.isLower || c.isDigit) = true → c.isUpper = false)
    (by decide +kernel) hc h

theorem isLower_of_isLower {c : Char} (h : c.isLower = true) : isLower c = true :=
  forall_ascii (p := fun c => c.isLower = true → isLower c = true) (by decide +kernel)
    (toNat_lt_of_isAlphanum (isAlphanum_of_isLower h)) h

theorem toUpper_of_isLower {c : Char} (h : c.isLower = true) :
    c.toUpper.isAlphanum = true ∧ isUpper c.toUpper = true ∧ isLower c.toUpper = false ∧
      lowered c.toUpper = [c] :=
  forall_ascii (p := fun c => c.isLower = true → c.toUpper.isAlphanum = true ∧
    isUpper c.toUpper = true ∧ isLower c.toUpper = false ∧ lowered c.toUpper = [c])
    (by decide +kernel) (toNat_lt_of_isAlphanum (isAlphanum_of_isLower h)) h

/-- The code points of the blanks. -/
def blankCodes : List Nat :=
  [0x09, 0x0A, 0x0B, 0x0C, 0x0D, 0x20, 0x85, 0xA0, 0x1680, 0x2000, 0x2001, 0x2002, 0x2003, 0x2004,
    0x2005, 0x2006, 0x2007, 0x2008, 0x2009, 0x200A, 0x2028, 0x2029, 0x202F, 0x205F, 0x3000]

theorem toNat_mem_blankCodes {c : Char} (h : isBlank c = true) : c.toNat ∈ blankCodes := by
  simp only [isBlank, Bool.or_eq_true, Bool.and_eq_true, decide_eq_true_eq, beq_iff_eq] at h
  simp only [blankCodes, List.mem_cons, List.not_mem_nil, or_false]
  omega

theorem isLower_eq_false_of_isBlank {c : Char} (h : isBlank c = true) : isLower c = false := by
  have hcodes : ∀ n ∈ blankCodes, smallRuns.any (·.holds n) = false := by decide +kernel
  exact hcodes c.toNat (toNat_mem_blankCodes h)

/-! ## One word -/

theorem snakeFrom_underscore (before : Before) (cs : List Char) :
    snakeFrom before ('_' :: cs) = '_' :: snakeFrom .separator cs := by
  rw [snakeFrom, if_pos rfl]

theorem snakeFrom_small {c : Char} (h : (c.isLower || c.isDigit) = true) (before : Before)
    (cs : List Char) : snakeFrom before (c :: cs) = c :: snakeFrom .other cs := by
  obtain ⟨hu, hd, hb⟩ := isInner_of_isAlphanum (isAlphanum_of_small h)
  simp [snakeFrom, hu, hd, hb, isUpper_of_small h]

theorem snakeFrom_capital {c : Char} (h : c.isLower = true) (before : Before) (cs : List Char) :
    snakeFrom before (c.toUpper :: cs) =
      (if beginsWord before cs then ['_'] else []) ++ c :: snakeFrom .capital cs := by
  obtain ⟨ha, hc, -, hl⟩ := toUpper_of_isLower h
  obtain ⟨hu, hd, hb⟩ := isInner_of_isAlphanum ha
  simp [snakeFrom, hu, hd, hb, hc, hl]

theorem snakeFrom_smalls {cs : List Char} (hne : cs ≠ [])
    (h : ∀ c ∈ cs, (c.isLower || c.isDigit) = true) (before : Before) (tail : List Char) :
    snakeFrom before (cs ++ tail) = cs ++ snakeFrom .other tail := by
  induction cs generalizing before with
  | nil => exact absurd rfl hne
  | cons c cs ih =>
    rw [List.cons_append, snakeFrom_small (h c List.mem_cons_self)]
    cases cs with
    | nil => rfl
    | cons d cs =>
      rw [ih (List.cons_ne_nil d cs) (fun x hx => h x (List.mem_cons_of_mem _ hx))]
      rfl

/-- Whether a text begins with a small letter. -/
def startsLower (cs : List Char) : Bool :=
  cs.head?.any isLower

theorem snakeFrom_capitals {cs : List Char} (h : ∀ c ∈ cs, c.isLower = true) {tail : List Char}
    (ht : startsLower tail = false) :
    snakeFrom .capital (cs.map Char.toUpper ++ tail) = cs ++ snakeFrom .capital tail := by
  induction cs with
  | nil => rfl
  | cons c cs ih =>
    have hcs : ∀ d ∈ cs, d.isLower = true := fun d hd => h d (List.mem_cons_of_mem _ hd)
    have hnext : startsLower (cs.map Char.toUpper ++ tail) = false := by
      cases cs with
      | nil => exact ht
      | cons d cs => exact (toUpper_of_isLower (hcs d List.mem_cons_self)).2.2.1
    have hbegins : beginsWord .capital (cs.map Char.toUpper ++ tail) = false := hnext
    rw [List.map_cons, List.cons_append, snakeFrom_capital (h c List.mem_cons_self), hbegins,
      ih hcs]
    rfl

/-- What a word leaves for the character after it. -/
def Style.leaves : Style → Before
  | .small => .other
  | .initial => .other
  | .capitals => .capital

/-- **One word** is in small letters, after `_` if a capital begins it. -/
theorem snakeFrom_written (before : Before) (a : Written) {tail : List Char}
    (ht : startsLower tail = false) :
    snakeFrom before (a.chars ++ tail) =
      (if a.style ≠ .small ∧ beginsWord before (a.chars.tail ++ tail) then ['_'] else []) ++
        a.word.chars ++ snakeFrom a.style.leaves tail := by
  obtain ⟨w, style, letters⟩ := a
  have hrest : ∀ b, snakeFrom b (w.second :: w.rest ++ tail) =
      w.second :: w.rest ++ snakeFrom .other tail :=
    fun b => snakeFrom_smalls (List.cons_ne_nil _ _) (fun _ => Word.small_of_mem) b tail
  cases style with
  | small =>
    have hfirst : (w.first.isLower || w.first.isDigit) = true := by simp [w.isLower_first]
    simp only [Written.chars, Word.chars, List.cons_append] at hrest ⊢
    rw [snakeFrom_small hfirst, hrest]
    simp [Style.leaves]
  | initial =>
    simp only [Written.chars, Word.chars, List.cons_append, List.tail_cons] at hrest ⊢
    rw [snakeFrom_capital w.isLower_first, hrest]
    simp [Style.leaves]
  | capitals =>
    have hl : ∀ c ∈ w.second :: w.rest, c.isLower = true :=
      fun c hc => List.all_eq_true.mp (letters rfl) c (List.mem_cons_of_mem _ hc)
    have hcaps := snakeFrom_capitals hl ht
    simp only [Written.chars, Word.chars, List.map_cons, List.cons_append, List.tail_cons] at hcaps ⊢
    rw [snakeFrom_capital w.isLower_first, hcaps]
    simp [Style.leaves]

theorem snakeFrom_separator_written (a : Written) {tail : List Char}
    (ht : startsLower tail = false) :
    snakeFrom .separator (a.chars ++ tail) = a.word.chars ++ snakeFrom a.style.leaves tail := by
  rw [snakeFrom_written .separator a ht]
  simp [beginsWord]

/-! ## Words after a word -/

theorem ne_underscore_of_gap {c : Char} (h : c = '-' ∨ isBlank c = true) : c ≠ '_' := by
  rintro rfl
  revert h
  decide

theorem snakeFrom_separators {run : List Char} (h : ∀ c ∈ run, c = '-' ∨ isBlank c = true)
    (cs : List Char) : snakeFrom .separator (run ++ cs) = snakeFrom .separator cs := by
  induction run with
  | nil => rfl
  | cons c run ih =>
    have hc := h c List.mem_cons_self
    rw [List.cons_append, snakeFrom, if_neg (ne_underscore_of_gap hc), if_pos hc, if_pos rfl,
      List.nil_append, ih fun d hd => h d (List.mem_cons_of_mem _ hd)]

theorem snakeFrom_gap {run : List Char} (hne : run ≠ [])
    (h : ∀ c ∈ run, c = '-' ∨ isBlank c = true) {before : Before} (hb : before ≠ .separator)
    (cs : List Char) : snakeFrom before (run ++ cs) = '_' :: snakeFrom .separator cs := by
  cases run with
  | nil => exact absurd rfl hne
  | cons c run =>
    have hc := h c List.mem_cons_self
    rw [List.cons_append, snakeFrom, if_neg (ne_underscore_of_gap hc), if_pos hc, if_neg hb,
      snakeFrom_separators fun d hd => h d (List.mem_cons_of_mem _ hd)]
    rfl

theorem Style.leaves_ne_separator (s : Style) : s.leaves ≠ .separator := by
  cases s <;> decide

theorem beginsWord_of_fits_direct {a b : Written} (h : Joint.direct.Fits a b) (tail : List Char) :
    beginsWord a.style.leaves (b.chars.tail ++ tail) = true := by
  obtain ⟨-, hcapitals⟩ := h
  cases hs : a.style with
  | small => rfl
  | initial => rfl
  | capitals =>
    obtain ⟨hb, hsecond⟩ := hcapitals hs
    have hchars : b.chars = b.word.first.toUpper :: b.word.second :: b.word.rest := by
      rw [Written.chars, hb]
    rw [hchars]
    exact isLower_of_isLower hsecond

/-- **One more word** is in small letters after one `_`, however it is joined. -/
theorem snakeFrom_joint {j : Joint} {a b : Written} (h : j.Fits a b) {tail : List Char}
    (ht : startsLower tail = false) :
    snakeFrom a.style.leaves (j.chars ++ b.chars ++ tail) =
      '_' :: b.word.chars ++ snakeFrom b.style.leaves tail := by
  rw [List.append_assoc]
  cases j with
  | underscore =>
    rw [Joint.chars, List.singleton_append, snakeFrom_underscore, snakeFrom_separator_written b ht]
    rfl
  | gap run =>
    rw [Joint.chars, snakeFrom_gap h.1 h.isGap_of_mem a.style.leaves_ne_separator,
      snakeFrom_separator_written b ht]
    rfl
  | direct =>
    rw [Joint.chars, List.nil_append, snakeFrom_written _ b ht,
      if_pos ⟨h.1, beginsWord_of_fits_direct h tail⟩]
    rfl

theorem startsLower_chars_append {a : Written} (h : a.style ≠ .small) (tail : List Char) :
    startsLower (a.chars ++ tail) = false := by
  have hfirst : isLower a.word.first.toUpper = false :=
    (toUpper_of_isLower a.word.isLower_first).2.2.1
  cases hs : a.style with
  | small => exact absurd hs h
  | initial => simpa [Written.chars, hs, startsLower] using hfirst
  | capitals => simpa [Written.chars, Word.chars, hs, startsLower] using hfirst

theorem startsLower_continuation {a : Written} {more : List (Joint × Written)}
    (h : Joined a more) : startsLower (continuation more) = false := by
  cases more with
  | nil => rfl
  | cons p more =>
    obtain ⟨j, b⟩ := p
    rw [continuation, List.flatMap_cons, List.append_assoc]
    cases j with
    | underscore =>
      have hu : isLower '_' = false := by decide +kernel
      exact hu
    | gap run =>
      obtain ⟨hne, -⟩ := h.1
      have hrun := h.1.isGap_of_mem
      cases run with
      | nil => exact absurd rfl hne
      | cons c run =>
        have hc : isLower c = false := by
          rcases hrun c List.mem_cons_self with rfl | hb
          · decide +kernel
          · exact isLower_eq_false_of_isBlank hb
        exact hc
    | direct => exact startsLower_chars_append h.1.1 _

/-- **All words after the first**, each after one `_`. -/
theorem snakeFrom_continuation {a : Written} {more : List (Joint × Written)} (h : Joined a more) :
    snakeFrom a.style.leaves (continuation more) =
      more.flatMap fun p => '_' :: p.2.word.chars := by
  induction more generalizing a with
  | nil => rw [continuation, List.flatMap_nil, List.flatMap_nil, snakeFrom]
  | cons p more ih =>
    obtain ⟨hfits, hjoined⟩ := h
    rw [continuation, List.flatMap_cons, List.flatMap_cons, ← continuation,
      snakeFrom_joint hfits (startsLower_continuation hjoined), ih hjoined]

/-! ## Blanks around a name -/

theorem Written.isAlphanum_of_mem {a : Written} {c : Char} (h : c ∈ a.chars) :
    c.isAlphanum = true := by
  obtain ⟨w, style, letters⟩ := a
  have hsmall : ∀ d ∈ w.second :: w.rest, d.isAlphanum = true :=
    fun d hd => isAlphanum_of_small (Word.small_of_mem hd)
  cases style with
  | small =>
    rcases List.mem_cons.mp h with rfl | h
    · exact isAlphanum_of_isLower w.isLower_first
    · exact hsmall c h
  | initial =>
    rcases List.mem_cons.mp h with rfl | h
    · exact (toUpper_of_isLower w.isLower_first).1
    · exact hsmall c h
  | capitals =>
    obtain ⟨d, hd, rfl⟩ := List.mem_map.mp h
    exact (toUpper_of_isLower (List.all_eq_true.mp (letters rfl) d hd)).1

theorem Written.chars_ne_nil (a : Written) : a.chars ≠ [] := by
  obtain ⟨w, style, letters⟩ := a
  cases style <;> exact List.cons_ne_nil _ _

theorem isAlphanum_getLast? (a : Written) (more : List (Joint × Written)) :
    ∀ c ∈ (a.chars ++ continuation more).getLast?, c.isAlphanum = true := by
  induction more generalizing a with
  | nil =>
    intro c hc
    rw [continuation, List.flatMap_nil, List.append_nil] at hc
    exact Written.isAlphanum_of_mem (List.mem_of_getLast? hc)
  | cons p more ih =>
    intro c hc
    have hne : p.2.chars ++ continuation more ≠ [] := by simp [p.2.chars_ne_nil]
    rw [continuation, List.flatMap_cons, ← continuation, List.append_assoc,
      ← List.append_assoc a.chars, List.getLast?_append_of_ne_nil _ hne] at hc
    exact ih p.2 c hc

namespace Spelling

variable (x : Spelling)

theorem core_ne_nil : x.core ≠ [] := by
  simp [core, x.first.chars_ne_nil]

theorem trim_text : trim x.text.toList = x.core := by
  rw [text, String.toList_ofList]
  refine trim_append (List.all_eq_true.mp x.blank) x.core_ne_nil (fun c hc => ?_) (fun c hc => ?_)
  · rw [core, List.head?_append_of_ne_nil _ x.first.chars_ne_nil] at hc
    exact (isInner_of_isAlphanum (Written.isAlphanum_of_mem (List.mem_of_head? hc))).2.2
  · exact (isInner_of_isAlphanum (isAlphanum_getLast? x.first x.more c hc)).2.2

/-- **The name of a spelling** is its words in small letters, joined by `_`. -/
theorem snakeCase_text : snakeCase x.text = Word.name x.words := by
  have hcore : snakeFrom .separator x.core =
      x.first.word.chars ++ x.more.flatMap fun p => '_' :: p.2.word.chars := by
    rw [core, snakeFrom_separator_written x.first (startsLower_continuation x.joined),
      snakeFrom_continuation x.joined]
  have hsep : "_".toList = ['_'] := rfl
  apply String.toList_inj.mp
  rw [snakeCase, trim_text, hcore, Word.name, toList_intercalate_map, hsep, words, clause]
  simp [List.flatMap_map]

end Spelling

end QuerySieve.FieldName
