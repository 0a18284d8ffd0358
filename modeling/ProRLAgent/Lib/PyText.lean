import Mathlib.Data.Int.Notation
import Mathlib.Data.List.DropRight

set_option relaxedAutoImplicit false
set_option autoImplicit false

/-!
# Texts as Python has them

A text is the list of its characters. White space is what `str.isspace` counts as such. `int` reads
the digits of ASCII, with white space around them, a sign, and underscores between them.

## Main definitions

* `PyText.lstrip`, `PyText.strip` — a text without its outer white space.
* `PyText.str`, `PyText.int?` — an integer written and read.
* `PyText.padded` — a number written with at least two digits.

## Main results

* `PyText.strip_lstrip_append` — white space that is taken away before or put behind.
* `PyText.int?_str`, `PyText.int?_padded` — a written number is read back.
-/

namespace PyText

/-- Texts are equal if all their letters are. -/
instance lawfulBEqText : LawfulBEq (List Char) := inferInstance

/-! ## White space -/

/-- `c.isspace()`. -/
def isSpace (c : Char) : Bool :=
  c.toNat ∈ [0x20, 0x85, 0xa0, 0x1680, 0x2028, 0x2029, 0x202f, 0x205f, 0x3000] ∨
    9 ≤ c.toNat ∧ c.toNat ≤ 13 ∨ 0x1c ≤ c.toNat ∧ c.toNat ≤ 0x1f ∨
    0x2000 ≤ c.toNat ∧ c.toNat ≤ 0x200a

/-- `text.lstrip()`. -/
def lstrip (text : List Char) : List Char := text.dropWhile isSpace

/-- `text.rstrip()`. -/
def rstrip (text : List Char) : List Char := text.rdropWhile isSpace

/-- `text.strip()`. -/
def strip (text : List Char) : List Char := rstrip (lstrip text)

/-- What holds of every letter of a text, by looking at all of them. -/
lemma forall_of_all {p : Char → Prop} [DecidablePred p] {text : List Char}
    (h : (text.all fun c => decide (p c)) = true) : ∀ c ∈ text, p c :=
  fun c hc => of_decide_eq_true (List.all_eq_true.mp h c hc)

/-- White space behind a text is taken away. -/
lemma rstrip_append {space : List Char} (h : ∀ c ∈ space, isSpace c) (text : List Char) :
    rstrip (text ++ space) = rstrip text := by
  induction space using List.reverseRecOn generalizing text with
  | nil => rw [List.append_nil]
  | append_singleton space c ih =>
    rw [← List.append_assoc, rstrip, List.rdropWhile_concat_pos _ _ _ (h c (by simp))]
    exact ih (fun d hd => h d (by simp [hd])) text

/-- **White space around a text**: what is taken away before it or put behind it does not change the
rest. -/
theorem strip_lstrip_append {space : List Char} (h : ∀ c ∈ space, isSpace c) (text : List Char) :
    strip (lstrip (text ++ space)) = strip text := by
  rw [strip, lstrip, lstrip, List.dropWhile_idempotent, List.dropWhile_append]
  split_ifs with hempty
  · have hspace : space.dropWhile isSpace = [] := List.dropWhile_eq_nil_iff.mpr h
    rw [hspace, strip, lstrip, List.isEmpty_iff.mp hempty]
  · exact rstrip_append h _

/-- Taking away outer white space twice. -/
@[simp] lemma strip_strip (text : List Char) : strip (strip text) = strip text := by
  have hself : lstrip (strip text) = strip text := by
    rw [lstrip, List.dropWhile_eq_self_iff]
    intro hpos
    have hhead : strip text <+: lstrip text := List.rdropWhile_prefix _ _
    have hpos' : 0 < (lstrip text).length := hpos.trans_le hhead.length_le
    rw [hhead.getElem hpos]
    exact List.dropWhile_get_zero_not _ _ hpos'
  rw [strip, hself]
  exact List.rdropWhile_idempotent _ _

/-- White space before a text is taken away. -/
lemma lstrip_append {space : List Char} (h : ∀ c ∈ space, isSpace c) (text : List Char) :
    lstrip (space ++ text) = lstrip text := by
  rw [lstrip, List.dropWhile_append, List.dropWhile_eq_nil_iff.mpr h]
  rfl

/-- **White space around a text** is taken away. -/
theorem strip_append_append {before after : List Char} (hbefore : ∀ c ∈ before, isSpace c)
    (hafter : ∀ c ∈ after, isSpace c) (text : List Char) :
    strip (before ++ (text ++ after)) = strip text := by
  have hself (x : List Char) : strip (lstrip x) = strip x := by
    rw [strip, lstrip, lstrip, List.dropWhile_idempotent]
    rfl
  rw [← hself, lstrip_append hbefore, strip_lstrip_append hafter]

/-- A text is what `strip` leaves of it with white space around. -/
lemma exists_strip (text : List Char) :
    ∃ before after, text = before ++ (strip text ++ after) ∧
      (∀ c ∈ before, isSpace c) ∧ ∀ c ∈ after, isSpace c := by
  refine ⟨text.takeWhile isSpace, (lstrip text).rtakeWhile isSpace, ?_, ?_, ?_⟩
  · rw [strip, rstrip, List.rdropWhile_append_rtakeWhile, lstrip, List.takeWhile_append_dropWhile]
  · exact fun c hc => List.mem_takeWhile_imp hc
  · exact fun c hc => List.mem_rtakeWhile_imp hc

/-- A text that begins and ends with something else than white space. -/
lemma strip_cons_concat {c d : Char} (hc : isSpace c = false) (hd : isSpace d = false)
    (text : List Char) : strip (c :: (text ++ [d])) = c :: (text ++ [d]) := by
  have hleft : lstrip (c :: (text ++ [d])) = c :: (text ++ [d]) :=
    List.dropWhile_cons_of_neg (by simp [hc])
  rw [strip, hleft, rstrip, ← List.cons_append]
  exact List.rdropWhile_concat_neg _ _ _ (by simp [hd])

/-- A text with something else than white space. -/
lemma lstrip_ne_nil {text : List Char} {c : Char} (hc : c ∈ text) (h : isSpace c = false) :
    lstrip text ≠ [] := by
  intro hnil
  have hspace := List.dropWhile_eq_nil_iff.mp hnil c hc
  rw [h] at hspace
  cases hspace

/-- White space before a text that begins with something else. -/
lemma lstrip_append_cons {c : Char} (hc : isSpace c = false) (before text : List Char) :
    lstrip (before ++ c :: text) = lstrip before ++ c :: text := by
  rw [lstrip, lstrip, List.dropWhile_append]
  split_ifs with hempty
  · rw [List.isEmpty_iff.mp hempty, List.dropWhile_cons_of_neg (by simp [hc]), List.nil_append]
  · rfl

/-! ## Numbers -/

/-- `str(n)`. -/
def str : ℤ → List Char
  | .ofNat n => Nat.toDigits 10 n
  | .negSucc n => '-' :: Nat.toDigits 10 (n + 1)

/-- `f'{n:02d}'`. -/
def padded (n : ℕ) : List Char := if n < 10 then '0' :: Nat.toDigits 10 n else Nat.toDigits 10 n

/-- A number from its digits, with underscores between digits. -/
def natural? (text : List Char) : Option ℕ :=
  if (text.splitOn '_').all fun part => part ≠ [] ∧ part.all Char.isDigit then
    some (Nat.ofDigitChars 10 (text.filter (· ≠ '_')) 0)
  else none

/-- `int(text)`. -/
def int? (text : List Char) : Option ℤ :=
  match strip text with
  | '-' :: digits => (natural? digits).map fun n => -(n : ℤ)
  | '+' :: digits => (natural? digits).map Int.ofNat
  | digits => (natural? digits).map Int.ofNat

/-- Digits are read as their number. -/
lemma natural?_of_isDigit {text : List Char} (hne : text ≠ []) (h : ∀ c ∈ text, c.isDigit) :
    natural? text = some (Nat.ofDigitChars 10 text 0) := by
  have hunderscore : '_' ∉ text := fun hmem => absurd (h '_' hmem) (by decide)
  have hfilter : text.filter (· ≠ '_') = text :=
    List.filter_eq_self.mpr fun c hc => by
      have : c ≠ '_' := fun heq => hunderscore (heq ▸ hc)
      simpa using this
  rw [natural?, List.splitOn_eq_singleton hunderscore, hfilter, if_pos]
  simpa [hne] using h

/-- A digit is not white space and no sign. -/
lemma isSpace_of_isDigit {c : Char} (h : c.isDigit) : isSpace c = false ∧ c ≠ '-' ∧ c ≠ '+' := by
  have hrange : 48 ≤ c.toNat ∧ c.toNat ≤ 57 := by
    simpa [Char.isDigit, UInt32.le_iff_toNat_le] using h
  refine ⟨?_, ?_, ?_⟩
  · simp only [isSpace, List.mem_cons, List.not_mem_nil, or_false, decide_eq_false_iff_not]
    omega
  · rintro rfl
    exact absurd hrange (by decide)
  · rintro rfl
    exact absurd hrange (by decide)

/-- A text without white space. -/
lemma strip_of_forall {text : List Char} (h : ∀ c ∈ text, isSpace c = false) :
    strip text = text := by
  have hl : lstrip text = text := by
    rw [lstrip, List.dropWhile_eq_self_iff]
    intro hpos
    simp [h _ (List.getElem_mem hpos)]
  rw [strip, hl, rstrip, List.rdropWhile_eq_self_iff]
  intro hne
  simp [h _ (List.getLast_mem hne)]

/-- Digits are read as a number without a sign. -/
lemma int?_of_isDigit {text : List Char} (hne : text ≠ []) (h : ∀ c ∈ text, c.isDigit) :
    int? text = some (Nat.ofDigitChars 10 text 0 : ℕ) := by
  obtain ⟨c, cs, rfl⟩ := List.exists_cons_of_ne_nil hne
  obtain ⟨-, hminus, hplus⟩ := isSpace_of_isDigit (h c (by simp))
  rw [int?, strip_of_forall fun d hd => (isSpace_of_isDigit (h d hd)).1]
  split
  · next heq => exact absurd (List.cons.inj heq).1 hminus
  · next heq => exact absurd (List.cons.inj heq).1 hplus
  · rw [natural?_of_isDigit hne h]
    rfl

/-- The written digits of a number. -/
lemma isDigit_of_mem_toDigits {n : ℕ} : ∀ c ∈ Nat.toDigits 10 n, c.isDigit := fun _ hc =>
  Nat.isDigit_of_mem_toDigits (by decide) (by decide) hc

/-- The letters of a written integer. -/
lemma isDigit_or_of_mem_str {n : ℤ} {c : Char} (h : c ∈ str n) : c.isDigit ∨ c = '-' := by
  cases n with
  | ofNat n => exact Or.inl (isDigit_of_mem_toDigits c h)
  | negSucc n =>
    rcases List.mem_cons.mp h with rfl | h
    · exact Or.inr rfl
    · exact Or.inl (isDigit_of_mem_toDigits c h)

/-- **A written integer is read back.** -/
@[simp] theorem int?_str (n : ℤ) : int? (str n) = some n := by
  cases n with
  | ofNat n =>
    rw [str, int?_of_isDigit Nat.toDigits_ne_nil isDigit_of_mem_toDigits,
      Nat.ofDigitChars_ten_toDigits]
    rfl
  | negSucc n =>
    have hspace : ∀ c ∈ '-' :: Nat.toDigits 10 (n + 1), isSpace c = false := by
      intro c hc
      rcases List.mem_cons.mp hc with rfl | hc
      · decide
      · exact (isSpace_of_isDigit (isDigit_of_mem_toDigits c hc)).1
    rw [str, int?, strip_of_forall hspace]
    simp only [natural?_of_isDigit Nat.toDigits_ne_nil isDigit_of_mem_toDigits,
      Nat.ofDigitChars_ten_toDigits]
    rfl

/-- A padded number is read back. -/
theorem int?_padded (n : ℕ) : int? (padded n) = some (n : ℤ) := by
  rw [padded]
  split_ifs with hlt
  · rw [int?_of_isDigit (by simp), Nat.ofDigitChars_cons]
    · simp
    · intro c hc
      rcases List.mem_cons.mp hc with rfl | hc
      · decide
      · exact isDigit_of_mem_toDigits c hc
  · rw [int?_of_isDigit Nat.toDigits_ne_nil isDigit_of_mem_toDigits,
      Nat.ofDigitChars_ten_toDigits]
    rfl

/-- Different numbers are written differently. -/
theorem padded_injective : Function.Injective padded := fun m n h => by
  have hsame := congrArg int? h
  rw [int?_padded, int?_padded] at hsame
  exact_mod_cast Option.some.inj hsame

end PyText
