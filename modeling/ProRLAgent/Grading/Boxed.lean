import ProRLAgent.FnCall.Loaded
import ProRLAgent.Lib.Brackets
import ProRLAgent.Lib.Lines

set_option relaxedAutoImplicit false
set_option autoImplicit false

/-!
# The answer in a box

A judge compares the text inside the last `\\boxed{...}` of a response with the answer. The scan
begins at the last marker and counts braces; what stands before the marker does not count.

## Main definitions

* `ProRLAgent.Grading.extractAnswerFromBox` — `extract_answer_from_box` of
  `openhands/nvidia/llm_judge.py`.
* `ProRLAgent.Grading.BalancedBraces` — an answer whose braces are closed inside it.

## Main results

* `ProRLAgent.Grading.extractAnswerFromBox_boxed` — the answer is extracted as it was written.
-/

namespace ProRLAgent.Grading

open FnCall (Text)
open PyText Search

/-! ## The extraction -/

/-- `'\\boxed'`. -/
def boxedMark : Text := "\\boxed".toList

/-- `'\\fbox'`. -/
def fboxMark : Text := "\\fbox".toList

/-- The text up to the closing brace at which no brace is open. -/
def throughClosing (numLeftBracesOpen : ℤ) : Text → Option Text
  | [] => none
  | c :: text =>
    let opened := if c = '\x7b' then numLeftBracesOpen + 1 else numLeftBracesOpen
    let closed := if c = '\x7d' then opened - 1 else opened
    if c = '\x7d' ∧ closed = 0 then some [c] else (throughClosing closed text).map (c :: ·)

-- The equations of this function are generated here, not in each proof that unfolds it.
section

attribute [local simp] throughClosing

end

/-- What stands in the box at the beginning of a text. -/
def boxContent (boxType string : Text) : Option Text :=
  match throughClosing 0 string with
  | none => none
  | some retval =>
    let left := boxType ++ ['\x7b']
    if left <+: retval ∧ retval.getLast? = some '\x7d' then
      some (retval.drop left.length).dropLast
    else none

/-- **`extract_answer_from_box`.** -/
def extractAnswerFromBox (string : Text) : Option Text :=
  if strip string = [] then none
  else
    match fromLast boxedMark string with
    | some box => boxContent boxedMark box
    | none =>
      match fromLast fboxMark string with
      | some box => boxContent fboxMark box
      | none => none

/-! ## Balanced braces -/

/-- **Balanced braces**: as many are closed as are opened, and no prefix closes more. -/
def BalancedBraces (text : Text) : Prop :=
  text.count '\x7d' = text.count '\x7b' ∧ ∀ p, p <+: text → p.count '\x7d' ≤ p.count '\x7b'

/-- An opening brace is no closing one. -/
lemma isClose_of_isOpen : ∀ c : Char, (c == '\x7b') = true → (c == '\x7d') = false := by
  intro c h
  rw [beq_iff_eq] at h
  subst h
  rfl

/-- Behind an opening brace one more is open. -/
lemma throughClosing_open (k : ℤ) (text : Text) :
    throughClosing k ('\x7b' :: text) = (throughClosing (k + 1) text).map ('\x7b' :: ·) := by
  have hne : ¬ '\x7b' = '\x7d' := by decide
  rw [throughClosing]
  simp only [if_true, hne, if_false, false_and]

/-- The scan ends at a closing brace if it is the last one that is open. -/
lemma throughClosing_close (k : ℤ) (text : Text) :
    throughClosing k ('\x7d' :: text) =
      if k - 1 = 0 then some ['\x7d'] else (throughClosing (k - 1) text).map ('\x7d' :: ·) := by
  have hne : ¬ '\x7d' = '\x7b' := by decide
  rw [throughClosing]
  simp only [if_true, hne, if_false, true_and]

/-- The scan passes over a letter that is no brace. -/
lemma throughClosing_other {c : Char} (hopen : c ≠ '\x7b') (hclose : c ≠ '\x7d') (k : ℤ) (text : Text) :
    throughClosing k (c :: text) = (throughClosing k text).map (c :: ·) := by
  rw [throughClosing]
  simp only [hopen, hclose, if_false, false_and]

/-- The scan with some open braces looks for the brace that closes them. -/
lemma throughClosing_eq_closeOf (depth : ℕ) (text : Text) :
    throughClosing (depth + 1) text = (Brackets.closeOf (· == '\x7b') (· == '\x7d') depth text).map
      fun parts => parts.1 ++ ['\x7d'] := by
  induction text generalizing depth with
  | nil => rfl
  | cons c text ih =>
    rw [Brackets.closeOf]
    by_cases hopen : c = '\x7b'
    · subst hopen
      have hdepth : (depth : ℤ) + 1 + 1 = ((depth + 1 : ℕ) : ℤ) + 1 := rfl
      have hbrace : ('\x7b' == '\x7b') = true := rfl
      rw [throughClosing_open, hdepth, ih]
      simp only [hbrace, if_true, Option.map_map]
      rfl
    · rw [if_neg (by simpa using hopen)]
      by_cases hclose : c = '\x7d'
      · subst hclose
        have hbrace : ('\x7d' == '\x7d') = true := rfl
        rw [throughClosing_close]
        simp only [hbrace, if_true]
        rcases Nat.eq_zero_or_pos depth with rfl | hpos
        · rfl
        · have hdepth : (depth : ℤ) + 1 - 1 = ((depth - 1 : ℕ) : ℤ) + 1 := by omega
          have hne : ¬ ((depth - 1 : ℕ) : ℤ) + 1 = 0 := by omega
          rw [hdepth, if_neg hne, if_neg (by omega), ih, Option.map_map, Option.map_map]
          rfl
      · rw [if_neg (by simpa using hclose), throughClosing_other hopen hclose, ih, Option.map_map,
          Option.map_map]
        rfl

/-- **A box with balanced braces** holds what was written into it. -/
theorem boxContent_append {boxType s : Text} (hbox : '\x7b' ∉ boxType ∧ '\x7d' ∉ boxType)
    (hs : BalancedBraces s) (post : Text) :
    boxContent boxType (boxType ++ '\x7b' :: (s ++ '\x7d' :: post)) = some s := by
  have hclose : throughClosing 1 (s ++ '\x7d' :: post) = some (s ++ ['\x7d']) := by
    have hcount := (Brackets.closeOf_append_iff isClose_of_isOpen (beq_self_eq_true '\x7d') s post).mpr hs
    have hscan := throughClosing_eq_closeOf 0 (s ++ '\x7d' :: post)
    rw [hcount] at hscan
    exact hscan
  have hscan : throughClosing 0 (boxType ++ '\x7b' :: (s ++ '\x7d' :: post)) =
      some (boxType ++ '\x7b' :: (s ++ ['\x7d'])) := by
    induction boxType with
    | nil =>
      rw [List.nil_append, throughClosing_open, Int.zero_add, hclose]
      rfl
    | cons c boxType ih =>
      obtain ⟨hopen, hclose⟩ := hbox
      rw [List.mem_cons, not_or] at hopen hclose
      rw [List.cons_append, throughClosing_other (Ne.symm hopen.1) (Ne.symm hclose.1),
        ih ⟨hopen.2, hclose.2⟩]
      rfl
  rw [boxContent, hscan]
  have hparts : boxType ++ '\x7b' :: (s ++ ['\x7d']) = (boxType ++ ['\x7b']) ++ (s ++ ['\x7d']) := by
    simp
  have hlast : ((boxType ++ ['\x7b']) ++ (s ++ ['\x7d'])).getLast? = some '\x7d' := by
    rw [← List.append_assoc, List.getLast?_concat]
  simp only [hparts]
  rw [if_pos ⟨List.prefix_append _ _, hlast⟩, List.drop_left, List.dropLast_concat]

/-! ## The last box -/

/-- **The answer is extracted as it was written**, whatever stands before the last box, if no marker
stands inside the answer or behind the box. -/
theorem extractAnswerFromBox_boxed {s post : Text} (hs : BalancedBraces s)
    (hmark : ¬ boxedMark <:+: s) (hpost : ¬ boxedMark <:+: post) (pre : Text) :
    extractAnswerFromBox (pre ++ (boxedMark ++ '\x7b' :: (s ++ '\x7d' :: post))) = some s := by
  obtain ⟨c, tail, htail⟩ : ∃ c tail, boxedMark = c :: tail := ⟨_, _, rfl⟩
  have hno : ¬ boxedMark <:+: tail ++ '\x7b' :: (s ++ '\x7d' :: post) := by
    intro hocc
    rcases infix_or_infix_of_notMem (by decide) (by decide) hocc with h | h
    · have hle := h.length_le
      rw [htail, List.length_cons] at hle
      omega
    · rcases infix_or_infix_of_notMem (by decide) (by decide) h with h | h
      · exact hmark h
      · exact hpost h
  have hlast : fromLast boxedMark (pre ++ (boxedMark ++ '\x7b' :: (s ++ '\x7d' :: post))) =
      some (boxedMark ++ '\x7b' :: (s ++ '\x7d' :: post)) := by
    have hprefix := List.prefix_append boxedMark ('\x7b' :: (s ++ '\x7d' :: post))
    rw [htail, List.cons_append] at hprefix ⊢
    rw [← htail] at hprefix ⊢
    exact fromLast_append hprefix hno pre
  have hblank : strip (pre ++ (boxedMark ++ '\x7b' :: (s ++ '\x7d' :: post))) ≠ [] := by
    rw [Ne, strip_eq_nil_iff, ink_eq_nil_iff]
    intro h
    exact absurd (h '\x7b' (by simp)) (by decide)
  rw [extractAnswerFromBox, if_neg hblank, hlast]
  exact boxContent_append (by decide) hs post

/-- A fraction in a box. -/
theorem extractAnswerFromBox_boxed_fraction :
    extractAnswerFromBox "so \\boxed\x7b\\frac\x7b1\x7d\x7b2\x7d\x7d.".toList =
      some "\\frac\x7b1\x7d\x7b2\x7d".toList := by
  have hs : BalancedBraces "\\frac\x7b1\x7d\x7b2\x7d".toList :=
    (Brackets.closeOf_append_iff isClose_of_isOpen (beq_self_eq_true '\x7d') _ []).mp (by decide)
  exact extractAnswerFromBox_boxed hs (by decide) (show ¬ boxedMark <:+: ".".toList by decide)
    "so ".toList

end ProRLAgent.Grading
