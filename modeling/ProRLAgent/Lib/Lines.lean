import ProRLAgent.Lib.PyText
import ProRLAgent.Lib.Search

set_option relaxedAutoImplicit false
set_option autoImplicit false

/-!
# Lines and pieces of a text

`splitlines` cuts a text at its line ends, of which Python knows more than the line feed, and
`joinLines` puts lines together with line feeds. `lineFeeds` writes every carriage return as a line
feed. The `ink` of a text is what is left without its white space: what is cut off, stripped or
joined with white space keeps it. `split` cuts a text at every occurrence of a word, from the left.

## Main definitions

* `PyText.splitlines`, `PyText.joinLines` — the lines of a text, and lines together.
* `PyText.lineFeeds` — a text with line feeds only.
* `PyText.ink` — a text without its white space.
* `Search.split` — the pieces of a text between the occurrences of a word.

## Main results

* `PyText.splitlines_joinLines`, `PyText.joinLines_splitlines` — joining and splitting.
* `PyText.strip_lineFeeds` — stripping does not depend on the kind of line ends.
* `Search.not_infix_of_mem_split` — the word does not occur in a piece.
-/

namespace PyText

/-! ## Lines -/

/-- The letters at which `str.splitlines` ends a line. -/
def isLineEnd (c : Char) : Bool :=
  10 ≤ c.toNat ∧ c.toNat ≤ 13 ∨ 0x1c ≤ c.toNat ∧ c.toNat ≤ 0x1e ∨
    c.toNat ∈ [0x85, 0x2028, 0x2029]

/-- A letter before the first of some lines. -/
def consLine (c : Char) : List (List Char) → List (List Char)
  | [] => [[c]]
  | line :: lines => (c :: line) :: lines

/-- `text.splitlines()`. -/
def splitlines : List Char → List (List Char)
  | [] => []
  | '\r' :: '\n' :: text => [] :: splitlines text
  | c :: text => if isLineEnd c then [] :: splitlines text else consLine c (splitlines text)

example : splitlines "a\r\n\nb\x0bc\n".toList = [['a'], [], ['b'], ['c']] := by decide

/-- `'\n'.join(lines)`. -/
def joinLines (lines : List (List Char)) : List Char := ['\n'].intercalate lines

/-- `text.replace('\r\n', '\n').replace('\r', '\n')`. -/
def lineFeeds : List Char → List Char
  | [] => []
  | '\r' :: '\n' :: text => '\n' :: lineFeeds text
  | c :: text => (if c = '\r' then '\n' else c) :: lineFeeds text

/-- The letters of a text that are not white space. -/
def ink (text : List Char) : List Char := text.filter fun c => !isSpace c

-- The equations of these functions are generated here, not in each proof that unfolds them.
section

attribute [local simp] consLine splitlines lineFeeds

end

/-! ## White space and line feeds -/

@[simp] lemma lineFeeds_nil : lineFeeds [] = [] := rfl

/-- A line end of two letters. -/
lemma lineFeeds_crlf (text : List Char) :
    lineFeeds ('\r' :: '\n' :: text) = '\n' :: lineFeeds text := rfl

/-- A letter that does not begin a line end. -/
lemma lineFeeds_cons {c : Char} (h : c ≠ '\r') (text : List Char) :
    lineFeeds (c :: text) = c :: lineFeeds text := by
  cases text with
  | nil => simp [lineFeeds, h]
  | cons d text =>
    rw [lineFeeds, if_neg h]
    rintro text' rfl
    exact absurd rfl h

/-- A carriage return alone. -/
lemma lineFeeds_return {text : List Char} (h : ∀ c ∈ text.head?, c ≠ '\n') :
    lineFeeds ('\r' :: text) = '\n' :: lineFeeds text := by
  cases text with
  | nil => rfl
  | cons d text =>
    rw [lineFeeds, if_pos rfl]
    rintro text' -
    intro heq
    exact h '\n' (by simp [heq]) rfl

/-- Two texts between which no line end of two letters stands. -/
lemma lineFeeds_append {x y : List Char}
    (h : (∀ c ∈ x.getLast?, c ≠ '\r') ∨ ∀ c ∈ y.head?, c ≠ '\n') :
    lineFeeds (x ++ y) = lineFeeds x ++ lineFeeds y := by
  fun_induction lineFeeds x with
  | case1 => rfl
  | case2 x ih =>
    rw [List.cons_append, List.cons_append, lineFeeds_crlf, List.cons_append, ih]
    cases x with
    | nil => exact h.imp_left fun _ => by simp
    | cons d x => simpa using h
  | case3 c x hx ih =>
    have htail : (∀ c ∈ x.getLast?, c ≠ '\r') ∨ ∀ c ∈ y.head?, c ≠ '\n' := by
      cases x with
      | nil => exact h.imp_left fun _ => by simp
      | cons d x => simpa using h
    rw [List.cons_append, List.cons_append, ← ih htail]
    by_cases hc : c = '\r'
    · subst hc
      rw [if_pos rfl]
      refine lineFeeds_return ?_
      cases x with
      | nil =>
        rcases h with h | h
        · exact absurd rfl (h '\r' (by simp))
        · simpa using h
      | cons d x =>
        intro e he hn
        simp only [List.cons_append, List.head?_cons, Option.mem_some_iff] at he
        exact hx x rfl (by rw [he, hn])
    · rw [if_neg hc, lineFeeds_cons hc]

/-- The letters of a text with line feeds. -/
lemma mem_of_mem_lineFeeds {text : List Char} {c : Char} (h : c ∈ lineFeeds text) :
    (c ∈ text ∨ c = '\n') ∧ c ≠ '\r' := by
  fun_induction lineFeeds text with
  | case1 => cases h
  | case2 text ih =>
    rcases List.mem_cons.mp h with rfl | h
    · exact ⟨Or.inr rfl, by decide⟩
    · obtain ⟨hmem, hc⟩ := ih h
      exact ⟨hmem.imp_left fun h => by simp [h], hc⟩
  | case3 d text hx ih =>
    rcases List.mem_cons.mp h with heq | h
    · by_cases hd : d = '\r'
      · rw [if_pos hd] at heq
        exact ⟨Or.inr heq, by rw [heq]; decide⟩
      · rw [if_neg hd] at heq
        exact ⟨Or.inl (by simp [heq]), by rw [heq]; exact hd⟩
    · obtain ⟨hmem, hc⟩ := ih h
      exact ⟨hmem.imp_left fun h => by simp [h], hc⟩

/-- A text without carriage returns. -/
lemma lineFeeds_of_notMem {text : List Char} (h : '\r' ∉ text) : lineFeeds text = text := by
  induction text with
  | nil => rfl
  | cons c text ih =>
    rw [List.mem_cons, not_or] at h
    rw [lineFeeds_cons (fun heq => h.1 heq.symm), ih h.2]

@[simp] lemma lineFeeds_lineFeeds (text : List Char) :
    lineFeeds (lineFeeds text) = lineFeeds text :=
  lineFeeds_of_notMem fun h => (mem_of_mem_lineFeeds h).2 rfl

/-- White space stays white space. -/
lemma isSpace_of_mem_lineFeeds {space : List Char} (h : ∀ c ∈ space, isSpace c) :
    ∀ c ∈ lineFeeds space, isSpace c := by
  intro c hc
  rcases (mem_of_mem_lineFeeds hc).1 with hmem | rfl
  · exact h c hmem
  · decide

/-- White space at the beginning goes away before or after the change of the line ends. -/
lemma lstrip_lineFeeds (text : List Char) : lstrip (lineFeeds text) = lineFeeds (lstrip text) := by
  fun_induction lineFeeds text with
  | case1 => rfl
  | case2 text ih => exact ih
  | case3 c text hx ih =>
    by_cases hc : c = '\r'
    · subst hc
      exact ih
    · rw [if_neg hc]
      by_cases hspace : isSpace c
      · have hdrop (x : List Char) : lstrip (c :: x) = lstrip x := List.dropWhile_cons_of_pos hspace
        rw [hdrop, hdrop, ih]
      · have hkeep (x : List Char) : lstrip (c :: x) = c :: x := List.dropWhile_cons_of_neg hspace
        rw [hkeep, hkeep, lineFeeds_cons hc]

/-- A text that ends with something else than white space. -/
lemma rstrip_concat {d : Char} (hd : isSpace d = false) (init : List Char) :
    rstrip (init ++ [d]) = init ++ [d] := List.rdropWhile_concat_neg _ _ _ (by simp [hd])

/-- A text without white space at its end is empty or ends with something else. -/
lemma rstrip_cases (text : List Char) :
    rstrip text = [] ∨ ∃ init d, rstrip text = init ++ [d] ∧ isSpace d = false := by
  rcases List.eq_nil_or_concat (rstrip text) with hnil | ⟨init, d, hlast⟩
  · exact Or.inl hnil
  · rw [List.concat_eq_append] at hlast
    refine Or.inr ⟨init, d, hlast, ?_⟩
    have hne : text.rdropWhile isSpace ≠ [] := by
      change rstrip text ≠ []
      rw [hlast]
      simp
    have hnot := List.rdropWhile_last_not isSpace text hne
    have hd : (text.rdropWhile isSpace).getLast hne = d := by
      have heq : text.rdropWhile isSpace = init ++ [d] := hlast
      simp [heq]
    rw [hd] at hnot
    simpa using hnot

/-- White space at the end goes away before or after the change of the line ends. -/
lemma rstrip_lineFeeds (text : List Char) : rstrip (lineFeeds text) = lineFeeds (rstrip text) := by
  have htext : rstrip text ++ text.rtakeWhile isSpace = text := List.rdropWhile_append_rtakeWhile
  have hspace : ∀ c ∈ lineFeeds (text.rtakeWhile isSpace), isSpace c :=
    isSpace_of_mem_lineFeeds fun c hc => List.mem_rtakeWhile_imp hc
  have hnot {d : Char} (hd : isSpace d = false) : d ≠ '\r' ∧ d ≠ '\n' :=
    ⟨by rintro rfl; revert hd; decide, by rintro rfl; revert hd; decide⟩
  rcases rstrip_cases text with hnil | ⟨init, d, hlast, hd⟩
  · rw [hnil, List.nil_append] at htext
    rw [htext] at hspace
    rw [hnil, lineFeeds_nil, rstrip, List.rdropWhile_eq_nil_iff]
    exact hspace
  · have hsplit : lineFeeds text = lineFeeds (init ++ [d]) ++
        lineFeeds (text.rtakeWhile isSpace) := by
      rw [← hlast, ← lineFeeds_append, htext]
      refine Or.inl fun c hc => ?_
      rw [hlast, List.getLast?_concat, Option.mem_some_iff] at hc
      exact hc ▸ (hnot hd).1
    have hend : lineFeeds (init ++ [d]) = lineFeeds init ++ [d] := by
      rw [lineFeeds_append (Or.inr fun c hc => ?_), lineFeeds_cons (hnot hd).1, lineFeeds_nil]
      rw [List.head?_cons, Option.mem_some_iff] at hc
      exact hc ▸ (hnot hd).2
    rw [hsplit, rstrip_append hspace, hlast, hend, rstrip_concat hd]

/-- **Outer white space and line ends** can be taken care of in either order. -/
theorem strip_lineFeeds (text : List Char) : strip (lineFeeds text) = lineFeeds (strip text) := by
  rw [strip, strip, lstrip_lineFeeds, rstrip_lineFeeds]

/-- White space behind a text is taken away. -/
lemma strip_append {after : List Char} (h : ∀ c ∈ after, isSpace c) (text : List Char) :
    strip (text ++ after) = strip text := by
  have hnil : ∀ c ∈ ([] : List Char), isSpace c := by simp
  exact strip_append_append hnil h text

/-- White space before a text is taken away. -/
lemma strip_append_left {before : List Char} (h : ∀ c ∈ before, isSpace c) (text : List Char) :
    strip (before ++ text) = strip text := by
  rw [strip, lstrip_append h, strip]

/-! ## Ink -/

@[simp] lemma ink_append (x y : List Char) : ink (x ++ y) = ink x ++ ink y := List.filter_append ..

/-- White space has no ink. -/
lemma ink_eq_nil_iff {text : List Char} : ink text = [] ↔ ∀ c ∈ text, isSpace c := by
  simp [ink, List.filter_eq_nil_iff]

/-- Stripping takes no ink away. -/
@[simp] lemma ink_strip (text : List Char) : ink (strip text) = ink text := by
  obtain ⟨before, after, htext, hbefore, hafter⟩ := exists_strip text
  conv_rhs => rw [htext]
  rw [ink_append, ink_append, ink_eq_nil_iff.2 hbefore, ink_eq_nil_iff.2 hafter,
    List.nil_append, List.append_nil]

/-- Stripping at the end takes no ink away. -/
@[simp] lemma ink_rstrip (text : List Char) : ink (rstrip text) = ink text := by
  induction text using List.reverseRecOn with
  | nil => rfl
  | append_singleton text d ih =>
    cases hd : isSpace d with
    | false => rw [rstrip_concat hd]
    | true =>
      have hink : ink [d] = [] := ink_eq_nil_iff.2 (by simpa using hd)
      rw [rstrip, List.rdropWhile_concat_pos _ _ _ hd, ← rstrip, ih, ink_append, hink,
        List.append_nil]

/-- A text without ink is empty once it is stripped. -/
lemma strip_eq_nil_iff {text : List Char} : strip text = [] ↔ ink text = [] := by
  constructor
  · intro h
    rw [← ink_strip, h]
    rfl
  · intro h
    have hl : lstrip text = [] := List.dropWhile_eq_nil_iff.mpr (ink_eq_nil_iff.1 h)
    rw [strip, hl]
    rfl

/-- Line ends have no ink. -/
@[simp] lemma ink_lineFeeds (text : List Char) : ink (lineFeeds text) = ink text := by
  have hreturn : isSpace '\r' = true := by decide
  have hfeed : isSpace '\n' = true := by decide
  fun_induction lineFeeds text with
  | case1 => rfl
  | case2 text ih => simpa [ink, hreturn, hfeed] using ih
  | case3 c text hx ih =>
    by_cases hc : c = '\r'
    · subst hc
      simpa [ink, hreturn, hfeed] using ih
    · rw [if_neg hc]
      simp only [ink, List.filter_cons] at ih ⊢
      rw [ih]

/-! ## Lines that are joined -/

/-- A line end is white space. -/
lemma isSpace_of_isLineEnd {c : Char} (h : isLineEnd c = true) : isSpace c = true := by
  simp only [isLineEnd, isSpace, List.mem_cons, List.not_mem_nil, or_false,
    decide_eq_true_eq] at h ⊢
  omega

/-- A letter inside a line. -/
lemma splitlines_cons {c : Char} (h : isLineEnd c = false) (text : List Char) :
    splitlines (c :: text) = consLine c (splitlines text) := by
  have hc : c ≠ '\r' := by
    rintro rfl
    revert h
    decide
  cases text with
  | nil => simp [splitlines, h]
  | cons d text =>
    rw [splitlines, h, if_neg Bool.false_ne_true]
    rintro text' rfl
    exact absurd rfl hc

/-- A line feed ends a line. -/
lemma splitlines_newline (text : List Char) :
    splitlines ('\n' :: text) = [] :: splitlines text := by
  cases text with
  | nil => rfl
  | cons d text => rfl

/-- The first line of a text. -/
lemma splitlines_append {line : List Char} (h : ∀ c ∈ line, isLineEnd c = false)
    (text : List Char) : splitlines (line ++ '\n' :: text) = line :: splitlines text := by
  induction line with
  | nil => exact splitlines_newline text
  | cons c line ih =>
    rw [List.forall_mem_cons] at h
    rw [List.cons_append, splitlines_cons h.1, ih h.2]
    rfl

/-- A text of one line. -/
lemma splitlines_line {line : List Char} (hne : line ≠ []) (h : ∀ c ∈ line, isLineEnd c = false) :
    splitlines line = [line] := by
  induction line with
  | nil => exact absurd rfl hne
  | cons c line ih =>
    rw [List.forall_mem_cons] at h
    rw [splitlines_cons h.1]
    rcases eq_or_ne line [] with rfl | hne
    · rfl
    · rw [ih hne h.2]
      rfl

/-- A text has lines unless it is empty. -/
lemma splitlines_eq_nil_iff {text : List Char} : splitlines text = [] ↔ text = [] := by
  fun_cases splitlines text with
  | case1 => simp
  | case2 text => simp
  | case3 c text hx hc => simp
  | case4 c text hx hc => cases splitlines text <;> simp [consLine]

/-- No line end is in a line. -/
lemma isLineEnd_of_mem_splitlines {text line : List Char} (h : line ∈ splitlines text) :
    ∀ c ∈ line, isLineEnd c = false := by
  fun_induction splitlines text generalizing line with
  | case1 => cases h
  | case2 text ih =>
    rcases List.mem_cons.mp h with rfl | h
    · simp
    · exact ih h
  | case3 c text hx hc ih =>
    rcases List.mem_cons.mp h with rfl | h
    · simp
    · exact ih h
  | case4 c text hx hc ih =>
    have hc : isLineEnd c = false := Bool.eq_false_iff.mpr hc
    rcases hlines : splitlines text with _ | ⟨first, lines⟩
    · rw [hlines] at h
      obtain rfl := List.mem_singleton.mp h
      simpa using hc
    · rw [hlines] at h ih
      rcases List.mem_cons.mp h with rfl | h
      · exact List.forall_mem_cons.mpr ⟨hc, ih List.mem_cons_self⟩
      · exact ih (List.mem_cons_of_mem _ h)

@[simp] lemma joinLines_nil : joinLines [] = [] := rfl

@[simp] lemma joinLines_singleton (line : List Char) : joinLines [line] = line := by
  simp [joinLines, List.intercalate]

/-- A line before others. -/
lemma joinLines_cons (line : List Char) {lines : List (List Char)} (h : lines ≠ []) :
    joinLines (line :: lines) = line ++ '\n' :: joinLines lines := by
  obtain ⟨next, lines, rfl⟩ := List.exists_cons_of_ne_nil h
  simp [joinLines, List.intercalate]

/-- **Lines that are joined are split again**, unless the last one is empty. -/
theorem splitlines_joinLines {lines : List (List Char)}
    (h : ∀ line ∈ lines, ∀ c ∈ line, isLineEnd c = false) (hlast : lines.getLast? ≠ some []) :
    splitlines (joinLines lines) = lines := by
  induction lines with
  | nil => rfl
  | cons line lines ih =>
    rw [List.forall_mem_cons] at h
    rcases eq_or_ne lines [] with rfl | hne
    · rw [joinLines_singleton]
      exact splitlines_line (by simpa using hlast) h.1
    · rw [joinLines_cons line hne, splitlines_append h.1, ih h.2]
      rwa [List.getLast?_cons_of_ne_nil hne] at hlast

/-- **A text is joined from its lines** if it has no other line ends than line feeds and does not
end with one. -/
theorem joinLines_splitlines {text : List Char} (h : ∀ c ∈ text, isLineEnd c = true → c = '\n')
    (hlast : text.getLast? ≠ some '\n') : joinLines (splitlines text) = text := by
  induction text with
  | nil => rfl
  | cons c text ih =>
    rw [List.forall_mem_cons] at h
    rcases eq_or_ne text [] with rfl | hne
    · have hc : isLineEnd c = false := by
        rw [Bool.eq_false_iff]
        intro hc
        exact hlast (by rw [h.1 hc]; rfl)
      rw [splitlines_cons hc]
      rfl
    · rw [List.getLast?_cons_of_ne_nil hne] at hlast
      have ih := ih h.2 hlast
      have hlines : splitlines text ≠ [] := fun heq => hne (splitlines_eq_nil_iff.1 heq)
      by_cases hc : isLineEnd c = true
      · rw [h.1 hc, splitlines_newline, joinLines_cons _ hlines, ih]
        rfl
      · rw [splitlines_cons (Bool.eq_false_iff.mpr hc)]
        obtain ⟨first, lines, heq⟩ := List.exists_cons_of_ne_nil hlines
        rw [heq] at ih ⊢
        rw [← ih, consLine]
        rcases eq_or_ne lines [] with rfl | hnext
        · simp
        · rw [joinLines_cons _ hnext, joinLines_cons _ hnext, List.cons_append]

/-- Lines that are joined have the ink of the lines. -/
lemma ink_joinLines (lines : List (List Char)) : ink (joinLines lines) = ink lines.flatten := by
  induction lines with
  | nil => rfl
  | cons line lines ih =>
    rcases eq_or_ne lines [] with rfl | hne
    · simp
    · have hfeed : ink ('\n' :: joinLines lines) = ink (joinLines lines) := rfl
      rw [joinLines_cons line hne, ink_append, hfeed, ih, List.flatten_cons, ink_append]

/-- The lines of a text have its ink. -/
@[simp] lemma ink_flatten_splitlines (text : List Char) :
    ink (splitlines text).flatten = ink text := by
  have hend {c : Char} (hc : isLineEnd c = true) (text : List Char) : ink (c :: text) = ink text :=
    List.filter_cons_of_neg (by simp [isSpace_of_isLineEnd hc])
  fun_induction splitlines text with
  | case1 => rfl
  | case2 text ih => exact ih
  | case3 c text hx hc ih =>
    rw [List.flatten_cons, List.nil_append, ih, hend hc]
  | case4 c text hx hc ih =>
    have hflatten : (consLine c (splitlines text)).flatten = c :: (splitlines text).flatten := by
      cases splitlines text <;> rfl
    rw [hflatten]
    simp only [ink, List.filter_cons] at ih ⊢
    rw [ih]

/-- The last line of a text that does not end with a line end. -/
lemma getLast?_splitlines_ne {text : List Char} {d : Char} (hd : text.getLast? = some d)
    (h : isLineEnd d = false) : (splitlines text).getLast? ≠ some [] := by
  have hlines {text : List Char} (hne : text ≠ []) : splitlines text ≠ [] :=
    fun heq => hne (splitlines_eq_nil_iff.1 heq)
  fun_induction splitlines text with
  | case1 => cases hd
  | case2 text ih =>
    rcases eq_or_ne text [] with rfl | hne
    · obtain rfl : '\n' = d := by simpa using hd
      exact absurd h (by decide)
    · rw [List.getLast?_cons_cons, List.getLast?_cons_of_ne_nil hne] at hd
      rw [List.getLast?_cons_of_ne_nil (hlines hne)]
      exact ih hd
  | case3 c text hx hc ih =>
    rcases eq_or_ne text [] with rfl | hne
    · obtain rfl : c = d := by simpa using hd
      rw [h] at hc
      cases hc
    · rw [List.getLast?_cons_of_ne_nil hne] at hd
      rw [List.getLast?_cons_of_ne_nil (hlines hne)]
      exact ih hd
  | case4 c text hx hc ih =>
    rcases eq_or_ne text [] with rfl | hne
    · simp [splitlines, consLine]
    · rw [List.getLast?_cons_of_ne_nil hne] at hd
      obtain ⟨first, lines, heq⟩ := List.exists_cons_of_ne_nil (hlines hne)
      have ih := ih hd
      rw [heq] at ih ⊢
      rcases eq_or_ne lines [] with rfl | hnext
      · simp [consLine]
      · rw [consLine, List.getLast?_cons_of_ne_nil hnext]
        rwa [List.getLast?_cons_of_ne_nil hnext] at ih

/-- The letters of lines that are joined. -/
lemma mem_joinLines {lines : List (List Char)} {c : Char} (h : c ∈ joinLines lines) :
    c = '\n' ∨ ∃ line ∈ lines, c ∈ line := by
  induction lines with
  | nil => cases h
  | cons line lines ih =>
    rcases eq_or_ne lines [] with rfl | hne
    · exact Or.inr ⟨line, List.mem_cons_self, by simpa using h⟩
    · rw [joinLines_cons line hne, List.mem_append, List.mem_cons] at h
      rcases h with h | h | h
      · exact Or.inr ⟨line, List.mem_cons_self, h⟩
      · exact Or.inl h
      · exact (ih h).imp_right fun ⟨l, hl, hc⟩ => ⟨l, List.mem_cons_of_mem _ hl, hc⟩

/-! ## Lengths -/

/-- Line feeds are not longer. -/
lemma length_lineFeeds_le (text : List Char) : (lineFeeds text).length ≤ text.length := by
  fun_induction lineFeeds text with
  | case1 => exact le_rfl
  | case2 text ih =>
    simp only [List.length_cons]
    omega
  | case3 c text hx ih =>
    simp only [List.length_cons]
    omega

/-- A stripped text is not longer. -/
lemma length_strip_le (text : List Char) : (strip text).length ≤ text.length :=
  (List.rdropWhile_prefix _ _).length_le.trans (List.dropWhile_suffix _).length_le

/-- Lines that are joined again are not longer. -/
lemma length_joinLines_splitlines_le (text : List Char) :
    (joinLines (splitlines text)).length ≤ text.length := by
  have hcons (line : List Char) (lines : List (List Char)) :
      (joinLines (line :: lines)).length ≤ line.length + ((joinLines lines).length + 1) := by
    rcases eq_or_ne lines [] with rfl | hne
    · simp
    · rw [joinLines_cons line hne, List.length_append, List.length_cons]
  fun_induction splitlines text with
  | case1 => exact le_rfl
  | case2 text ih =>
    have hle := hcons [] (splitlines text)
    simp only [List.length_nil, List.length_cons] at hle ⊢
    omega
  | case3 c text hx hc ih =>
    have hle := hcons [] (splitlines text)
    simp only [List.length_nil, List.length_cons] at hle ⊢
    omega
  | case4 c text hx hc ih =>
    have hfirst : (joinLines (consLine c (splitlines text))).length =
        (joinLines (splitlines text)).length + 1 := by
      rcases splitlines text with _ | ⟨line, lines⟩
      · simp [consLine]
      · rcases eq_or_ne lines [] with rfl | hne
        · simp [consLine]
        · rw [consLine, joinLines_cons _ hne, joinLines_cons _ hne, List.cons_append,
            List.length_cons]
    rw [hfirst, List.length_cons]
    omega

/-- The last lines are an end of all lines. -/
lemma joinLines_drop_isSuffix (k : ℕ) (lines : List (List Char)) :
    joinLines (lines.drop k) <:+ joinLines lines := by
  induction k generalizing lines with
  | zero => exact List.suffix_rfl
  | succ k ih =>
    rcases lines with _ | ⟨line, lines⟩
    · exact List.suffix_rfl
    · refine (ih lines).trans ?_
      rcases eq_or_ne lines [] with rfl | hne
      · exact List.nil_suffix
      · rw [joinLines_cons line hne]
        exact (List.suffix_cons _ _).trans (List.suffix_append _ _)

/-- Fewer lines are not longer. -/
lemma length_joinLines_drop_le (k : ℕ) (lines : List (List Char)) :
    (joinLines (lines.drop k)).length ≤ (joinLines lines).length :=
  (joinLines_drop_isSuffix k lines).length_le

end PyText

namespace Search

variable {α : Type} [DecidableEq α]

/-! ## Pieces -/

/-- The pieces of a text between the occurrences of a word: the first `skip` letters belong to an
occurrence. -/
def splitFrom (word : List α) : ℕ → List α → List (List α)
  | _, [] => [[]]
  | skip + 1, _ :: text => splitFrom word skip text
  | 0, c :: text =>
    if word <+: c :: text then [] :: splitFrom word (word.length - 1) text
    else (splitFrom word 0 text).modifyHead (c :: ·)

/-- `text.split(word)`. -/
def split (word text : List α) : List (List α) := splitFrom word 0 text

example : split [0, 0] [1, 0, 0, 0, 2] = [[1], [0, 2]] := by decide

section

attribute [local simp] splitFrom

end

/-- The first piece is a beginning of the text, the others are parts of it, and the word occurs in
none of them. -/
lemma splitFrom_spec {word : List α} (hword : word ≠ []) (skip : ℕ) (text : List α) :
    ∃ piece pieces, splitFrom word skip text = piece :: pieces ∧ piece <+: text.drop skip ∧
      (∀ p ∈ pieces, p <:+: text) ∧ ∀ p ∈ piece :: pieces, ¬ word <:+: p := by
  have hnil : ¬ word <:+: [] := fun h => hword (List.infix_nil.mp h)
  fun_induction splitFrom word skip text with
  | case1 skip => exact ⟨[], [], rfl, List.nil_prefix, by simp, by simpa using hnil⟩
  | case2 skip c text ih =>
    obtain ⟨piece, pieces, heq, hpiece, hpart, hnot⟩ := ih
    exact ⟨piece, pieces, heq, hpiece, fun p hp => (hpart p hp).trans (List.infix_cons_iff.mpr
      (Or.inr List.infix_rfl)), hnot⟩
  | case3 c text hprefix ih =>
    obtain ⟨piece, pieces, heq, hpiece, hpart, hnot⟩ := ih
    have htext : text <:+: c :: text := (List.suffix_cons c text).isInfix
    refine ⟨[], piece :: pieces, by rw [heq], List.nil_prefix, ?_, ?_⟩
    · rw [List.forall_mem_cons]
      exact ⟨(hpiece.isInfix.trans (List.drop_suffix _ _).isInfix).trans htext,
        fun p hp => (hpart p hp).trans htext⟩
    · rw [List.forall_mem_cons]
      exact ⟨hnil, hnot⟩
  | case4 c text hprefix ih =>
    obtain ⟨piece, pieces, heq, hpiece, hpart, hnot⟩ := ih
    rw [List.forall_mem_cons] at hnot
    have hhead : c :: piece <+: c :: text := List.cons_prefix_cons.mpr ⟨rfl, hpiece⟩
    refine ⟨c :: piece, pieces, by rw [heq]; rfl, hhead,
      fun p hp => (hpart p hp).trans (List.suffix_cons c text).isInfix, ?_⟩
    rw [List.forall_mem_cons, List.infix_cons_iff]
    exact ⟨fun h => h.elim (fun h => hprefix (h.trans hhead)) hnot.1, hnot.2⟩

/-- **The word does not occur in a piece**, and a piece is a part of the text. -/
theorem not_infix_of_mem_split {word text piece : List α} (hword : word ≠ [])
    (h : piece ∈ split word text) : ¬ word <:+: piece ∧ piece <:+: text := by
  obtain ⟨first, pieces, heq, hfirst, hpart, hnot⟩ := splitFrom_spec hword 0 text
  rw [split, heq] at h
  refine ⟨hnot piece h, ?_⟩
  rcases List.mem_cons.mp h with rfl | h
  · exact hfirst.isInfix
  · exact hpart piece h

/-- A text in which the word does not occur is one piece. -/
lemma split_of_not_infix {word text : List α} (h : ¬ word <:+: text) :
    split word text = [text] := by
  induction text with
  | nil => rfl
  | cons c text ih =>
    rw [List.infix_cons_iff, not_or] at h
    have ih : splitFrom word 0 text = [text] := ih h.2
    rw [split, splitFrom, if_neg h.1, ih]
    rfl

/-- A text in which the word occurs is more than one piece. -/
lemma two_le_length_split {word text : List α} (hword : word ≠ []) (h : word <:+: text) :
    2 ≤ (split word text).length := by
  induction text with
  | nil => exact absurd (List.infix_nil.mp h) hword
  | cons c text ih =>
    rw [split, splitFrom]
    split_ifs with hhead
    · obtain ⟨piece, pieces, heq, -⟩ := splitFrom_spec hword (word.length - 1) text
      rw [heq, List.length_cons, List.length_cons]
      omega
    · rw [List.length_modifyHead]
      exact ih ((List.infix_cons_iff.mp h).resolve_left hhead)

/-- A text in which the word does not occur has nothing cut off. -/
lemma beforeFirst_eq_self {word text : List α} (h : ¬ word <:+: text) :
    beforeFirst word text = text := by
  rw [beforeFirst, splitFirst_eq_none h]
  rfl

/-- What stands before the first occurrence. -/
lemma beforeFirst_of_splitFirst {word text before after : List α}
    (h : splitFirst word text = some (before, after)) : beforeFirst word text = before := by
  rw [beforeFirst, h]
  rfl

/-- The word does not occur before its first occurrence, which is cut off with all behind. -/
lemma not_infix_beforeFirst {word : List α} (hword : word ≠ []) (text : List α) :
    ¬ word <:+: beforeFirst word text := by
  by_cases h : word <:+: text
  · obtain ⟨before, after, hparts⟩ := exists_splitFirst hword h
    rw [beforeFirst_of_splitFirst hparts]
    exact not_infix_of_splitFirst hword hparts
  · rwa [beforeFirst_eq_self h]

/-- What stands before an occurrence is not longer. -/
lemma beforeFirst_isPrefix (word text : List α) : beforeFirst word text <+: text := by
  rcases hparts : splitFirst word text with _ | ⟨before, after⟩
  · rw [beforeFirst, hparts]
    exact List.prefix_rfl
  · rw [beforeFirst_of_splitFirst hparts]
    exact ⟨word ++ after, (splitFirst_spec hparts).symm⟩

end Search
