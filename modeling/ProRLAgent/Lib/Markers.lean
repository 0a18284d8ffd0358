import ProRLAgent.Lib.Search

set_option relaxedAutoImplicit false
set_option autoImplicit false

/-!
# Blocks between markers

A block begins with an opening marker at the beginning of a line and ends with the next closing
marker. The blocks of a text are found from the left, each behind the one before, as with
`re.finditer` and the pattern `^opening(.*?)closing`.

An opening marker that nobody closes takes the next block of the text with it: the block that is
found begins at that marker and ends where the next block ends. Behind that end the search goes on
as if nothing had happened, so only one block is lost.

## Main definitions

* `Markers.Marks` — the markers and the letter between lines.
* `Markers.find` — the blocks of a text with their positions.
* `Markers.closed` — a text in which every opening marker at the beginning of a line is closed.
* `Markers.textOf`, `Markers.blocksFrom` — a text built from pieces and blocks, and its blocks.

## Main results

* `Markers.findFrom_append_block` — what is found in a piece of text and the block behind it.
* `Markers.findFrom_eq_filter` — the blocks of the beginning of a text.
* `Markers.sublist_findFrom_iff` — all blocks are found exactly if every piece before a block is
  closed.
-/

namespace Markers

open Search

variable {α : Type} [DecidableEq α]

/-- The marker before a block, the marker behind it, and the letter between lines. -/
structure Marks (α : Type) where
  opening : List α
  closing : List α
  newline : α

/-- A block that was found: where it begins and ends, and the text between its markers. -/
structure Found (α : Type) where
  start : ℕ
  stop : ℕ
  group : List α
  deriving DecidableEq

namespace Found

variable (pos : ℕ) (m : Marks α) (body : List α)

/-- The block at a position. -/
def block : Found α := ⟨pos, pos + (m.opening.length + body.length + m.closing.length), body⟩

end Found

variable (m : Marks α)

/-! ## The search -/

/-- The text of the block at the beginning of a text and what stands behind it. -/
def blockAt (atStart : Bool) (text : List α) : Option (List α × List α) :=
  if atStart ∧ m.opening <+: text then splitFirst m.closing (text.drop m.opening.length) else none

/-- The blocks of a text whose first `skip` letters belong to a block that was found. -/
def findFrom : ℕ → Bool → ℕ → List α → List (Found α)
  | _, _, _, [] => []
  | skip + 1, _, pos, c :: text => findFrom skip (c = m.newline) (pos + 1) text
  | 0, atStart, pos, c :: text =>
    match blockAt m atStart (c :: text) with
    | some (body, _) =>
      .block pos m body :: findFrom (m.opening.length + body.length + m.closing.length - 1)
        (c = m.newline) (pos + 1) text
    | none => findFrom 0 (c = m.newline) (pos + 1) text

/-- **`re.finditer('^opening(.*?)closing', text)`** with `^` at the beginning of every line. -/
def find (text : List α) : List (Found α) := findFrom m 0 true 0 text

/-- A text, but for its first `skip` letters, in which every opening marker at the beginning of a
line is closed. -/
def closedFrom : ℕ → Bool → List α → Bool
  | _, _, [] => true
  | skip + 1, _, c :: text => closedFrom skip (c = m.newline) text
  | 0, atStart, c :: text =>
    match blockAt m atStart (c :: text) with
    | some (body, _) => closedFrom (m.opening.length + body.length + m.closing.length - 1)
        (c = m.newline) text
    | none => !(atStart && decide (m.opening <+: c :: text)) &&
        closedFrom 0 (c = m.newline) text

/-- **A text in which every opening marker at the beginning of a line is closed**, outside the
blocks that were found before it. -/
def closed (atStart : Bool) (text : List α) : Bool := closedFrom m 0 atStart text

/-- Whether a line begins behind a text. -/
def lineStart (atStart : Bool) (text : List α) : Bool :=
  (text.getLast?.map fun c => decide (c = m.newline)).getD atStart

-- The equations of these functions are generated here, not in each proof that unfolds them.
section

attribute [local simp] findFrom closedFrom

end

/-- A line begins behind a letter and a text. -/
lemma lineStart_cons (atStart : Bool) (c : α) (text : List α) :
    lineStart m atStart (c :: text) = lineStart m (c = m.newline) text := by
  cases text with
  | nil => rfl
  | cons d text => rw [lineStart, lineStart, List.getLast?_cons_cons, List.getLast?_cons]; rfl

/-- The letters of a block that was found are passed over. -/
lemma findFrom_length_append (x y : List α) (atStart : Bool) (pos : ℕ) :
    findFrom m x.length atStart pos (x ++ y) =
      findFrom m 0 (lineStart m atStart x) (pos + x.length) y := by
  induction x generalizing atStart pos with
  | nil => rfl
  | cons c x ih =>
    rw [List.length_cons, List.cons_append, findFrom, ih, lineStart_cons]
    congr 1
    omega

/-- The letters of a block that was found are passed over. -/
lemma closedFrom_length_append (x y : List α) (atStart : Bool) :
    closedFrom m x.length atStart (x ++ y) = closedFrom m 0 (lineStart m atStart x) y := by
  induction x generalizing atStart with
  | nil => rfl
  | cons c x ih => rw [List.length_cons, List.cons_append, closedFrom, ih, lineStart_cons]

/-- The parts of a text that begins with a block. -/
lemma blockAt_spec {atStart : Bool} {text body rest : List α}
    (h : blockAt m atStart text = some (body, rest)) :
    text = m.opening ++ (body ++ (m.closing ++ rest)) := by
  rw [blockAt] at h
  split_ifs at h with hopen
  obtain ⟨tail, rfl⟩ := hopen.2
  rw [List.drop_left] at h
  rw [splitFirst_spec h]

/-- The markers as a search needs them: they are not empty, and neither the closing marker nor the
opening marker goes over the end of a line. -/
structure Marks.Inline (m : Marks α) : Prop where
  opening_ne_nil : m.opening ≠ []
  closing_ne_nil : m.closing ≠ []
  newline_notMem_opening : m.newline ∉ m.opening
  newline_notMem_closing : m.newline ∉ m.closing

variable {m}

/-- Whether a line begins behind two texts. -/
lemma lineStart_append (atStart : Bool) (x y : List α) :
    lineStart m atStart (x ++ y) = lineStart m (lineStart m atStart x) y := by
  induction x generalizing atStart with
  | nil => rfl
  | cons c x ih => rw [List.cons_append, lineStart_cons, lineStart_cons, ih]

/-- Behind a block no line begins. -/
lemma lineStart_block (hm : m.Inline) (atStart : Bool) (x : List α) :
    lineStart m atStart (x ++ m.closing) = false := by
  rw [lineStart, List.getLast?_append_of_ne_nil _ hm.closing_ne_nil,
    List.getLast?_eq_getLast_of_ne_nil hm.closing_ne_nil, Option.map_some, Option.getD_some,
    decide_eq_false_iff_not]
  intro heq
  exact hm.newline_notMem_closing (heq ▸ List.getLast_mem hm.closing_ne_nil)

/-- **A block at the beginning of a text** is found, and the search goes on behind it. -/
theorem findFrom_of_blockAt (hm : m.Inline) {atStart : Bool} {pos : ℕ} {text body rest : List α}
    (h : blockAt m atStart text = some (body, rest)) :
    findFrom m 0 atStart pos text = .block pos m body ::
      findFrom m 0 false (pos + (m.opening.length + body.length + m.closing.length)) rest := by
  have htext := blockAt_spec m h
  obtain ⟨c, w, hw⟩ := List.exists_cons_of_ne_nil hm.opening_ne_nil
  have hcons : text = c :: (w ++ (body ++ m.closing) ++ rest) := by
    rw [htext, hw]
    simp
  have hlength : m.opening.length + body.length + m.closing.length - 1 =
      (w ++ (body ++ m.closing)).length := by
    simp only [hw, List.length_cons, List.length_append]
    omega
  rw [hcons] at h ⊢
  simp only [findFrom, h, hlength]
  rw [findFrom_length_append, ← List.append_assoc, lineStart_block hm, hw]
  simp only [List.length_append, List.length_cons]
  congr 2
  omega

/-- A block at the beginning of a text is passed over. -/
lemma closedFrom_of_blockAt (hm : m.Inline) {atStart : Bool} {text body rest : List α}
    (h : blockAt m atStart text = some (body, rest)) :
    closed m atStart text = closed m false rest := by
  have htext := blockAt_spec m h
  obtain ⟨c, w, hw⟩ := List.exists_cons_of_ne_nil hm.opening_ne_nil
  have hcons : text = c :: (w ++ (body ++ m.closing) ++ rest) := by
    rw [htext, hw]
    simp
  have hlength : m.opening.length + body.length + m.closing.length - 1 =
      (w ++ (body ++ m.closing)).length := by
    simp only [hw, List.length_cons, List.length_append]
    omega
  rw [hcons] at h ⊢
  simp only [closed, closedFrom, h, hlength]
  rw [closedFrom_length_append, ← List.append_assoc, lineStart_block hm]

/-- Where no block begins the search goes on. -/
lemma findFrom_cons_of_none {atStart : Bool} {pos : ℕ} {c : α} {text : List α}
    (h : blockAt m atStart (c :: text) = none) :
    findFrom m 0 atStart pos (c :: text) = findFrom m 0 (c = m.newline) (pos + 1) text := by
  rw [findFrom, h]

/-- Inside a line nothing begins. -/
lemma findFrom_append_of_notMem {u : List α} (hu : m.newline ∉ u) (text : List α) (pos : ℕ) :
    findFrom m 0 false pos (u ++ text) = findFrom m 0 false (pos + u.length) text := by
  induction u generalizing pos with
  | nil => rfl
  | cons c u ih =>
    rw [List.mem_cons, not_or] at hu
    have hnone : blockAt m false (c :: (u ++ text)) = none := if_neg fun h => by cases h.1
    have hc : decide (c = m.newline) = false := decide_eq_false fun heq => hu.1 heq.symm
    rw [List.cons_append, findFrom_cons_of_none hnone, hc, ih hu.2, List.length_cons]
    congr 1
    omega

/-- The blocks of a text lie in it. -/
lemma bounds_of_mem_findFrom {text : List α} {skip pos : ℕ} {atStart : Bool} {f : Found α}
    (h : f ∈ findFrom m skip atStart pos text) : pos ≤ f.start ∧ f.stop ≤ pos + text.length := by
  induction text generalizing skip pos atStart with
  | nil => cases skip <;> cases h
  | cons c text ih =>
    rw [List.length_cons]
    have hrest {skip : ℕ} (h : f ∈ findFrom m skip (c = m.newline) (pos + 1) text) :
        pos ≤ f.start ∧ f.stop ≤ pos + (text.length + 1) := by
      obtain ⟨hstart, hstop⟩ := ih h
      omega
    cases skip with
    | succ skip => exact hrest h
    | zero =>
      rw [findFrom] at h
      split at h
      · next body rest hblock =>
        rcases List.mem_cons.mp h with rfl | h
        · have hlength := congrArg List.length (blockAt_spec m hblock)
          simp only [List.length_append, List.length_cons] at hlength
          simp only [Found.block]
          omega
        · exact hrest h
      · exact hrest h

/-- Without a closing marker nothing is found. -/
lemma findFrom_eq_nil {text : List α} (h : ¬ m.closing <:+: text) (skip pos : ℕ) (atStart : Bool) :
    findFrom m skip atStart pos text = [] := by
  induction text generalizing skip pos atStart with
  | nil => cases skip <;> rfl
  | cons c text ih =>
    have htail : ¬ m.closing <:+: text := fun hocc => h (hocc.trans (List.suffix_cons c _).isInfix)
    cases skip with
    | succ skip => exact ih htail _ _ _
    | zero =>
      have hnone : blockAt m atStart (c :: text) = none := by
        rw [blockAt]
        split_ifs
        · exact splitFirst_eq_none fun hocc => h (hocc.trans (List.drop_suffix _ _).isInfix)
        · rfl
      rw [findFrom_cons_of_none hnone]
      exact ih htail _ _ _

/-! ## A piece of text and a block behind it -/

/-- The text of a block: the closing marker behind it is the first one, whatever stands before the
block. -/
structure Enclosed (m : Marks α) (body : List α) : Prop where
  no_closing : ¬ m.closing <:+: m.opening ++ body
  last : ∃ init d, body = init ++ [d] ∧ d ∉ m.closing

/-- A text that is not empty and behind which a line begins. -/
lemma exists_of_lineStart {atStart : Bool} {text : List α} (hne : text ≠ [])
    (h : lineStart m atStart text = true) : ∃ init, text = init ++ [m.newline] := by
  rcases List.eq_nil_or_concat text with rfl | ⟨init, d, rfl⟩
  · exact absurd rfl hne
  · rw [List.concat_eq_append] at h ⊢
    rw [lineStart, List.getLast?_concat, Option.map_some, Option.getD_some, decide_eq_true_eq] at h
    exact ⟨init, by rw [h]⟩

/-- A text without opening markers is closed. -/
lemma closed_of_no_opening {text : List α} (h : ¬ m.opening <:+: text) (atStart : Bool) :
    closed m atStart text = true := by
  rw [closed]
  induction text generalizing atStart with
  | nil => rfl
  | cons c text ih =>
    have hprefix : ¬ m.opening <+: c :: text := fun hocc => h hocc.isInfix
    have hnone : blockAt m atStart (c :: text) = none := if_neg fun hocc => hprefix hocc.2
    have hrest : ¬ m.opening <:+: text := fun hocc =>
      h (hocc.trans (List.suffix_cons c text).isInfix)
    simp only [closedFrom, hnone, hprefix, decide_false, Bool.and_false, Bool.not_false,
      Bool.true_and]
    exact ih hrest _

/-- The closing marker of a block is the first one behind the lines before the block, if they have
none. -/
lemma splitFirst_enclosed (hm : m.Inline) {body x : List α} (hbody : Enclosed m body)
    (hx : ¬ m.closing <:+: x) (hline : x ≠ [] → ∃ init, x = init ++ [m.newline]) (rest : List α) :
    splitFirst m.closing (x ++ (m.opening ++ (body ++ (m.closing ++ rest)))) =
      some (x ++ (m.opening ++ body), rest) := by
  obtain ⟨init, d, rfl, hd⟩ := hbody.last
  have hno : ¬ m.closing <:+: x ++ (m.opening ++ init) ++ [d] := by
    rw [List.append_assoc, List.append_assoc]
    rcases eq_or_ne x [] with rfl | hne
    · exact hbody.no_closing
    · obtain ⟨lines, rfl⟩ := hline hne
      rw [List.append_assoc, List.singleton_append]
      intro hocc
      rcases infix_or_infix_of_notMem hm.closing_ne_nil hm.newline_notMem_closing hocc with h | h
      · exact hx (h.trans (List.prefix_append lines _).isInfix)
      · exact hbody.no_closing h
  have hfound := splitFirst_append_of_last hm.closing_ne_nil hd hno rest
  simpa using hfound

/-- The block at the beginning of a line. -/
lemma blockAt_enclosed (hm : m.Inline) {body : List α} (hbody : Enclosed m body) (rest : List α) :
    blockAt m true (m.opening ++ (body ++ (m.closing ++ rest))) = some (body, rest) := by
  obtain ⟨init, d, rfl, hd⟩ := hbody.last
  rw [blockAt, if_pos ⟨rfl, List.prefix_append _ _⟩, List.drop_left]
  refine splitFirst_append_of_last hm.closing_ne_nil hd (fun hocc => hbody.no_closing ?_) rest
  exact hocc.trans (List.suffix_append _ _).isInfix

/-- What is put behind a text does not change the block at its beginning. -/
lemma blockAt_append_right {atStart : Bool} {text body rest : List α}
    (h : blockAt m atStart text = some (body, rest)) (y : List α) :
    blockAt m atStart (text ++ y) = some (body, rest ++ y) := by
  rw [blockAt] at h ⊢
  split_ifs at h with hopen
  have hopen' : atStart = true ∧ m.opening <+: text ++ y :=
    ⟨hopen.1, hopen.2.trans (List.prefix_append text y)⟩
  rw [if_pos hopen', List.drop_append_of_le_length hopen.2.length_le, splitFirst_append_right h]

/-! ### The beginning of a text -/

/-- The end of a text behind its first letter. -/
lemma isSuffix_drop_cons (c : α) (text : List α) (k : ℕ) :
    text.drop k <:+ (c :: text).drop k := by
  have hdrop : text.drop k = ((c :: text).drop k).drop 1 := by
    rw [List.drop_drop, Nat.add_comm, ← List.drop_drop]
    rfl
  rw [hdrop]
  exact List.drop_suffix _ _

/-- A text whose block ends only with what is put behind it has no closing marker. -/
lemma not_infix_of_blockAt_eq_none (hm : m.Inline) {text y : List α} {atStart : Bool}
    {parts : List α × List α} (hnone : blockAt m atStart text = none)
    (hlong : blockAt m atStart (text ++ y) = some parts) :
    ¬ m.closing <:+: text.drop m.opening.length := by
  intro hocc
  rw [blockAt] at hnone hlong
  split_ifs at hlong with hopen
  have hhead : m.opening <+: text := by
    refine List.prefix_of_prefix_length_le hopen.2 (List.prefix_append text y) ?_
    by_contra hlt
    rw [List.drop_eq_nil_of_le (by omega)] at hocc
    exact hm.closing_ne_nil (List.infix_nil.mp hocc)
  rw [if_pos ⟨hopen.1, hhead⟩] at hnone
  obtain ⟨before, after, hparts⟩ := exists_splitFirst hm.closing_ne_nil hocc
  rw [hparts] at hnone
  cases hnone

/-- Something is found only if a closing marker stands behind the letters of an opening marker. -/
lemma infix_of_findFrom_ne_nil {text : List α} {skip pos : ℕ} {atStart : Bool}
    (h : findFrom m skip atStart pos text ≠ []) :
    m.closing <:+: text.drop m.opening.length := by
  induction text generalizing skip pos atStart with
  | nil => cases skip <;> exact absurd rfl h
  | cons c text ih =>
    have hrest {skip : ℕ} (h : findFrom m skip (c = m.newline) (pos + 1) text ≠ []) :
        m.closing <:+: (c :: text).drop m.opening.length :=
      (ih h).trans (isSuffix_drop_cons c text _).isInfix
    cases skip with
    | succ skip => exact hrest h
    | zero =>
      rcases hblock : blockAt m atStart (c :: text) with _ | ⟨body, rest⟩
      · rw [findFrom_cons_of_none hblock] at h
        exact hrest h
      · rw [blockAt_spec m hblock, List.drop_left]
        exact ⟨body, rest, by simp⟩

/-- What is found behind a block that ends behind a text does not end in it. -/
lemma lt_stop_of_mem_findFrom {text : List α} (hopening : m.opening ≠ []) {skip pos : ℕ}
    {atStart : Bool} {f : Found α} (h : f ∈ findFrom m skip atStart pos text) : pos + skip < f.stop := by
  have hpos := List.length_pos_iff.mpr hopening
  induction text generalizing skip pos atStart with
  | nil => cases skip <;> cases h
  | cons c text ih =>
    cases skip with
    | succ skip =>
      have hlt := ih h
      omega
    | zero =>
      rw [findFrom] at h
      split at h
      · next body rest hblock =>
        rcases List.mem_cons.mp h with rfl | h
        · simp only [Found.block]
          omega
        · have hlt := ih h
          omega
      · have hlt := ih h
        omega

/-- **The blocks of the beginning of a text** are those of the text that end in it. -/
theorem findFrom_eq_filter (hm : m.Inline) (x y : List α) (skip pos : ℕ) (atStart : Bool) :
    findFrom m skip atStart pos x =
      (findFrom m skip atStart pos (x ++ y)).filter fun f => f.stop ≤ pos + x.length := by
  induction x generalizing skip pos atStart with
  | nil =>
    have hempty : findFrom m skip atStart pos [] = [] := by cases skip <;> rfl
    rw [hempty, eq_comm, List.filter_eq_nil_iff]
    intro f hf
    have hlt := lt_stop_of_mem_findFrom hm.opening_ne_nil hf
    simp only [List.length_nil, decide_eq_true_eq]
    omega
  | cons c x ih =>
    have hpos (f : Found α) : decide (f.stop ≤ pos + (c :: x).length) =
        decide (f.stop ≤ pos + 1 + x.length) := by
      rw [List.length_cons, Nat.add_assoc, Nat.add_comm 1]
    simp only [hpos]
    cases skip with
    | succ skip => exact ih _ _ _
    | zero =>
      rcases hblock : blockAt m atStart (c :: x) with _ | ⟨body, rest⟩
      · rw [findFrom_cons_of_none hblock]
        rcases hlong : blockAt m atStart (c :: (x ++ y)) with _ | ⟨body, rest⟩
        · rw [List.cons_append, findFrom_cons_of_none hlong]
          exact ih _ _ _
        · -- The block goes over the end of the first text, where no closing marker stands.
          have hno := not_infix_of_blockAt_eq_none hm hblock hlong
          have hnil : findFrom m 0 (c = m.newline) (pos + 1) x = [] := by
            by_contra hne
            refine hno ((infix_of_findFrom_ne_nil hne).trans ?_)
            exact (isSuffix_drop_cons c x _).isInfix
          have htext := blockAt_spec m hlong
          have hstop : pos + 1 + x.length < (Found.block pos m body).stop := by
            by_contra hle
            refine hno ⟨body, ((c :: x).drop (m.opening ++ (body ++ m.closing)).length), ?_⟩
            have hhead : m.opening ++ (body ++ m.closing) <+: c :: x := by
              refine List.prefix_of_prefix_length_le ⟨rest, ?_⟩ (List.prefix_append (c :: x) y) ?_
              · rw [List.cons_append, htext]
                simp
              · simp only [Found.block] at hle
                simp only [List.length_append, List.length_cons]
                omega
            obtain ⟨tail, htail⟩ := hhead
            rw [← htail, List.drop_left, List.append_assoc m.opening, List.drop_left]
          rw [List.cons_append, hnil, findFrom, hlong, eq_comm, List.filter_eq_nil_iff]
          intro f hf
          rw [decide_eq_true_eq, not_le]
          rcases List.mem_cons.mp hf with rfl | hf
          · exact hstop
          · have hlt := lt_stop_of_mem_findFrom hm.opening_ne_nil hf
            simp only [Found.block] at hstop
            omega
      · have hlong := blockAt_append_right hblock y
        have hstop : (Found.block pos m body).stop ≤ pos + 1 + x.length := by
          have hlength := congrArg List.length (blockAt_spec m hblock)
          simp only [List.length_append, List.length_cons] at hlength
          simp only [Found.block]
          omega
        rw [findFrom, hblock]
        rw [List.cons_append] at hlong ⊢
        rw [findFrom, hlong]
        simp only
        rw [List.filter_cons_of_pos (by simpa using hstop), ih]

/-! ### Markers that are not closed -/

/-- An opening marker that is not closed takes the next block with it, and nothing is found before
that. -/
lemma findFrom_open (hm : m.Inline) {body x : List α} (hbody : Enclosed m body)
    (hx : lineStart m true x = true) (hopen : m.opening <+: x) (hnone : blockAt m true x = none)
    (pos : ℕ) (rest : List α) :
    ∃ group, blockAt m true (x ++ (m.opening ++ (body ++ (m.closing ++ rest)))) =
        some (group, rest) ∧
      m.opening.length + group.length = x.length + (m.opening.length + body.length) ∧
      findFrom m 0 true pos x = [] := by
  obtain ⟨tail, rfl⟩ := hopen
  have hsplit : splitFirst m.closing tail = none := by
    rw [blockAt, if_pos ⟨rfl, List.prefix_append _ _⟩, List.drop_left] at hnone
    exact hnone
  have hno : ¬ m.closing <:+: tail := by
    intro hocc
    obtain ⟨before, after, hfound⟩ := exists_splitFirst hm.closing_ne_nil hocc
    rw [hsplit] at hfound
    cases hfound
  have hinline : lineStart m true m.opening = false := by
    obtain ⟨init, d, hd⟩ := List.eq_nil_or_concat m.opening |>.resolve_left hm.opening_ne_nil
    rw [List.concat_eq_append] at hd
    rw [hd, lineStart, List.getLast?_concat, Option.map_some, Option.getD_some,
      decide_eq_false_iff_not]
    rintro rfl
    exact hm.newline_notMem_opening (hd ▸ by simp)
  refine ⟨tail ++ (m.opening ++ body), ?_, ?_, ?_⟩
  · rw [List.append_assoc, blockAt, if_pos ⟨rfl, List.prefix_append _ _⟩, List.drop_left]
    refine splitFirst_enclosed hm hbody hno (fun hne => ?_) rest
    rw [lineStart_append, hinline] at hx
    exact exists_of_lineStart hne hx
  · simp only [List.length_append]
    omega
  · obtain ⟨c, w, hw⟩ := List.exists_cons_of_ne_nil hm.opening_ne_nil
    have hnotMem := hm.newline_notMem_opening
    rw [hw, List.mem_cons, not_or] at hnotMem
    have hc : decide (c = m.newline) = false := decide_eq_false fun heq => hnotMem.1 heq.symm
    rw [hw, List.cons_append] at hnone ⊢
    rw [findFrom_cons_of_none hnone, hc, findFrom_append_of_notMem hnotMem.2]
    exact findFrom_eq_nil hno _ _ _

/-- **A piece of text and the block behind it**: what is found in the piece, then the block itself
if the piece is closed, or a block that begins in the piece and ends with it. -/
theorem findFrom_append_block (hm : m.Inline) {body : List α} (hbody : Enclosed m body)
    {x : List α} {atStart : Bool} (hx : lineStart m atStart x = true) (pos : ℕ) (rest : List α) :
    ∃ f : Found α, findFrom m 0 atStart pos (x ++ (m.opening ++ (body ++ (m.closing ++ rest)))) =
        findFrom m 0 atStart pos x ++ f ::
          findFrom m 0 false (pos + x.length +
            (m.opening.length + body.length + m.closing.length)) rest ∧
      if closed m atStart x then f = .block (pos + x.length) m body
      else f.start < pos + x.length := by
  induction hn : x.length using Nat.strong_induction_on generalizing x atStart pos with
  | h n ih =>
    subst hn
    cases x with
    | nil =>
      obtain rfl : atStart = true := hx
      refine ⟨.block pos m body, ?_, ?_⟩
      · rw [List.nil_append, findFrom_of_blockAt hm (blockAt_enclosed hm hbody rest)]
        rfl
      · rfl
    | cons c x =>
      obtain ⟨init, hline⟩ := exists_of_lineStart (List.cons_ne_nil c x) hx
      rcases hblock : blockAt m atStart (c :: x) with _ | ⟨group, after⟩
      · by_cases hopen : atStart ∧ m.opening <+: c :: x
        · -- The opening marker is not closed.
          obtain ⟨rfl, hopen⟩ := hopen
          obtain ⟨group, hfound, hlength, hnil⟩ := findFrom_open hm hbody hx hopen hblock pos rest
          refine ⟨.block pos m group, ?_, ?_⟩
          · have hstop : pos + (m.opening.length + group.length + m.closing.length) =
                pos + (c :: x).length + (m.opening.length + body.length + m.closing.length) := by
              omega
            rw [findFrom_of_blockAt hm hfound, hnil, List.nil_append, hstop]
          · have hclosed : closed m true (c :: x) = false := by
              rw [closed, closedFrom, hblock]
              simp [hopen]
            rw [hclosed, if_neg Bool.false_ne_true]
            simp [Found.block]
        · -- No marker begins here, and none goes over the end of the piece.
          have hnone : blockAt m atStart
              (c :: (x ++ (m.opening ++ (body ++ (m.closing ++ rest))))) = none := by
            refine if_neg fun h => hopen ⟨h.1, ?_⟩
            have hcut : m.opening <+: init ++ m.newline ::
                (m.opening ++ (body ++ (m.closing ++ rest))) := by
              have happ := h.2
              rw [← List.cons_append, hline] at happ
              simpa using happ
            rw [hline]
            exact (prefix_of_prefix_append_cons hm.newline_notMem_opening hcut).trans
              (List.prefix_append _ _)
          rw [lineStart_cons] at hx
          obtain ⟨f, hf, hcond⟩ := ih x.length (Nat.lt_succ_self _) hx (pos + 1) rfl
          have hpos : pos + (c :: x).length = pos + 1 + x.length := by
            rw [List.length_cons]
            omega
          have hclosed : closed m atStart (c :: x) = closed m (c = m.newline) x := by
            rw [closed, closedFrom, hblock]
            have : (atStart && decide (m.opening <+: c :: x)) = false := by
              simpa [← not_and] using hopen
            simp [this, closed]
          rw [hpos, hclosed]
          refine ⟨f, ?_, hcond⟩
          rw [List.cons_append, findFrom_cons_of_none hnone, findFrom_cons_of_none hblock, hf]
      · -- A block of the piece.
        have htext := blockAt_spec m hblock
        have hafter : lineStart m false after = true := by
          rw [htext, ← List.append_assoc, ← List.append_assoc, lineStart_append,
            lineStart_block hm] at hx
          exact hx
        have hlength := congrArg List.length htext
        simp only [List.length_append] at hlength
        have hshort : after.length < (c :: x).length := by
          have := List.length_pos_iff.mpr hm.opening_ne_nil
          omega
        obtain ⟨f, hf, hcond⟩ := ih after.length hshort hafter
          (pos + (m.opening.length + group.length + m.closing.length)) rfl
        have hpos : pos + (m.opening.length + group.length + m.closing.length) + after.length =
            pos + (c :: x).length := by omega
        rw [hpos] at hf hcond
        refine ⟨f, ?_, ?_⟩
        · rw [findFrom_of_blockAt hm (blockAt_append_right hblock _), hf,
            findFrom_of_blockAt hm hblock, List.cons_append]
        · rw [closedFrom_of_blockAt hm hblock]
          exact hcond

/-! ## Texts of pieces and blocks -/

section TextOf

variable (m)

/-- The text of pieces with a block behind each, and a last piece. -/
def textOf : List (List α × List α) → List α → List α
  | [], last => last
  | (piece, body) :: bs, last =>
    piece ++ (m.opening ++ (body ++ (m.closing ++ textOf bs last)))

/-- The position behind a piece and its block. -/
def behind (pos : ℕ) (piece body : List α) : ℕ :=
  pos + piece.length + (m.opening.length + body.length + m.closing.length)

/-- The blocks of such a text. -/
def blocksFrom : ℕ → List (List α × List α) → List (Found α)
  | _, [] => []
  | pos, (piece, body) :: bs =>
    .block (pos + piece.length) m body :: blocksFrom (behind m pos piece body) bs

/-- Every block begins a line, and its closing marker is the first one in it. -/
def WellPlaced : Bool → List (List α × List α) → Prop
  | _, [] => True
  | atStart, (piece, body) :: bs =>
    lineStart m atStart piece = true ∧ Enclosed m body ∧ WellPlaced false bs

/-- The pieces before blocks in which every opening marker at the beginning of a line is closed. -/
def allClosed : Bool → List (List α × List α) → Bool
  | _, [] => true
  | atStart, (piece, _) :: bs => closed m atStart piece && allClosed false bs

/-- The texts of the blocks that are found in a piece. -/
def strays (atStart : Bool) (piece : List α) : List (List α) :=
  (findFrom m 0 atStart 0 piece).map Found.group

/-- The texts of the blocks that are found in the pieces, and of those behind them. -/
def groupsFrom : Bool → List (List α × List α) → List α → List (List α)
  | atStart, [], last => strays m atStart last
  | atStart, (piece, body) :: bs, last => strays m atStart piece ++ body :: groupsFrom false bs last

variable {m}

/-- The texts of the blocks do not depend on the position at which the search begins. -/
lemma map_group_findFrom (skip : ℕ) (atStart : Bool) (pos pos' : ℕ) (text : List α) :
    (findFrom m skip atStart pos text).map Found.group =
      (findFrom m skip atStart pos' text).map Found.group := by
  induction text generalizing skip atStart pos pos' with
  | nil => cases skip <;> rfl
  | cons c text ih =>
    cases skip with
    | succ skip => exact ih _ _ _ _
    | zero =>
      rcases hblock : blockAt m atStart (c :: text) with _ | ⟨body, rest⟩
      · rw [findFrom_cons_of_none hblock, findFrom_cons_of_none hblock]
        exact ih _ _ _ _
      · simp only [findFrom, hblock, List.map_cons, Found.block]
        rw [ih _ _ (pos + 1) (pos' + 1)]

omit [DecidableEq α] in
/-- The blocks stand behind the position from which on the text is built. -/
lemma bounds_of_mem_blocksFrom {bs : List (List α × List α)} {pos : ℕ} {f : Found α}
    (h : f ∈ blocksFrom m pos bs) : pos ≤ f.start ∧ f.start ≤ f.stop := by
  induction bs generalizing pos with
  | nil => cases h
  | cons b bs ih =>
    rcases List.mem_cons.mp h with rfl | h
    · simp only [Found.block]
      omega
    · have hrest := ih h
      simp only [behind] at hrest
      omega

/-- **Every block is found**, and what is found in the pieces, if the pieces are closed. -/
theorem findFrom_textOf (hm : m.Inline) {bs : List (List α × List α)} {atStart : Bool}
    (hplaced : WellPlaced m atStart bs) (hclosed : allClosed m atStart bs = true) (pos : ℕ)
    (last : List α) :
    (blocksFrom m pos bs).Sublist (findFrom m 0 atStart pos (textOf m bs last)) ∧
      (findFrom m 0 atStart pos (textOf m bs last)).map Found.group =
        groupsFrom m atStart bs last := by
  induction bs generalizing atStart pos with
  | nil => exact ⟨List.nil_sublist _, map_group_findFrom 0 atStart pos 0 last⟩
  | cons b bs ih =>
    obtain ⟨piece, body⟩ := b
    obtain ⟨hline, hbody, hrest⟩ := hplaced
    obtain ⟨hpiece, hclosed⟩ := (Bool.and_eq_true _ _).mp hclosed
    obtain ⟨f, hf, hcond⟩ := findFrom_append_block hm hbody hline pos (textOf m bs last)
    rw [if_pos hpiece] at hcond
    subst hcond
    obtain ⟨hsub, hgroups⟩ := ih hrest hclosed (behind m pos piece body)
    rw [textOf, hf]
    refine ⟨?_, ?_⟩
    · exact (hsub.cons_cons _).trans (List.sublist_append_right _ _)
    · rw [List.map_append, List.map_cons, map_group_findFrom 0 atStart pos 0 piece, groupsFrom]
      exact congrArg _ (congrArg _ hgroups)

/-- A block behind a piece that is not closed is not found. -/
theorem allClosed_of_subset (hm : m.Inline) {bs : List (List α × List α)} {atStart : Bool}
    (hplaced : WellPlaced m atStart bs) {pos : ℕ} {last : List α}
    (h : blocksFrom m pos bs ⊆ findFrom m 0 atStart pos (textOf m bs last)) :
    allClosed m atStart bs = true := by
  induction bs generalizing atStart pos with
  | nil => rfl
  | cons b bs ih =>
    obtain ⟨piece, body⟩ := b
    obtain ⟨hline, hbody, hrest⟩ := hplaced
    obtain ⟨f, hf, hcond⟩ := findFrom_append_block hm hbody hline pos (textOf m bs last)
    rw [textOf, hf] at h
    have hopening := List.length_pos_iff.mpr hm.opening_ne_nil
    -- What is found before the block ends before it, what is found behind it begins behind it.
    have hbefore {g : Found α} (hg : g ∈ findFrom m 0 atStart pos piece) :
        g.stop ≤ pos + piece.length := (bounds_of_mem_findFrom hg).2
    have hblock := h (List.mem_cons_self)
    have hpiece : closed m atStart piece = true := by
      by_contra hopen
      rw [if_neg hopen] at hcond
      rcases List.mem_append.mp hblock with hmem | hmem
      · have hstop := hbefore hmem
        simp only [Found.block] at hstop
        omega
      · rcases List.mem_cons.mp hmem with heq | hmem
        · rw [← heq] at hcond
          exact absurd hcond (lt_irrefl _)
        · have hstart := (bounds_of_mem_findFrom hmem).1
          simp only [Found.block] at hstart
          omega
    rw [if_pos hpiece] at hcond
    have htail : blocksFrom m (behind m pos piece body) bs ⊆
        findFrom m 0 false (behind m pos piece body) (textOf m bs last) := by
      intro g hg
      obtain ⟨hstart, hlength⟩ := bounds_of_mem_blocksFrom hg
      rcases List.mem_append.mp (h (List.mem_cons_of_mem _ hg)) with hmem | hmem
      · have hstop := hbefore hmem
        simp only [behind] at hstart
        omega
      · rcases List.mem_cons.mp hmem with heq | hmem
        · rw [heq, hcond] at hstart
          simp only [behind, Found.block] at hstart
          omega
        · exact hmem
    rw [allClosed, hpiece, ih hrest htail, Bool.true_and]

/-- **All blocks are found**, in their order, exactly if every piece before a block is closed. -/
theorem sublist_findFrom_iff (hm : m.Inline) {bs : List (List α × List α)} {atStart : Bool}
    (hplaced : WellPlaced m atStart bs) (pos : ℕ) (last : List α) :
    (blocksFrom m pos bs).Sublist (findFrom m 0 atStart pos (textOf m bs last)) ↔
      allClosed m atStart bs = true :=
  ⟨fun h => allClosed_of_subset hm hplaced h.subset,
    fun h => (findFrom_textOf hm hplaced h pos last).1⟩

end TextOf

end Markers
