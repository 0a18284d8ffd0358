import ProRLAgent.FnCall.Loaded
import ProRLAgent.Lib.Lines
import ProRLAgent.Lib.Slices

set_option relaxedAutoImplicit false
set_option autoImplicit false

/-!
# Output that is too long

`_truncate_output_if_needed` of `openhands/runtime/utils/efficient_bash.py` keeps a beginning and an
end of a text that is longer than the limit, at the ends of lines where it can. Of a text with very
many lines it keeps the last lines instead, however long they are, and puts line feeds between them.

## Main definitions

* `ProRLAgent.Bash.truncateOutput` — the function, for any limit.
* `ProRLAgent.Bash.KeepsEnds` — a text within the limit that is a beginning and an end of another.
* `ProRLAgent.Bash.FitsLimit` — the texts of which too much is never kept.

## Main results

* `ProRLAgent.Bash.truncateOutput_keepsEnds_iff` — when the limit is respected.
-/

namespace ProRLAgent.Bash

open FnCall (Text)
open PyText Slices

/-! ## The function -/

/-- `HISTORY_LIMIT`. -/
def historyLimit : ℕ := 50000

/-- `LARGE_OUTPUT_LINE_THRESHOLD`. -/
def largeOutputLineThreshold : ℕ := 10000

/-- `text.find(c)`. -/
def findChar (c : Char) (text : Text) : Option ℕ := text.findIdx? (· = c)

/-- `text.rfind(c)`. -/
def rfindChar (c : Char) (text : Text) : Option ℕ :=
  (findChar c text.reverse).map fun i => text.length - 1 - i

/-- The last lines of a text, with line feeds between them. -/
def lastLines (content : Text) : Text :=
  joinLines ((splitlines content).drop ((splitlines content).length - largeOutputLineThreshold))

/-- **`_truncate_output_if_needed`** with any `HISTORY_LIMIT`. -/
def truncateOutput (limit : ℕ) (content : Text) : Text × Bool :=
  if content.length ≤ limit then (content, false)
  else if largeOutputLineThreshold < (splitlines content).length then (lastLines content, true)
  else
    let firstChars := limit / 3
    let lastChars := limit - firstChars
    let firstPart := slice content none (some firstChars)
    let lastPart := slice content (some (-lastChars)) none
    -- A line feed at the very beginning of a part does not count.
    let firstPart := match rfindChar '\n' firstPart with
      | some (i + 1) => firstPart.take (i + 2)
      | _ => firstPart
    let lastPart := match findChar '\n' lastPart with
      | some (i + 1) => lastPart.drop (i + 2)
      | _ => lastPart
    (firstPart ++ lastPart, true)

/-- `_truncate_output_if_needed`. -/
def truncateOutputIfNeeded (content : Text) : Text × Bool := truncateOutput historyLimit content

/-- Below the limit nothing is truncated. -/
lemma truncateOutputIfNeeded_fst {text : Text} (h : text.length ≤ historyLimit) :
    (truncateOutputIfNeeded text).1 = text := by
  rw [truncateOutputIfNeeded, truncateOutput, if_pos h]

/-! ## What is kept -/

/-- **A beginning and an end** of a text that do not overlap, within the limit. -/
structure KeepsEnds (limit : ℕ) (content result : Text) : Prop where
  length_le : result.length ≤ limit
  ends : ∃ first last, result = first ++ last ∧ first <+: content ∧ last <:+ content ∧
    first.length + last.length ≤ content.length

/-- **The limit is respected**: a beginning and an end are kept, and all of the text only if it is
not longer. -/
def RespectsLimit (limit : ℕ) (content : Text) : Prop :=
  KeepsEnds limit content (truncateOutput limit content).1 ∧
    ((truncateOutput limit content).1 = content ↔ content.length ≤ limit)

/-- **Texts of which too much is never kept**: those within the limit, those without very many
lines, and those whose last lines, with line feeds between them, are an end of the text within the
limit. -/
def FitsLimit (limit : ℕ) (content : Text) : Prop :=
  content.length ≤ limit ∨ (splitlines content).length ≤ largeOutputLineThreshold ∨
    lastLines content <:+ content ∧ (lastLines content).length ≤ limit

variable {limit : ℕ} {content : Text}

/-- A text within the limit is kept. -/
lemma respectsLimit_of_length_le (h : content.length ≤ limit) : RespectsLimit limit content := by
  rw [RespectsLimit, truncateOutput, if_pos h]
  exact ⟨⟨h, content, [], by simp, List.prefix_rfl, List.nil_suffix, by simp⟩, by simp [h]⟩

/-- A beginning and an end within the limit are not all of a text that is longer. -/
lemma respectsLimit_of_keepsEnds (hlong : ¬ content.length ≤ limit)
    (h : KeepsEnds limit content (truncateOutput limit content).1) :
    RespectsLimit limit content := by
  refine ⟨h, iff_of_false (fun heq => ?_) hlong⟩
  have hle := h.length_le
  rw [heq] at hle
  exact hlong hle

/-- Of a text without very many lines a beginning and an end are kept. -/
lemma keepsEnds_of_few_lines (hlimit : 0 < limit) (hlong : ¬ content.length ≤ limit)
    (hlines : (splitlines content).length ≤ largeOutputLineThreshold) :
    KeepsEnds limit content (truncateOutput limit content).1 := by
  rw [truncateOutput, if_neg hlong, if_neg (by omega)]
  have hlast : 0 < limit - limit / 3 := by omega
  simp only [slice_none_natCast, slice_neg_none content hlast]
  generalize hf : (match rfindChar '\n' (content.take (limit / 3)) with
    | some (i + 1) => (content.take (limit / 3)).take (i + 2)
    | _ => content.take (limit / 3)) = first
  generalize hl : (match findChar '\n' (content.drop (content.length - (limit - limit / 3))) with
    | some (i + 1) => (content.drop (content.length - (limit - limit / 3))).drop (i + 2)
    | _ => content.drop (content.length - (limit - limit / 3))) = last
  have hfirst : first <+: content.take (limit / 3) := by
    rw [← hf]
    split
    · exact List.take_prefix _ _
    · exact List.prefix_rfl
  have hlast : last <:+ content.drop (content.length - (limit - limit / 3)) := by
    rw [← hl]
    split
    · exact List.drop_suffix _ _
    · exact List.suffix_rfl
  have h₁ := hfirst.length_le
  have h₂ := hlast.length_le
  rw [List.length_take] at h₁
  rw [List.length_drop] at h₂
  refine ⟨?_, first, last, rfl, hfirst.trans (List.take_prefix _ _),
    hlast.trans (List.drop_suffix _ _), by omega⟩
  rw [List.length_append]
  omega

/-- The last lines are kept if there are very many. -/
lemma truncateOutput_of_many_lines (hlong : ¬ content.length ≤ limit)
    (hlines : ¬ (splitlines content).length ≤ largeOutputLineThreshold) :
    (truncateOutput limit content).1 = lastLines content := by
  rw [truncateOutput, if_neg hlong, if_pos (by omega)]

/-- **The last lines are an end of a text** whose lines end with line feeds only, if the last line
has no line end. -/
theorem lastLines_isSuffix (h : ∀ c ∈ content, isLineEnd c = true → c = '\n')
    (hlast : content.getLast? ≠ some '\n') : lastLines content <:+ content := by
  have hsuffix := joinLines_drop_isSuffix
    ((splitlines content).length - largeOutputLineThreshold) (splitlines content)
  rwa [joinLines_splitlines h hlast] at hsuffix

/-- **The limit is respected** by a text that fits, and among the texts whose last lines are an end
of them only by those. -/
theorem truncateOutput_keepsEnds_iff (hlimit : 0 < limit) :
    (FitsLimit limit content → RespectsLimit limit content) ∧
      (lastLines content <:+ content → RespectsLimit limit content → FitsLimit limit content) := by
  by_cases hlong : content.length ≤ limit
  · exact ⟨fun _ => respectsLimit_of_length_le hlong, fun _ _ => .inl hlong⟩
  by_cases hlines : (splitlines content).length ≤ largeOutputLineThreshold
  · exact ⟨fun _ => respectsLimit_of_keepsEnds hlong (keepsEnds_of_few_lines hlimit hlong hlines),
      fun _ _ => .inr (.inl hlines)⟩
  have hresult := truncateOutput_of_many_lines hlong hlines
  constructor
  · rintro (h | h | ⟨hsuffix, hlength⟩)
    · exact absurd h hlong
    · exact absurd h hlines
    · refine respectsLimit_of_keepsEnds hlong ?_
      rw [hresult]
      refine ⟨hlength, [], lastLines content, (List.nil_append _).symm, List.nil_prefix, hsuffix, ?_⟩
      rw [List.length_nil, Nat.zero_add]
      exact hsuffix.length_le
  · rintro hsuffix ⟨hends, -⟩
    have hlength := hends.length_le
    rw [hresult] at hlength
    rw [FitsLimit]
    exact Or.inr (Or.inr ⟨hsuffix, hlength⟩)

/-- Two letters and a limit of one. -/
theorem truncateOutput_keepsEnds_iff_two : RespectsLimit 1 "ab".toList :=
  (truncateOutput_keepsEnds_iff (by decide)).1 (Or.inr (Or.inl (by decide)))

/-- The length of equal lines. -/
lemma length_joinLines_replicate (line : Text) (n : ℕ) :
    (joinLines (List.replicate (n + 1) line)).length = (n + 1) * line.length + n := by
  induction n with
  | zero => simp
  | succ n ih =>
    rw [List.replicate_succ, joinLines_cons line (by simp), List.length_append, List.length_cons, ih,
      Nat.succ_mul (n + 1)]
    omega

/-- Of 10001 lines with five letters the last 10000 are kept, which is more than the limit. -/
theorem not_respectsLimit_many_lines :
    ¬ RespectsLimit historyLimit (joinLines (List.replicate 10001 "aaaaa".toList)) := by
  have hlines : splitlines (joinLines (List.replicate 10001 "aaaaa".toList)) =
      List.replicate 10001 "aaaaa".toList := by
    refine splitlines_joinLines (fun line hline => ?_) (fun hlast => ?_)
    · rw [List.eq_of_mem_replicate hline]
      exact forall_of_all (by decide)
    · rw [List.getLast?_replicate] at hlast
      exact absurd hlast (by decide)
  have hline : "aaaaa".toList.length = 5 := rfl
  have hlength := length_joinLines_replicate "aaaaa".toList 10000
  have hkept := length_joinLines_replicate "aaaaa".toList 9999
  have hlong : ¬ (joinLines (List.replicate 10001 "aaaaa".toList)).length ≤ historyLimit := by
    rw [hlength, hline, historyLimit]
    decide
  have hmany : ¬ (splitlines (joinLines (List.replicate 10001 "aaaaa".toList))).length ≤
      largeOutputLineThreshold := by
    rw [hlines, List.length_replicate, largeOutputLineThreshold]
    decide
  rintro ⟨hends, -⟩
  have hle := hends.length_le
  rw [truncateOutput_of_many_lines hlong hmany, lastLines, hlines, List.length_replicate,
    largeOutputLineThreshold, List.drop_replicate, hkept, hline, historyLimit] at hle
  exact absurd hle (by decide)

end ProRLAgent.Bash
