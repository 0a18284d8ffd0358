import Mathlib.Data.List.Infix

set_option relaxedAutoImplicit false
set_option autoImplicit false

/-!
# Replacing a word in a text

Texts and words are lists. `replaceAll old new text` puts `new` in place of every occurrence of
`old`, from the left and without overlaps. A word that cannot overlap `new` in any text occurs in
the result only where it occurred before, and `old` itself does not occur any more.

## Main definitions

* `Replace.replaceAll` — the replacement.
* `Replace.Apart` — two words share no position in any text.

## Main results

* `Replace.replaceFrom_cases` — the result is cut at the first occurrence.
* `Replace.infix_replaceAll` — which words occur in the result.
-/

namespace Replace

variable {α : Type}

/-! ## Words apart -/

/-- **Words apart**: in no text do occurrences of the two words share a position. -/
def Apart (s m : List α) : Prop :=
  ∀ l r l' r', l ++ (s ++ r) = l' ++ (m ++ r') →
    l.length + s.length ≤ l'.length ∨ l'.length + m.length ≤ l.length

/-- Words without a common letter are apart, if neither is empty. -/
lemma apart_of_disjoint {s m : List α} (hs : s ≠ []) (hm : m ≠ []) (h : ∀ c ∈ s, c ∉ m) :
    Apart s m := by
  intro l r l' r' heq
  by_contra hcon
  rw [not_or, not_le, not_le] at hcon
  -- The later of the two beginnings is a position of both words.
  have hspos := List.length_pos_iff.mpr hs
  have hmpos := List.length_pos_iff.mpr hm
  set i := max l.length l'.length with hi
  have hil : l.length ≤ i := le_max_left _ _
  have hil' : l'.length ≤ i := le_max_right _ _
  have his : i - l.length < s.length := by omega
  have him : i - l'.length < m.length := by omega
  have hget := congrArg (fun t => t[i]?) heq
  simp only [List.getElem?_append_right hil, List.getElem?_append_right hil',
    List.getElem?_append_left his, List.getElem?_append_left him,
    List.getElem?_eq_getElem his, List.getElem?_eq_getElem him, Option.some.injEq] at hget
  exact h _ (List.getElem_mem his) (hget ▸ List.getElem_mem him)

/-- An occurrence next to a word that is apart lies on one side of it. -/
lemma infix_of_apart {s m before rest : List α} (hap : Apart s m)
    (h : s <:+: before ++ (m ++ rest)) : s <:+: before ∨ s <:+: rest := by
  obtain ⟨l, r, heq⟩ := h
  rw [List.append_assoc] at heq
  obtain hle | hle := hap l r before rest heq
  · left
    have hleft : l ++ s <+: before ++ (m ++ rest) := ⟨r, by rw [List.append_assoc, heq]⟩
    have hprefix : l ++ s <+: before :=
      List.prefix_of_prefix_length_le hleft (List.prefix_append _ _) (by rwa [List.length_append])
    exact (List.suffix_append l s).isInfix.trans hprefix.isInfix
  · right
    have hright : rest <:+ l ++ (s ++ r) := ⟨before ++ m, by rw [List.append_assoc, heq]⟩
    have hlen : (s ++ r).length ≤ rest.length := by
      have hlen := congrArg List.length heq
      simp only [List.length_append] at hlen ⊢
      omega
    have hsuffix : s ++ r <:+ rest :=
      List.suffix_of_suffix_length_le (List.suffix_append _ _) hright hlen
    exact (List.prefix_append s r).isInfix.trans hsuffix.isInfix

/-! ## The replacement -/

variable [DecidableEq α]

/-- The result for a text whose first `n` letters belong to an occurrence that was replaced. -/
def replaceFrom (old new : List α) : ℕ → List α → List α
  | _, [] => []
  | n + 1, _ :: text => replaceFrom old new n text
  | 0, c :: text =>
    if old <+: c :: text then new ++ replaceFrom old new (old.length - 1) text
    else c :: replaceFrom old new 0 text

-- The equations of this function are generated here, not in each proof that unfolds it.
section

attribute [local simp] replaceFrom

end

/-- **Every occurrence of `old` replaced by `new`**. The empty word occurs before every letter and
at the end. -/
def replaceAll (old new text : List α) : List α :=
  if old = [] then new ++ text.flatMap fun c => c :: new else replaceFrom old new 0 text

/-- The letters that belong to an occurrence are dropped. -/
lemma replaceFrom_eq_drop (old new : List α) (n : ℕ) (text : List α) :
    replaceFrom old new n text = replaceFrom old new 0 (text.drop n) := by
  induction text generalizing n with
  | nil => cases n <;> rfl
  | cons c text ih =>
    cases n with
    | zero => rfl
    | succ n => rw [replaceFrom, ih, List.drop_succ_cons]

/-- **The first occurrence**: either the word does not occur and nothing changes, or the text is cut
at its first occurrence. -/
lemma replaceFrom_cases {old : List α} (hold : old ≠ []) (new text : List α) :
    (¬ old <:+: text ∧ replaceFrom old new 0 text = text) ∨
      ∃ before after, text = before ++ (old ++ after) ∧ ¬ old <:+: before ∧
        replaceFrom old new 0 text = before ++ (new ++ replaceFrom old new 0 after) := by
  induction text with
  | nil => exact Or.inl ⟨fun h => hold (List.infix_nil.mp h), rfl⟩
  | cons c text ih =>
    by_cases hhead : old <+: c :: text
    · obtain ⟨after, hafter⟩ := hhead
      refine Or.inr ⟨[], after, hafter.symm, fun h => hold (List.infix_nil.mp h), ?_⟩
      have hdrop : text.drop (old.length - 1) = after := by
        cases old with
        | nil => exact absurd rfl hold
        | cons d old =>
          rw [List.cons_append, List.cons.injEq] at hafter
          rw [List.length_cons, Nat.add_sub_cancel, ← hafter.2, List.drop_left]
      rw [replaceFrom, if_pos ⟨after, hafter⟩, replaceFrom_eq_drop, hdrop, List.nil_append]
    · have hstep : replaceFrom old new 0 (c :: text) = c :: replaceFrom old new 0 text := by
        rw [replaceFrom, if_neg hhead]
      obtain ⟨hno, heq⟩ | ⟨before, after, rfl, hbefore, heq⟩ := ih
      · exact Or.inl ⟨fun h => (List.infix_cons_iff.mp h).elim hhead hno, by rw [hstep, heq]⟩
      · refine Or.inr ⟨c :: before, after, rfl, fun h => ?_, by rw [hstep, heq, List.cons_append]⟩
        obtain h | h := List.infix_cons_iff.mp h
        · exact hhead (h.trans ⟨old ++ after, rfl⟩)
        · exact hbefore h

/-- **The words in the result**: a word apart from `new` that occurs in the result occurs in the
text, and it is not the replaced word. -/
theorem infix_replaceAll {old new text s : List α} (hold : old ≠ []) (hap : Apart s new)
    (h : s <:+: replaceAll old new text) : s <:+: text ∧ s ≠ old := by
  rw [replaceAll, if_neg hold] at h
  induction hn : text.length using Nat.strong_induction_on generalizing text with
  | h n ih =>
    obtain ⟨hno, heq⟩ | ⟨before, after, rfl, hbefore, heq⟩ := replaceFrom_cases hold new text
    · rw [heq] at h
      exact ⟨h, fun hs => hno (hs ▸ h)⟩
    · rw [heq] at h
      obtain h | h := infix_of_apart hap h
      · exact ⟨h.trans (List.prefix_append _ _).isInfix, fun hs => hbefore (hs ▸ h)⟩
      · have hlt : after.length < n := by
          have := List.length_pos_iff.mpr hold
          simp only [List.length_append] at hn
          omega
        obtain ⟨hafter, hne⟩ := ih after.length hlt h rfl
        have hsuffix : after <:+ before ++ (old ++ after) :=
          ⟨before ++ old, by rw [List.append_assoc]⟩
        exact ⟨hafter.trans hsuffix.isInfix, hne⟩

end Replace
