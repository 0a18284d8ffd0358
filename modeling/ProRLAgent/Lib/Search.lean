import Mathlib.Data.List.Infix
import ProRLAgent.Lib.Replace

set_option relaxedAutoImplicit false
set_option autoImplicit false

/-!
# Searching a text for a word

Texts and words are lists. A text is cut at the first occurrence of a word; a pattern that begins
with a word is searched for from the left, once or again and again behind each match. No word is
empty.

A word whose first letter does not come again in it cannot overlap itself, so it is found where it
was put as soon as it does not occur before.

## Main definitions

* `Search.splitFirst` — the text before and behind the first occurrence of a word.
* `Search.fromLast` — the last occurrence of a word and the text behind it.
* `Search.search`, `Search.findAll` — the first match and all matches of a pattern.
* `Search.OnlyAtEnd` — a word behind a text occurs nowhere else.

## Main results

* `Search.splitFirst_append` — a word that does not overlap itself is found where it was put.
* `Search.splitFirst_eq_iff_onlyAtEnd` — when a word behind a text is found at the end.
* `Search.infix_iff_of_first`, `Search.infix_iff_of_last` — occurrences of a word whose first or
  last letter cuts the text.
* `Search.findAll_append_of_notMem` — what is put behind a text does not change the matches.
-/

namespace Search

variable {α β : Type}

/-! ## Occurrences -/

/-- A word does not occur in a text without its first letter. -/
lemma not_infix_of_notMem {c : α} {w text : List α} (h : c ∉ text) : ¬ c :: w <:+: text :=
  fun hocc => h (hocc.subset List.mem_cons_self)

/-- The first letter of a word does not come again in it. -/
def HeadOnce (word : List α) : Prop := ∃ c w, word = c :: w ∧ c ∉ w

/-- A word whose first letter does not come again occurs at the beginning of a text with that word
in it only if it occurs before. -/
lemma HeadOnce.prefix_of_append {word text after : List α} (hword : HeadOnce word)
    (htext : text ≠ []) (h : word <+: text ++ (word ++ after)) : word <+: text := by
  obtain ⟨c, w, rfl, hc⟩ := hword
  rcases List.prefix_or_prefix_of_prefix h (List.prefix_append text _) with hshort | ⟨rest, hrest⟩
  · exact hshort
  · rw [← hrest, List.prefix_append_right_inj] at h
    obtain ⟨d, text, rfl⟩ := List.exists_cons_of_ne_nil htext
    obtain ⟨rfl, hw⟩ := List.cons.inj hrest
    cases rest with
    | nil => exact ⟨[], by rw [← hrest, List.append_nil, List.append_nil]⟩
    | cons e rest =>
      -- The overlap would begin with the first letter.
      obtain ⟨rfl, -⟩ := List.cons_prefix_cons.mp h
      exact absurd (by rw [← hw]; simp) hc

/-- The parts before and behind the first such letter. -/
lemma append_cons_inj {d : α} {x x' y y' : List α} (hx : d ∉ x) (hx' : d ∉ x')
    (h : x ++ d :: y = x' ++ d :: y') : x = x' ∧ y = y' := by
  induction x generalizing x' with
  | nil =>
    cases x' with
    | nil => exact ⟨rfl, (List.cons.inj h).2⟩
    | cons e x' => exact absurd (by rw [(List.cons.inj h).1]; simp) hx'
  | cons e x ih =>
    cases x' with
    | nil => exact absurd (by rw [(List.cons.inj h).1]; simp) hx
    | cons e' x' =>
      obtain ⟨rfl, htail⟩ := List.cons.inj h
      obtain ⟨rfl, rfl⟩ := ih (fun hd => hx (by simp [hd])) (fun hd => hx' (by simp [hd])) htail
      exact ⟨rfl, rfl⟩

/-- **Occurrences of a word by its first letter**: in a text that is cut at that letter the word
begins there, or it lies behind. -/
lemma infix_iff_of_first {d : α} {x : List α} (hx : d ∉ x) (w y : List α) :
    d :: w <:+: x ++ d :: y ↔ w <+: y ∨ d :: w <:+: y := by
  constructor
  · rintro ⟨l, r, heq⟩
    by_cases hl : d ∈ l
    · obtain ⟨l₁, l₂, rfl, hl₁⟩ := List.eq_append_cons_of_mem hl
      have hcut : l₁ ++ d :: (l₂ ++ d :: w ++ r) = x ++ d :: y := by simpa using heq
      obtain ⟨-, rfl⟩ := append_cons_inj hl₁ hx hcut
      exact Or.inr ⟨l₂, r, rfl⟩
    · have hcut : l ++ d :: (w ++ r) = x ++ d :: y := by simpa using heq
      obtain ⟨-, rfl⟩ := append_cons_inj hl hx hcut
      exact Or.inl (List.prefix_append w r)
  · rintro (⟨r, rfl⟩ | ⟨l, r, rfl⟩)
    · exact ⟨x, r, by simp⟩
    · exact ⟨x ++ d :: l, r, by simp⟩

/-- **Occurrences of a word with a last letter** that stands in it once: in a text that is cut at
that letter the word ends the first part, or it lies behind. -/
lemma infix_iff_of_last {d : α} {w x : List α} (hw : d ∉ w) (hx : d ∉ x) (y : List α) :
    w ++ [d] <:+: x ++ d :: y ↔ w <:+ x ∨ w ++ [d] <:+: y := by
  constructor
  · rintro ⟨l, r, heq⟩
    by_cases hl : d ∈ l
    · -- The first such letter of the text stands before the word.
      obtain ⟨l₁, l₂, rfl, hl₁⟩ := List.eq_append_cons_of_mem hl
      have hcut : l₁ ++ d :: (l₂ ++ (w ++ [d]) ++ r) = x ++ d :: y := by simpa using heq
      obtain ⟨-, rfl⟩ := append_cons_inj hl₁ hx hcut
      exact Or.inr ⟨l₂, r, rfl⟩
    · have hcut : (l ++ w) ++ d :: r = x ++ d :: y := by simpa using heq
      obtain ⟨rfl, -⟩ := append_cons_inj (by simp [hl, hw]) hx hcut
      exact Or.inl (List.suffix_append l w)
  · rintro (⟨l, rfl⟩ | ⟨l, r, rfl⟩)
    · exact ⟨l, y, by simp⟩
    · exact ⟨x ++ d :: l, r, by simp⟩

/-- A word does not begin in a text without its first letter. -/
lemma infix_append_iff_of_notMem {c : α} {x : List α} (hx : c ∉ x) (w y : List α) :
    c :: w <:+: x ++ y ↔ c :: w <:+: y := by
  induction x with
  | nil => rfl
  | cons e x ih =>
    have hhead : ¬ c :: w <+: e :: (x ++ y) := fun h =>
      hx ((List.cons_prefix_cons.mp h).1 ▸ List.mem_cons_self)
    rw [List.cons_append, List.infix_cons_iff, or_iff_right hhead,
      ih fun hc => hx (List.mem_cons_of_mem e hc)]

/-- A word does not go on over a letter that it does not have. -/
lemma infix_or_infix_of_notMem {d : α} {w x y : List α} (hw : w ≠ []) (hd : d ∉ w)
    (h : w <:+: x ++ d :: y) : w <:+: x ∨ w <:+: y := by
  have hapart : Replace.Apart w [d] := Replace.apart_of_disjoint hw (List.cons_ne_nil d [])
    fun c hc hmem => hd (List.mem_singleton.mp hmem ▸ hc)
  exact Replace.infix_of_apart hapart h

/-- Letters behind a text that are not in the word do not make it occur. -/
lemma infix_of_append_of_forall {w x y : List α} (hw : w ≠ []) (hy : ∀ d ∈ y, d ∉ w)
    (h : w <:+: x ++ y) : w <:+: x := by
  induction y using List.reverseRecOn with
  | nil => rwa [List.append_nil] at h
  | append_singleton y d ih =>
    rw [← List.append_assoc] at h
    rcases infix_or_infix_of_notMem hw (hy d (by simp)) h with h | h
    · exact ih (fun e he => hy e (by simp [he])) h
    · exact absurd (List.infix_nil.mp h) hw

/-- A word whose last letter is not in a text does not end in it. -/
lemma infix_of_append_of_last {d : α} {w x y : List α} (hd : d ∉ y) (h : w ++ [d] <:+: x ++ y) :
    w ++ [d] <:+: x := by
  rw [← List.reverse_infix, List.reverse_append, List.reverse_append, List.reverse_singleton,
    List.singleton_append, infix_append_iff_of_notMem (by rwa [List.mem_reverse])] at h
  rwa [← List.reverse_infix, List.reverse_append, List.reverse_singleton, List.singleton_append]

/-- A word that has its last letter only once does not go over that letter. -/
lemma infix_or_infix_of_last {d : α} {w x y : List α} (hw : d ∉ w)
    (h : w ++ [d] <:+: x ++ d :: y) : w ++ [d] <:+: x ++ [d] ∨ w ++ [d] <:+: y := by
  have hshort {x : List α} (hbegin : w ++ [d] <+: x ++ [d] ++ y) : w ++ [d] <+: x ++ [d] := by
    rcases List.prefix_or_prefix_of_prefix hbegin (List.prefix_append _ _) with h | ⟨rest, h⟩
    · exact h
    · rcases List.eq_nil_or_concat rest with rfl | ⟨init, e, rfl⟩
      · rw [List.append_nil] at h
        rw [h]
      · rw [List.concat_eq_append, ← List.append_assoc] at h
        refine absurd ?_ hw
        rw [← (List.append_inj' h rfl).1]
        simp
  induction x with
  | nil =>
    rcases List.infix_cons_iff.mp h with h | h
    · exact Or.inl (hshort (x := []) h).isInfix
    · exact Or.inr h
  | cons c x ih =>
    rcases List.infix_cons_iff.mp h with h | h
    · have hparts : c :: (x ++ d :: y) = c :: x ++ [d] ++ y := by simp
      rw [List.append_eq, hparts] at h
      exact Or.inl (hshort h).isInfix
    · exact (ih h).imp (fun h => h.trans (List.suffix_cons c _).isInfix) id

/-- A word does not go on over its first letter, if that does not come again in it. -/
lemma infix_or_infix_of_append_cons {c : α} {w x y : List α} (hc : c ∉ w)
    (h : c :: w <:+: x ++ c :: y) : c :: w <:+: x ∨ c :: w <:+: c :: y := by
  induction x with
  | nil => exact Or.inr h
  | cons e x ih =>
    rw [List.cons_append, List.infix_cons_iff] at h
    rcases h with hhead | hocc
    · obtain ⟨rfl, hw⟩ := List.cons_prefix_cons.mp hhead
      rcases List.prefix_or_prefix_of_prefix hw (List.prefix_append x (c :: y)) with hshort | hlong
      · exact Or.inl (List.cons_prefix_cons.mpr ⟨rfl, hshort⟩).isInfix
      · obtain ⟨rest, rfl⟩ := hlong
        rw [List.prefix_append_right_inj] at hw
        cases rest with
        | nil => exact Or.inl (by rw [List.append_nil])
        | cons d rest =>
          obtain ⟨rfl, -⟩ := List.cons_prefix_cons.mp hw
          exact absurd (by simp) hc
    · exact (ih hocc).imp_left fun hx => hx.trans (List.suffix_cons e x).isInfix

/-- A word with a last letter that the rest does not have begins a text only in its first part. -/
lemma prefix_of_notMem {d : α} {w y : List α} (x : List α) (hd : d ∉ y)
    (h : w ++ [d] <+: x ++ y) : w ++ [d] <+: x := by
  rcases List.prefix_or_prefix_of_prefix h (List.prefix_append x y) with hshort | ⟨rest, hrest⟩
  · exact hshort
  · rcases List.eq_nil_or_concat rest with rfl | ⟨rest, e, rfl⟩
    · rw [List.append_nil] at hrest
      exact hrest ▸ List.prefix_rfl
    · rw [List.concat_eq_append, ← List.append_assoc] at hrest
      obtain ⟨-, hlast⟩ := List.append_inj' hrest rfl
      rw [← hrest, List.append_assoc, List.prefix_append_right_inj] at h
      exact absurd (h.subset (by simp [hlast])) hd

/-- A word without a letter that begins a text does so before that letter. -/
lemma prefix_of_prefix_append_cons {d : α} {w x y : List α} (hd : d ∉ w) (h : w <+: x ++ d :: y) :
    w <+: x := by
  rcases List.prefix_or_prefix_of_prefix h (List.prefix_append x (d :: y)) with hshort | hlong
  · exact hshort
  · obtain ⟨rest, rfl⟩ := hlong
    rw [List.prefix_append_right_inj] at h
    cases rest with
    | nil => rw [List.append_nil]
    | cons e rest =>
      obtain ⟨rfl, -⟩ := List.cons_prefix_cons.mp h
      exact absurd (by simp) hd

/-- A word without a letter that ends a text does so behind that letter. -/
lemma suffix_of_notMem {d : α} {w x y : List α} (hw : d ∉ w) (h : w <:+ x ++ d :: y) : w <:+ y := by
  rcases List.suffix_or_suffix_of_suffix h (List.suffix_append x (d :: y)) with hshort | hlong
  · rcases List.suffix_cons_iff.mp hshort with rfl | hshort
    · exact absurd List.mem_cons_self hw
    · exact hshort
  · exact absurd (hlong.subset List.mem_cons_self) hw

/-! ## A word at the end -/

/-- **Only at the end**: behind a text the word occurs where it was put and nowhere before. -/
def OnlyAtEnd (word text : List α) : Prop :=
  ∀ before after, text ++ word = before ++ (word ++ after) → after = []

/-- A text without the first letter of the word does not have it across the seam. -/
lemma onlyAtEnd_of_notMem {c : α} {text : List α} (h : c ∉ text) (w : List α) :
    OnlyAtEnd (c :: w) text := by
  intro before after hparts
  rcases List.append_eq_append_iff.mp hparts with ⟨m, rfl, hrest⟩ | ⟨m, rfl, hrest⟩
  · have hlength := congrArg List.length hrest
    simp only [List.length_append, List.length_cons] at hlength
    exact List.eq_nil_of_length_eq_zero (by omega)
  · cases m with
    | nil =>
      have hlength := congrArg List.length hrest
      simp only [List.nil_append, List.length_append, List.length_cons] at hlength
      exact List.eq_nil_of_length_eq_zero (by omega)
    | cons d m =>
      obtain ⟨rfl, -⟩ := List.cons.inj hrest
      exact absurd (by simp) h

/-- In a word that goes on with itself behind `m` every part without its first letter is in `m`. -/
lemma infix_of_period {c : α} {f m : List α} (hc : c ∉ f) (hf : f ≠ []) (hm : m ≠ [])
    {word after : List α} (hword : ∀ d ∈ word.head?, d = c) (heq : word ++ after = m ++ word)
    (h : f <:+: word) : f <:+: m := by
  induction hn : word.length using Nat.strong_induction_on generalizing word with
  | h n ih =>
    rcases List.append_eq_append_iff.mp heq with ⟨x, rfl, -⟩ | ⟨b, rfl, hb⟩
    · exact h.trans (List.prefix_append word x).isInfix
    · cases b with
      | nil => rwa [List.append_nil] at h
      | cons d b =>
        -- The rest begins with the same letter, so the part does not stand across its beginning.
        have hd : d = c := by
          obtain ⟨e, m, rfl⟩ := List.exists_cons_of_ne_nil hm
          rw [List.cons_append, List.cons_append] at hb
          rw [← (List.cons.inj hb).1]
          exact hword e (by simp)
        subst hd
        have hapart : Replace.Apart f [d] :=
          Replace.apart_of_disjoint hf (by simp) (by rintro e he hmem; exact hc (List.mem_singleton.mp hmem ▸ he))
        rcases Replace.infix_of_apart hapart h with hocc | hocc
        · exact hocc
        · refine ih (d :: b).length ?_ (by simp) hb.symm (hocc.trans (List.suffix_cons d b).isInfix)
            rfl
          rw [← hn, List.length_append]
          have := List.length_pos_iff.mpr hm
          omega

/-- **A word with a part that the text does not have** is found at the end only, if that part is
without the first letter of the word. -/
theorem onlyAtEnd_of_not_infix {c : α} {f w text : List α} (hc : c ∉ f) (hf : f ≠ [])
    (hpart : f <:+: c :: w) (h : ¬ f <:+: text) : OnlyAtEnd (c :: w) text := by
  intro before after hparts
  rcases List.append_eq_append_iff.mp hparts with ⟨m, rfl, hrest⟩ | ⟨m, rfl, hrest⟩
  · have hlength := congrArg List.length hrest
    simp only [List.length_append, List.length_cons] at hlength
    exact List.eq_nil_of_length_eq_zero (by omega)
  · by_cases hm : m = []
    · have hlength := congrArg List.length hrest
      rw [hm] at hlength
      simp only [List.nil_append, List.length_append, List.length_cons] at hlength
      exact List.eq_nil_of_length_eq_zero (by omega)
    · have hocc : f <:+: m := infix_of_period hc hf hm (by simp) hrest hpart
      exact absurd (hocc.trans (List.suffix_append before m).isInfix) h

/-! ## The first occurrence -/

variable [DecidableEq α]

/-- The text before and behind the first occurrence of a word. -/
def splitFirst (word : List α) : List α → Option (List α × List α)
  | [] => none
  | c :: text =>
    if word <+: c :: text then some ([], (c :: text).drop word.length)
    else (splitFirst word text).map fun parts => (c :: parts.1, parts.2)

/-- `text.split(word)[0]`. -/
def beforeFirst (word text : List α) : List α :=
  ((splitFirst word text).map Prod.fst).getD text

/-- `text.replace(word, '', 1)`. -/
def removeFirst (word text : List α) : List α :=
  ((splitFirst word text).map fun parts => parts.1 ++ parts.2).getD text

/-- `text.count(word)`: the first `skip` letters belong to an occurrence that was counted. -/
def countFrom (word : List α) : ℕ → List α → ℕ
  | _, [] => 0
  | skip + 1, _ :: text => countFrom word skip text
  | 0, c :: text =>
    if word <+: c :: text then countFrom word (word.length - 1) text + 1 else countFrom word 0 text

-- The equations of these functions are generated here, not in each proof that unfolds them.
section

attribute [local simp] splitFirst countFrom

end

/-- The two parts are the text without the word. -/
lemma splitFirst_spec {word text before after : List α}
    (h : splitFirst word text = some (before, after)) : text = before ++ (word ++ after) := by
  induction text generalizing before with
  | nil => cases h
  | cons c text ih =>
    rw [splitFirst] at h
    split_ifs at h with hword
    · obtain ⟨rfl, rfl⟩ := Prod.mk.inj (Option.some.inj h)
      obtain ⟨after, hafter⟩ := hword
      rw [List.nil_append, ← hafter, List.drop_left]
    · obtain ⟨parts, hparts, heq⟩ := Option.map_eq_some_iff.mp h
      obtain ⟨rfl, rfl⟩ := Prod.mk.inj heq
      rw [List.cons_append, ← ih hparts]

/-- No occurrence stands before the first one. -/
lemma splitFirst_le {word text before after b a : List α}
    (h : splitFirst word text = some (before, after)) (hparts : text = b ++ (word ++ a)) :
    before.length ≤ b.length := by
  induction text generalizing before after b with
  | nil => cases h
  | cons c text ih =>
    rw [splitFirst] at h
    split_ifs at h with hword
    · obtain ⟨rfl, -⟩ := Prod.mk.inj (Option.some.inj h)
      exact Nat.zero_le _
    · obtain ⟨parts, hsplit, heq⟩ := Option.map_eq_some_iff.mp h
      obtain ⟨rfl, -⟩ := Prod.mk.inj heq
      cases b with
      | nil => exact absurd ⟨a, hparts.symm⟩ hword
      | cons d b => exact Nat.succ_le_succ (ih hsplit (List.cons.inj hparts).2)

/-- The word does not occur before its first occurrence. -/
lemma not_infix_of_splitFirst {word text before after : List α} (hword : word ≠ [])
    (h : splitFirst word text = some (before, after)) : ¬ word <:+: before := by
  rintro ⟨l, r, rfl⟩
  have hparts : text = l ++ (word ++ (r ++ (word ++ after))) := by
    rw [splitFirst_spec h]
    simp
  have hle := splitFirst_le h hparts
  have hpos := List.length_pos_iff.mpr hword
  simp only [List.length_append] at hle
  omega

/-- A word that occurs is found. -/
lemma exists_splitFirst {word text : List α} (hword : word ≠ []) (h : word <:+: text) :
    ∃ before after, splitFirst word text = some (before, after) := by
  induction text with
  | nil => exact absurd (List.infix_nil.mp h) hword
  | cons c text ih =>
    rw [splitFirst]
    split_ifs with hhead
    · exact ⟨_, _, rfl⟩
    · obtain ⟨before, after, hparts⟩ := ih ((List.infix_cons_iff.mp h).resolve_left hhead)
      exact ⟨c :: before, after, by rw [hparts]; rfl⟩

/-- A word at the beginning is found there. -/
lemma splitFirst_self_append {word : List α} (hword : word ≠ []) (after : List α) :
    splitFirst word (word ++ after) = some ([], after) := by
  obtain ⟨c, w, rfl⟩ := List.exists_cons_of_ne_nil hword
  rw [List.cons_append, splitFirst, ← List.cons_append, if_pos (List.prefix_append _ _),
    List.drop_left]

/-- **A word is found where it was put**, if its first letter does not come again in it and it does
not occur before. -/
theorem splitFirst_append {word before : List α} (hword : HeadOnce word)
    (h : ¬ word <:+: before) (after : List α) :
    splitFirst word (before ++ (word ++ after)) = some (before, after) := by
  induction before with
  | nil =>
    obtain ⟨c, w, rfl, -⟩ := hword
    exact splitFirst_self_append (List.cons_ne_nil c w) after
  | cons d before ih =>
    have hhead : ¬ word <+: d :: before := fun hocc => h hocc.isInfix
    have htail : ¬ word <:+: before := fun hocc => h (hocc.trans (List.suffix_cons d _).isInfix)
    rw [List.cons_append, splitFirst, ← List.cons_append,
      if_neg (mt (hword.prefix_of_append (List.cons_ne_nil _ _)) hhead), ih htail]
    rfl

/-- **The word is found at the end** exactly if it occurs nowhere before. -/
theorem splitFirst_eq_iff_onlyAtEnd {word : List α} (hword : word ≠ []) (text : List α) :
    splitFirst word (text ++ word) = some (text, []) ↔ OnlyAtEnd word text := by
  constructor
  · intro hsplit before after hparts
    have hle := splitFirst_le hsplit hparts
    have hlength := congrArg List.length hparts
    simp only [List.length_append] at hlength
    exact List.eq_nil_of_length_eq_zero (by omega)
  · intro honly
    obtain ⟨before, after, hsplit⟩ := exists_splitFirst hword (List.suffix_append text word).isInfix
    have hparts := splitFirst_spec hsplit
    obtain rfl := honly before after hparts
    rw [List.append_nil] at hparts
    rw [hsplit, List.append_cancel_right hparts]

/-- A word that does not occur is not found. -/
lemma splitFirst_eq_none {word text : List α} (h : ¬ word <:+: text) :
    splitFirst word text = none := by
  induction text with
  | nil => rfl
  | cons c text ih =>
    rw [List.infix_cons_iff, not_or] at h
    rw [splitFirst, if_neg h.1, ih h.2]
    rfl

/-- Where no occurrence begins the search goes on. -/
lemma splitFirst_cons_of_not {word x : List α} {c : α} (h : ¬ word <+: c :: x) :
    splitFirst word (c :: x) = (splitFirst word x).map fun parts => (c :: parts.1, parts.2) := by
  rw [splitFirst, if_neg h]

/-- A text in which no occurrence begins does not change what is found behind it. -/
theorem splitFirst_append_left {word x y : List α}
    (h : ∀ before after, x ++ y = before ++ (word ++ after) → x.length ≤ before.length) :
    splitFirst word (x ++ y) = (splitFirst word y).map fun parts => (x ++ parts.1, parts.2) := by
  induction x with
  | nil => simp
  | cons c x ih =>
    have hnot : ¬ word <+: c :: (x ++ y) := by
      rintro ⟨after, hafter⟩
      have hle := h [] after hafter.symm
      simp at hle
    have htail : ∀ before after, x ++ y = before ++ (word ++ after) → x.length ≤ before.length := by
      intro before after heq
      have hle := h (c :: before) after (by rw [List.cons_append, heq, List.cons_append])
      simpa using hle
    rw [List.cons_append, splitFirst_cons_of_not hnot, ih htail, Option.map_map]
    rfl

/-- **What is put behind a text** does not change where a word is found in it. -/
theorem splitFirst_append_right {word x before after : List α}
    (h : splitFirst word x = some (before, after)) (y : List α) :
    splitFirst word (x ++ y) = some (before, after ++ y) := by
  induction x generalizing before with
  | nil => cases h
  | cons c x ih =>
    rw [splitFirst] at h
    rw [List.cons_append, splitFirst]
    split_ifs at h with hhead
    · obtain ⟨rfl, rfl⟩ := Prod.mk.inj (Option.some.inj h)
      have hlong : word <+: c :: (x ++ y) := hhead.trans (List.prefix_append (c :: x) y)
      rw [if_pos hlong, ← List.cons_append, List.drop_append_of_le_length hhead.length_le]
    · obtain ⟨parts, hparts, heq⟩ := Option.map_eq_some_iff.mp h
      obtain ⟨rfl, rfl⟩ := Prod.mk.inj heq
      have hlong : ¬ word <+: c :: (x ++ y) := by
        intro hlong
        refine hhead (List.prefix_of_prefix_length_le hlong (List.prefix_append (c :: x) y) ?_)
        have hlength := congrArg List.length (splitFirst_spec hparts)
        simp only [List.length_append] at hlength
        rw [List.length_cons]
        omega
      rw [if_neg hlong, ih hparts]
      rfl

/-- A word is found behind a letter that it does not have, if it does not occur before. -/
theorem splitFirst_append_of_last {word text : List α} {d : α} (hword : word ≠ []) (hd : d ∉ word)
    (h : ¬ word <:+: text ++ [d]) (after : List α) :
    splitFirst word (text ++ [d] ++ (word ++ after)) = some (text ++ [d], after) := by
  induction text with
  | nil =>
    have hhead : ¬ word <+: d :: (word ++ after) := by
      obtain ⟨c, w, rfl⟩ := List.exists_cons_of_ne_nil hword
      rw [List.cons_append, List.cons_prefix_cons]
      exact fun hhead => hd (hhead.1 ▸ List.mem_cons_self)
    rw [List.nil_append, List.singleton_append, splitFirst, if_neg hhead,
      splitFirst_self_append hword]
    rfl
  | cons c text ih =>
    rw [List.cons_append, List.infix_cons_iff, not_or] at h
    have hhead : ¬ word <+: c :: (text ++ [d] ++ (word ++ after)) := by
      intro hlong
      have hcut : word <+: (c :: text) ++ d :: (word ++ after) := by simpa using hlong
      exact h.1 ((prefix_of_prefix_append_cons hd hcut).trans (List.prefix_append (c :: text) [d]))
    rw [List.cons_append, List.cons_append, splitFirst, if_neg hhead, ih h.2]
    rfl

/-- What is put behind a text does not change where a word is found, if it does not have the last
letter of the word. -/
lemma splitFirst_append_of_notMem {d : α} {w y : List α} (hd : d ∉ y) (x : List α) :
    splitFirst (w ++ [d]) (x ++ y) =
      (splitFirst (w ++ [d]) x).map fun parts => (parts.1, parts.2 ++ y) := by
  induction x with
  | nil =>
    rw [List.nil_append, splitFirst_eq_none fun hocc => hd (hocc.subset (by simp))]
    rfl
  | cons c x ih =>
    rw [List.cons_append, splitFirst, splitFirst, ih]
    by_cases hhead : w ++ [d] <+: c :: x
    · have hlong : w ++ [d] <+: c :: (x ++ y) := hhead.trans (List.prefix_append (c :: x) y)
      rw [if_pos hhead, if_pos hlong, Option.map_some, ← List.cons_append,
        List.drop_append_of_le_length hhead.length_le]
    · have hlong : ¬ w ++ [d] <+: c :: (x ++ y) := mt (prefix_of_notMem (c :: x) hd) hhead
      rw [if_neg hhead, if_neg hlong, Option.map_map, Option.map_map]
      rfl

/-! ## Counting -/

/-- The letters that belong to an occurrence are not counted again. -/
lemma countFrom_eq_drop (word : List α) (skip : ℕ) (text : List α) :
    countFrom word skip text = countFrom word 0 (text.drop skip) := by
  induction text generalizing skip with
  | nil => cases skip <;> rfl
  | cons c text ih =>
    cases skip with
    | zero => rfl
    | succ skip => rw [countFrom, ih, List.drop_succ_cons]

/-- A word that does not occur. -/
lemma countFrom_eq_zero {word text : List α} (h : ¬ word <:+: text) :
    countFrom word 0 text = 0 := by
  induction text with
  | nil => rfl
  | cons c text ih =>
    rw [List.infix_cons_iff, not_or] at h
    rw [countFrom, if_neg h.1, ih h.2]

/-- **A word that was put into a text** counts once more than behind it. -/
theorem countFrom_append {word before : List α} (hword : HeadOnce word) (h : ¬ word <:+: before)
    (after : List α) : countFrom word 0 (before ++ (word ++ after)) = countFrom word 0 after + 1 := by
  induction before with
  | nil =>
    obtain ⟨c, w, rfl, -⟩ := hword
    rw [List.nil_append, List.cons_append, countFrom, ← List.cons_append,
      if_pos (List.prefix_append _ _), countFrom_eq_drop, List.length_cons, Nat.add_sub_cancel,
      List.drop_left]
  | cons d before ih =>
    have hhead : ¬ word <+: d :: before := fun hocc => h hocc.isInfix
    have htail : ¬ word <:+: before := fun hocc => h (hocc.trans (List.suffix_cons d _).isInfix)
    rw [List.cons_append, countFrom, ← List.cons_append,
      if_neg (mt (hword.prefix_of_append (List.cons_ne_nil _ _)) hhead), ih htail]

/-- The positions at which a word occurs. -/
def occurrences (word : List α) : List α → ℕ
  | [] => 0
  | c :: text => occurrences word text + if word <+: c :: text then 1 else 0

section

attribute [local simp] occurrences

end

/-- A word that does not occur. -/
lemma occurrences_eq_zero_iff {word text : List α} (hword : word ≠ []) :
    occurrences word text = 0 ↔ ¬ word <:+: text := by
  induction text with
  | nil => simpa [occurrences] using hword
  | cons c text ih =>
    rw [occurrences, List.infix_cons_iff, not_or, Nat.add_eq_zero_iff, ih]
    by_cases h : word <+: c :: text <;> simp [h]

/-- The occurrences in two parts are occurrences in the whole text. -/
lemma occurrences_add_le (word x y : List α) :
    occurrences word x + occurrences word y ≤ occurrences word (x ++ y) := by
  induction x with
  | nil => simp [occurrences]
  | cons c x ih =>
    have hmono : (if word <+: c :: x then 1 else 0) ≤ if word <+: c :: (x ++ y) then 1 else 0 := by
      by_cases h : word <+: c :: x
      · have hlong : word <+: c :: (x ++ y) := h.trans (List.prefix_append (c :: x) y)
        rw [if_pos h, if_pos hlong]
      · rw [if_neg h]
        exact Nat.zero_le _
    simp only [occurrences, List.cons_append]
    omega

/-- A word does not begin in a text without its first letter. -/
lemma occurrences_append_of_notMem {c : α} {w x : List α} (hx : c ∉ x) (y : List α) :
    occurrences (c :: w) (x ++ y) = occurrences (c :: w) y := by
  induction x with
  | nil => rfl
  | cons e x ih =>
    rw [List.mem_cons, not_or] at hx
    have hhead : ¬ c :: w <+: e :: (x ++ y) := fun h => hx.1 (List.cons_prefix_cons.mp h).1
    rw [List.cons_append, occurrences, if_neg hhead, ih hx.2, Nat.add_zero]

/-- **A word does not go on over its first letter**, so a text can be cut there. -/
lemma occurrences_append_cons {c : α} {w : List α} (hc : c ∉ w) (x y : List α) :
    occurrences (c :: w) (x ++ c :: y) =
      occurrences (c :: w) x + occurrences (c :: w) (c :: y) := by
  induction x with
  | nil => rw [List.nil_append, occurrences, Nat.zero_add]
  | cons e x ih =>
    have hhead : c :: w <+: e :: (x ++ c :: y) ↔ c :: w <+: e :: x := by
      rw [List.cons_prefix_cons, List.cons_prefix_cons]
      refine and_congr_right fun _ => ⟨prefix_of_prefix_append_cons hc, fun h => ?_⟩
      exact h.trans (List.prefix_append x _)
    simp only [List.cons_append, occurrences, hhead] at ih ⊢
    omega

/-- **Counting finds every occurrence** of a word that does not overlap itself. -/
theorem countFrom_eq_occurrences {word : List α} (hword : HeadOnce word) (text : List α) :
    countFrom word 0 text = occurrences word text := by
  obtain ⟨c, w, rfl, hc⟩ := hword
  induction hn : text.length using Nat.strong_induction_on generalizing text with
  | h n ih =>
    cases text with
    | nil => rfl
    | cons e text =>
      rw [List.length_cons] at hn
      rw [countFrom, occurrences]
      split_ifs with hhead
      · -- No occurrence begins inside the one that was found.
        obtain ⟨rest, hrest⟩ := hhead
        rw [List.cons_append] at hrest
        obtain ⟨rfl, rfl⟩ := List.cons.inj hrest
        rw [countFrom_eq_drop, List.length_cons, Nat.add_sub_cancel, List.drop_left,
          occurrences_append_of_notMem hc, ih rest.length _ rest rfl]
        rw [← hn, List.length_append]
        omega
      · exact ih text.length (by omega) text rfl

/-! ## The last occurrence -/

/-- `text[text.rfind(word):]`: the last occurrence of a word and what stands behind it. -/
def fromLast (word : List α) : List α → Option (List α)
  | [] => none
  | c :: text =>
    match fromLast word text with
    | some tail => some tail
    | none => if word <+: c :: text then some (c :: text) else none

section

attribute [local simp] fromLast

end

/-- A word that does not occur has no last occurrence. -/
lemma fromLast_eq_none {word text : List α} (h : ¬ word <:+: text) : fromLast word text = none := by
  induction text with
  | nil => rfl
  | cons c text ih =>
    rw [List.infix_cons_iff, not_or] at h
    rw [fromLast, ih h.2, if_neg h.1]

/-- **The last occurrence** is the one behind whose first letter the word does not occur. -/
theorem fromLast_append {word tail : List α} {c : α} (h : word <+: c :: tail)
    (hlast : ¬ word <:+: tail) (before : List α) :
    fromLast word (before ++ c :: tail) = some (c :: tail) := by
  induction before with
  | nil => rw [List.nil_append, fromLast, fromLast_eq_none hlast, if_pos h]
  | cons d before ih => rw [List.cons_append, fromLast, ih]

/-! ## Patterns that begin with a word -/

/-- The match of a pattern at the beginning of a text: a word, and a function that reads the text
behind it. -/
def matchAt (word : List α) (k : List α → Option β) (text : List α) : Option β :=
  if word <+: text then k (text.drop word.length) else none

/-- `re.search`: the first match. -/
def search (word : List α) (k : List α → Option β) : List α → Option β
  | [] => none
  | c :: text =>
    match matchAt word k (c :: text) with
    | some b => some b
    | none => search word k text

/-- The matches in a text whose first `skip` letters belong to an earlier match. -/
def findAllFrom (word : List α) (k : List α → Option (β × List α)) : ℕ → List α → List β
  | _, [] => []
  | skip + 1, _ :: text => findAllFrom word k skip text
  | 0, c :: text =>
    match matchAt word k (c :: text) with
    | some (b, rest) => b :: findAllFrom word k (text.length - rest.length) text
    | none => findAllFrom word k 0 text

/-- `re.finditer`: the matches from the left, each behind the one before. The function that reads a
match gives the rest of the text. -/
def findAll (word : List α) (k : List α → Option (β × List α)) (text : List α) : List β :=
  findAllFrom word k 0 text

section

attribute [local simp] search findAllFrom

end

/-- The match at a word. -/
@[simp] lemma matchAt_append (word : List α) (k : List α → Option β) (text : List α) :
    matchAt word k (word ++ text) = k text := by
  rw [matchAt, if_pos (List.prefix_append _ _), List.drop_left]

/-- **The first match** is at the first occurrence of the word, if the pattern matches there. -/
theorem search_of_splitFirst {word text before after : List α} {k : List α → Option β} {b : β}
    (h : splitFirst word text = some (before, after)) (hk : k after = some b) :
    search word k text = some b := by
  induction text generalizing before with
  | nil => cases h
  | cons c text ih =>
    rw [splitFirst] at h
    rw [search, matchAt]
    split_ifs at h ⊢ with hword
    · obtain ⟨-, rfl⟩ := Prod.mk.inj (Option.some.inj h)
      rw [hk]
    · obtain ⟨parts, hsplit, heq⟩ := Option.map_eq_some_iff.mp h
      obtain ⟨-, rfl⟩ := Prod.mk.inj heq
      exact ih hsplit

/-- A pattern does not match in a text without its word. -/
theorem search_eq_none {word text : List α} (k : List α → Option β) (h : ¬ word <:+: text) :
    search word k text = none := by
  induction text with
  | nil => rfl
  | cons c text ih =>
    rw [List.infix_cons_iff, not_or] at h
    rw [search, matchAt, if_neg h.1]
    exact ih h.2

/-- The letters that belong to a match are dropped. -/
lemma findAllFrom_eq_drop (word : List α) (k : List α → Option (β × List α)) (skip : ℕ)
    (text : List α) : findAllFrom word k skip text = findAll word k (text.drop skip) := by
  induction text generalizing skip with
  | nil => cases skip <;> rfl
  | cons c text ih =>
    cases skip with
    | zero => rfl
    | succ skip => rw [findAllFrom, ih, List.drop_succ_cons]

/-- The matches behind a letter at which the word does not stand. -/
lemma findAll_cons_of_not_prefix {word text : List α} {c : α} (k : List α → Option (β × List α))
    (h : ¬ word <+: c :: text) : findAll word k (c :: text) = findAll word k text := by
  rw [findAll, findAllFrom, matchAt, if_neg h, findAll]

/-- No match begins behind the last occurrence of the word. -/
lemma findAllFrom_eq_nil {word text : List α} (k : List α → Option (β × List α))
    (h : ¬ word <:+: text) (skip : ℕ) : findAllFrom word k skip text = [] := by
  induction text generalizing skip with
  | nil => cases skip <;> rfl
  | cons c text ih =>
    rw [List.infix_cons_iff, not_or] at h
    cases skip with
    | zero => rw [findAllFrom, matchAt, if_neg h.1, ih h.2]
    | succ skip => rw [findAllFrom, ih h.2]

/-- **The matches in a text do not depend on what is put behind it**, if that does not have the last
letter of the word and the pattern does not look at it. -/
theorem findAll_append_of_notMem {d : α} {w y : List α} (hd : d ∉ y)
    {k : List α → Option (β × List α)}
    (hk : ∀ x, k (x ++ y) = (k x).map fun found => (found.1, found.2 ++ y)) (x : List α) :
    findAll (w ++ [d]) k (x ++ y) = findAll (w ++ [d]) k x := by
  suffices h : ∀ skip, findAllFrom (w ++ [d]) k skip (x ++ y) = findAllFrom (w ++ [d]) k skip x from
    h 0
  induction x with
  | nil =>
    intro skip
    rw [List.nil_append, findAllFrom_eq_nil k fun hocc => hd (hocc.subset (by simp))]
    cases skip <;> rfl
  | cons c x ih =>
    intro skip
    cases skip with
    | succ skip => exact ih skip
    | zero =>
      rw [List.cons_append, findAllFrom, findAllFrom, matchAt, matchAt]
      by_cases hhead : w ++ [d] <+: c :: x
      · have hlong : w ++ [d] <+: c :: (x ++ y) := hhead.trans (List.prefix_append (c :: x) y)
        rw [if_pos hhead, if_pos hlong, ← List.cons_append,
          List.drop_append_of_le_length hhead.length_le, hk]
        cases hfound : k ((c :: x).drop (w ++ [d]).length) with
        | none => exact ih 0
        | some found =>
          simp only [Option.map_some, List.length_append, Nat.add_sub_add_right]
          rw [ih]
      · have hlong : ¬ w ++ [d] <+: c :: (x ++ y) := mt (prefix_of_notMem (c :: x) hd) hhead
        rw [if_neg hhead, if_neg hlong]
        exact ih 0

/-- **The matches of a text that begins with one**, and those of the rest. -/
theorem findAll_append {word text rest : List α} {k : List α → Option (β × List α)} {b : β}
    (hword : word ≠ []) (hk : k text = some (b, rest)) (hrest : rest <:+ text) :
    findAll word k (word ++ text) = b :: findAll word k rest := by
  obtain ⟨c, w, rfl⟩ := List.exists_cons_of_ne_nil hword
  have hdrop : (w ++ text).drop ((w ++ text).length - rest.length) = rest :=
    (List.suffix_iff_eq_drop.mp (hrest.trans (List.suffix_append w text))).symm
  have hmatch : matchAt (c :: w) k (c :: (w ++ text)) = some (b, rest) := by
    rw [← List.cons_append, matchAt_append, hk]
  rw [List.cons_append, findAll, findAllFrom, hmatch]
  simp only [findAllFrom_eq_drop, hdrop]

/-- The search passes over a part in which the word does not begin. -/
lemma findAll_append_of_not_infix {word x : List α} (hword : HeadOnce word)
    (h : ¬ word <:+: x) (k : List α → Option (β × List α)) (after : List α) :
    findAll word k (x ++ (word ++ after)) = findAll word k (word ++ after) := by
  induction x with
  | nil => rfl
  | cons c x ih =>
    rw [List.infix_cons_iff, not_or] at h
    rw [List.cons_append, findAll_cons_of_not_prefix k, ih h.2]
    exact mt (hword.prefix_of_append (List.cons_ne_nil c x)) h.1

/-- Where the pattern does not match at the word, the search goes on behind it. -/
lemma findAll_append_of_none {word : List α} (hword : HeadOnce word)
    {k : List α → Option (β × List α)} {after : List α} (hk : k after = none) :
    findAll word k (word ++ after) = findAll word k after := by
  have hinside {c : α} {w x : List α} (hx : c ∉ x) :
      findAll (c :: w) k (x ++ after) = findAll (c :: w) k after := by
    induction x with
    | nil => rfl
    | cons e x ih =>
      rw [List.mem_cons, not_or] at hx
      rw [List.cons_append, findAll_cons_of_not_prefix k, ih hx.2]
      exact fun h => hx.1 (List.cons_prefix_cons.mp h).1
  obtain ⟨c, w, rfl, hc⟩ := hword
  have hmatch : matchAt (c :: w) k (c :: (w ++ after)) = none := by
    rw [← List.cons_append, matchAt_append, hk]
  rw [List.cons_append, findAll, findAllFrom, hmatch]
  exact hinside hc

/-- **The matches from the first occurrence on**: the one there and those behind it, or those behind
the word. -/
theorem findAll_of_splitFirst {word text before after : List α} (hword : HeadOnce word)
    {k : List α → Option (β × List α)}
    (hk : ∀ {x b rest}, k x = some (b, rest) → rest <:+ x)
    (h : splitFirst word text = some (before, after)) :
    findAll word k text =
      match k after with
      | some (b, rest) => b :: findAll word k rest
      | none => findAll word k after := by
  have hne : word ≠ [] := by
    obtain ⟨c, w, rfl, -⟩ := hword
    exact List.cons_ne_nil c w
  rw [splitFirst_spec h, findAll_append_of_not_infix hword
    (not_infix_of_splitFirst hne h)]
  rcases hfound : k after with _ | ⟨b, rest⟩
  · exact findAll_append_of_none hword hfound
  · exact findAll_append hne hfound (hk hfound)

end Search
