import Mathlib.Data.List.Basic
import Mathlib.Data.List.Pairwise
import Mathlib.Order.Lattice

set_option relaxedAutoImplicit false
set_option autoImplicit false

/-!
# Matching brackets with a stack

In a list some elements are opening brackets and some are closing ones. A closing bracket matches the
last opening one that is still unmatched; a closing bracket without one is passed over. The pairs
found with a stack are those with a balanced part between them.

Without a stack, brackets can be counted: the count is back at zero at the bracket that closes the
first one.

## Main definitions

* `Brackets.Balanced` — every bracket of a list has its partner in the list.
* `Brackets.Pair` — two brackets with a balanced part between them.
* `Brackets.pairs` — the pairs found with a stack.
* `Brackets.closeOf` — the bracket that closes an open one, found by counting.

## Main results

* `Brackets.mem_pairs_iff` — the stack finds exactly the pairs.
* `Brackets.pairwise_pairs` — two pairs are apart or one lies inside the other.
* `Brackets.closeOf_append_iff` — a part is found by counting exactly if it is nested.
-/

namespace Brackets

variable {α : Type*} (isOpen isClose : α → Bool)

/-- Every bracket has its partner. -/
inductive Balanced : List α → Prop
  | nil : Balanced []
  | plain {a : α} {l : List α} (hopen : isOpen a = false) (hclose : isClose a = false)
      (h : Balanced l) : Balanced (a :: l)
  | block {o c : α} {inner l : List α} (ho : isOpen o = true) (hc : isClose c = true)
      (hc' : isOpen c = false) (hinner : Balanced inner) (h : Balanced l) :
      Balanced (o :: (inner ++ c :: l))

/-- **A pair**: a bracket and its partner, with a balanced part between them. -/
def Pair (l : List α) (o c : α) : Prop :=
  ∃ before inner after, l = before ++ o :: (inner ++ c :: after) ∧ isOpen o = true ∧
    isClose c = true ∧ isOpen c = false ∧ Balanced isOpen isClose inner

/-- The pairs of a list, behind opening brackets that are on the stack. -/
def pairs : List α → List α → List (α × α)
  | [], _ => []
  | a :: l, stack =>
    if isOpen a then pairs l (a :: stack)
    else if isClose a then
      match stack with
      | [] => pairs l []
      | o :: stack => (o, a) :: pairs l stack
    else pairs l stack

section

attribute [local simp] pairs

end

variable {isOpen isClose}

/-- Balanced parts, one behind the other. -/
lemma Balanced.append {l l' : List α} (h : Balanced isOpen isClose l)
    (h' : Balanced isOpen isClose l') : Balanced isOpen isClose (l ++ l') := by
  induction h with
  | nil => exact h'
  | plain hopen hclose _ ih => exact .plain hopen hclose ih
  | block ho hc hc' hinner _ _ ih =>
    rw [List.cons_append, List.append_assoc, List.cons_append]
    exact .block ho hc hc' hinner ih

/-- A pair in the rest of a list. -/
lemma Pair.cons {l : List α} {o c : α} (h : Pair isOpen isClose l o c) (a : α) :
    Pair isOpen isClose (a :: l) o c := by
  obtain ⟨before, inner, after, rfl, hpair⟩ := h
  exact ⟨a :: before, inner, after, rfl, hpair⟩

section Cons

variable {a : α} {l stack : List α}

lemma pairs_open (h : isOpen a = true) :
    pairs isOpen isClose (a :: l) stack = pairs isOpen isClose l (a :: stack) := by
  rw [pairs.eq_def]
  exact if_pos h

lemma pairs_close (h : isOpen a = false) (h' : isClose a = true) (o : α) :
    pairs isOpen isClose (a :: l) (o :: stack) = (o, a) :: pairs isOpen isClose l stack := by
  rw [pairs.eq_def]
  simp only [h, h', Bool.false_eq_true, if_false, if_true]

lemma pairs_close_nil (h : isOpen a = false) (h' : isClose a = true) :
    pairs isOpen isClose (a :: l) [] = pairs isOpen isClose l [] := by
  rw [pairs.eq_def]
  simp only [h, h', Bool.false_eq_true, if_false, if_true]

lemma pairs_plain (h : isOpen a = false) (h' : isClose a = false) :
    pairs isOpen isClose (a :: l) stack = pairs isOpen isClose l stack := by
  rw [pairs.eq_def]
  simp only [h, h', Bool.false_eq_true, if_false]

end Cons

/-! ## The stack finds the pairs -/

/-- A balanced part leaves the stack as it was. -/
lemma Balanced.pairs_append {inner : List α} (h : Balanced isOpen isClose inner)
    (l stack : List α) :
    ∃ found, pairs isOpen isClose (inner ++ l) stack = found ++ pairs isOpen isClose l stack := by
  induction h generalizing l stack with
  | nil => exact ⟨[], rfl⟩
  | plain hopen hclose _ ih =>
    rw [List.cons_append, pairs_plain hopen hclose]
    exact ih l stack
  | block ho hc hc' _ _ ihinner ih =>
    rename_i o c inner rest _ _
    obtain ⟨found, hfound⟩ := ihinner (c :: (rest ++ l)) (o :: stack)
    obtain ⟨found', hfound'⟩ := ih l stack
    refine ⟨found ++ (o, c) :: found', ?_⟩
    rw [List.cons_append, List.append_assoc, List.cons_append, pairs_open ho, hfound,
      pairs_close hc' hc, hfound', List.append_assoc, List.cons_append]

/-- Every list leaves some stack. -/
lemma exists_pairs_append (isOpen isClose : α → Bool) (before l stack : List α) :
    ∃ found stack', pairs isOpen isClose (before ++ l) stack =
      found ++ pairs isOpen isClose l stack' := by
  induction before generalizing stack with
  | nil => exact ⟨[], stack, rfl⟩
  | cons a before ih =>
    rw [List.cons_append]
    cases ho : isOpen a with
    | true =>
      rw [pairs_open ho]
      exact ih _
    | false =>
      cases hc : isClose a with
      | false =>
        rw [pairs_plain ho hc]
        exact ih _
      | true =>
        cases stack with
        | nil =>
          rw [pairs_close_nil ho hc]
          exact ih _
        | cons o stack =>
          obtain ⟨found, stack', h⟩ := ih stack
          exact ⟨(o, a) :: found, stack', by rw [pairs_close ho hc, h, List.cons_append]⟩

/-- A pair is found. -/
lemma Pair.mem_pairs {l : List α} {o c : α} (h : Pair isOpen isClose l o c) :
    (o, c) ∈ pairs isOpen isClose l [] := by
  obtain ⟨before, inner, after, rfl, ho, hc, hc', hinner⟩ := h
  obtain ⟨found, stack, hbefore⟩ :=
    exists_pairs_append isOpen isClose before (o :: (inner ++ c :: after)) []
  obtain ⟨found', hinner⟩ := hinner.pairs_append (c :: after) (o :: stack)
  rw [hbefore, pairs_open ho, hinner, pairs_close hc' hc]
  simp

/-- A list that closes `n` brackets from before it, with balanced parts between them. -/
inductive Closes (isOpen isClose : α → Bool) : ℕ → List α → Prop
  | zero {l : List α} (h : Balanced isOpen isClose l) : Closes isOpen isClose 0 l
  | succ {n : ℕ} {c : α} {l l' : List α} (h : Balanced isOpen isClose l) (hc : isClose c = true)
      (hc' : isOpen c = false) (h' : Closes isOpen isClose n l') :
      Closes isOpen isClose (n + 1) (l ++ c :: l')

/-- A balanced part in front. -/
lemma Closes.append {n : ℕ} {l l' : List α} (h : Balanced isOpen isClose l)
    (h' : Closes isOpen isClose n l') : Closes isOpen isClose n (l ++ l') := by
  cases h' with
  | zero h' => exact .zero (h.append h')
  | succ h' hc hc' hrest =>
    rw [← List.append_assoc]
    exact .succ (h.append h') hc hc' hrest

/-- **What is found**, by induction on the list: a pair of the list, or a closing bracket of the list
with an opening one from the stack. -/
lemma of_mem_pairs {l stack : List α} {o c : α} (h : (o, c) ∈ pairs isOpen isClose l stack) :
    Pair isOpen isClose l o c ∨ ∃ above below inner after, stack = above ++ o :: below ∧
      l = inner ++ c :: after ∧ isClose c = true ∧ isOpen c = false ∧
      Closes isOpen isClose above.length inner := by
  induction l generalizing stack with
  | nil => cases h
  | cons a l ih =>
    cases ho : isOpen a with
    | true =>
      rw [pairs_open ho] at h
      rcases ih h with hpair | ⟨above, below, inner, after, hstack, rfl, hc, hc', hinner⟩
      · exact .inl (hpair.cons a)
      · rcases above with - | ⟨top, above⟩
        · obtain ⟨rfl, rfl⟩ := List.cons.inj hstack
          cases hinner with
          | zero hinner => exact .inl ⟨[], inner, after, rfl, ho, hc, hc', hinner⟩
        · obtain ⟨rfl, rfl⟩ := List.cons.inj hstack
          cases hinner with
          | succ hbalanced hend hend' hrest =>
            rename_i last part rest
            refine .inr ⟨above, below, a :: (part ++ last :: rest), after, rfl, rfl, hc, hc', ?_⟩
            have hblock : Balanced isOpen isClose (a :: (part ++ last :: [])) :=
              .block ho hend hend' hbalanced .nil
            simpa using Closes.append hblock hrest
    | false =>
      cases hclose : isClose a with
      | false =>
        rw [pairs_plain ho hclose] at h
        rcases ih h with hpair | ⟨above, below, inner, after, hstack, rfl, hc, hc', hinner⟩
        · exact .inl (hpair.cons a)
        · exact .inr ⟨above, below, a :: inner, after, hstack, rfl, hc, hc',
            Closes.append (.plain ho hclose .nil) hinner⟩
      | true =>
        cases stack with
        | nil =>
          rw [pairs_close_nil ho hclose] at h
          rcases ih h with hpair | ⟨above, below, inner, after, hstack, -⟩
          · exact .inl (hpair.cons a)
          · exact absurd hstack (by simp)
        | cons top stack =>
          rw [pairs_close ho hclose] at h
          rcases List.mem_cons.mp h with heq | h
          · obtain ⟨rfl, rfl⟩ := Prod.mk.inj heq
            exact .inr ⟨[], stack, [], l, rfl, rfl, hclose, ho, .zero .nil⟩
          · rcases ih h with hpair | ⟨above, below, inner, after, rfl, rfl, hc, hc', hinner⟩
            · exact .inl (hpair.cons a)
            · exact .inr ⟨top :: above, below, a :: inner, after, rfl, rfl, hc, hc',
                .succ .nil hclose ho hinner⟩

/-- **The stack finds exactly the pairs.** -/
theorem mem_pairs_iff {l : List α} {o c : α} :
    (o, c) ∈ pairs isOpen isClose l [] ↔ Pair isOpen isClose l o c := by
  refine ⟨fun h => ?_, Pair.mem_pairs⟩
  rcases of_mem_pairs h with hpair | ⟨above, below, inner, after, hstack, -⟩
  · exact hpair
  · exact absurd hstack (by simp)

/-! ## Two pairs -/

/-- Where the two brackets come from. -/
lemma mem_of_mem_pairs {l stack : List α} {p : α × α} (h : p ∈ pairs isOpen isClose l stack) :
    (p.1 ∈ stack ∨ p.1 ∈ l) ∧ p.2 ∈ l := by
  induction l generalizing stack with
  | nil => cases h
  | cons a l ih =>
    cases ho : isOpen a with
    | true =>
      rw [pairs_open ho] at h
      obtain ⟨hfirst, hsecond⟩ := ih h
      refine ⟨?_, List.mem_cons_of_mem a hsecond⟩
      rcases hfirst with hfirst | hfirst
      · rcases List.mem_cons.mp hfirst with heq | hfirst
        · exact .inr (by simp [heq])
        · exact .inl hfirst
      · exact .inr (List.mem_cons_of_mem a hfirst)
    | false =>
      cases hclose : isClose a with
      | false =>
        rw [pairs_plain ho hclose] at h
        obtain ⟨hfirst, hsecond⟩ := ih h
        exact ⟨hfirst.imp_right (List.mem_cons_of_mem a), List.mem_cons_of_mem a hsecond⟩
      | true =>
        cases stack with
        | nil =>
          rw [pairs_close_nil ho hclose] at h
          obtain ⟨hfirst, hsecond⟩ := ih h
          exact ⟨hfirst.imp_right (List.mem_cons_of_mem a), List.mem_cons_of_mem a hsecond⟩
        | cons top stack =>
          rw [pairs_close ho hclose] at h
          rcases List.mem_cons.mp h with rfl | h
          · exact ⟨.inl (by simp), by simp⟩
          · obtain ⟨hfirst, hsecond⟩ := ih h
            exact ⟨hfirst.imp (List.mem_cons_of_mem top) (List.mem_cons_of_mem a),
              List.mem_cons_of_mem a hsecond⟩

section Order

variable {κ : Type*} [LinearOrder κ] (key : α → κ)

/-- **Two pairs are apart or nested**, if the keys of the list increase: a pair that is found later
ends later, and begins behind the end of the other one or before its start. -/
theorem pairwise_pairs {l stack : List α} (hl : l.Pairwise fun a b => key a < key b)
    (hstack : stack.Pairwise fun a b => key b < key a) (hbefore : ∀ o ∈ stack, ∀ a ∈ l, key o < key a) :
    (pairs isOpen isClose l stack).Pairwise fun p q =>
      key p.2 < key q.2 ∧ (key p.2 < key q.1 ∨ key q.1 < key p.1) := by
  induction l generalizing stack with
  | nil => exact .nil
  | cons a l ih =>
    obtain ⟨ha, hl⟩ := List.pairwise_cons.mp hl
    have hrest : ∀ o ∈ stack, ∀ b ∈ l, key o < key b := fun o ho b hb =>
      hbefore o ho b (List.mem_cons_of_mem a hb)
    cases ho : isOpen a with
    | true =>
      rw [pairs_open ho]
      refine ih hl (List.pairwise_cons.mpr ⟨fun o ho => hbefore o ho a (by simp), hstack⟩) ?_
      intro o ho b hb
      rcases List.mem_cons.mp ho with rfl | ho
      · exact ha b hb
      · exact hrest o ho b hb
    | false =>
      cases hclose : isClose a with
      | false =>
        rw [pairs_plain ho hclose]
        exact ih hl hstack hrest
      | true =>
        cases stack with
        | nil =>
          rw [pairs_close_nil ho hclose]
          exact ih hl hstack hrest
        | cons top stack =>
          obtain ⟨htop, hstack⟩ := List.pairwise_cons.mp hstack
          rw [pairs_close ho hclose]
          refine List.pairwise_cons.mpr ⟨fun q hq => ?_,
            ih hl hstack fun o ho => hrest o (List.mem_cons_of_mem top ho)⟩
          obtain ⟨hfirst, hsecond⟩ := mem_of_mem_pairs hq
          refine ⟨ha q.2 hsecond, ?_⟩
          rcases hfirst with hfirst | hfirst
          · exact .inr (htop q.1 hfirst)
          · exact .inl (ha q.1 hfirst)

/-- A pair ends behind its start. -/
lemma key_lt_of_mem_pairs {l stack : List α} (hl : l.Pairwise fun a b => key a < key b)
    (hbefore : ∀ o ∈ stack, ∀ a ∈ l, key o < key a) {p : α × α}
    (h : p ∈ pairs isOpen isClose l stack) : key p.1 < key p.2 := by
  obtain ⟨o, c⟩ := p
  rcases of_mem_pairs h with ⟨before, inner, after, rfl, -⟩ | ⟨above, below, inner, after, rfl, rfl, -⟩
  · have hpair := (List.pairwise_append.mp hl).2.1
    exact List.rel_of_pairwise_cons hpair (by simp)
  · exact hbefore o (by simp) c (by simp)

end Order

/-! ## Counting brackets -/

section Counting

variable {α : Type*} (isOpen isClose : α → Bool)

/-- As many brackets are closed as are opened, and nowhere before more. -/
def Nested (l : List α) : Prop :=
  l.countP isClose = l.countP isOpen ∧ ∀ p, p <+: l → p.countP isClose ≤ p.countP isOpen

/-- The part before the bracket that closes the last of `depth + 1` open ones, and the part behind
it. -/
def closeOf : ℕ → List α → Option (List α × List α)
  | _, [] => none
  | depth, a :: l =>
    if isOpen a then (closeOf (depth + 1) l).map fun parts => (a :: parts.1, parts.2)
    else if isClose a then
      if depth = 0 then some ([], l)
      else (closeOf (depth - 1) l).map fun parts => (a :: parts.1, parts.2)
    else (closeOf depth l).map fun parts => (a :: parts.1, parts.2)

section

attribute [local simp] closeOf

end

variable {isOpen isClose}

/-- **The bracket that closes** is the first one behind a part that closes `depth` brackets more
than it opens, and nowhere before more than that. -/
theorem closeOf_eq_some_iff (hdisjoint : ∀ a, isOpen a = true → isClose a = false) {depth : ℕ}
    {l inner rest : List α} : closeOf isOpen isClose depth l = some (inner, rest) ↔
      ∃ c, isClose c = true ∧ l = inner ++ c :: rest ∧
        inner.countP isClose = depth + inner.countP isOpen ∧
        ∀ p, p <+: inner → p.countP isClose ≤ depth + p.countP isOpen := by
  induction l generalizing depth inner with
  | nil => simp [closeOf]
  | cons a l ih =>
    -- What stands behind the first element is closed at another depth.
    have hcons {depth' : ℕ} (hshift : ∀ p : List α,
        depth + (a :: p).countP isOpen + p.countP isClose =
          depth' + p.countP isOpen + (a :: p).countP isClose)
        (hnot : ¬ (isClose a = true ∧ depth = 0)) :
        (closeOf isOpen isClose depth' l).map (fun parts => (a :: parts.1, parts.2)) =
            some (inner, rest) ↔
          ∃ c, isClose c = true ∧ a :: l = inner ++ c :: rest ∧
            inner.countP isClose = depth + inner.countP isOpen ∧
            ∀ p, p <+: inner → p.countP isClose ≤ depth + p.countP isOpen := by
      constructor
      · intro h
        obtain ⟨⟨inner', rest'⟩, hclose, hparts⟩ := Option.map_eq_some_iff.mp h
        simp only [Prod.mk.injEq] at hparts
        obtain ⟨rfl, rfl⟩ := hparts
        obtain ⟨c, hc, rfl, htotal, hprefix⟩ := ih.mp hclose
        have hinner := hshift inner'
        refine ⟨c, hc, rfl, by omega, fun p hp => ?_⟩
        rcases List.prefix_cons_iff.mp hp with rfl | ⟨p, rfl, hrest⟩
        · simp
        · have hle := hprefix p hrest
          have hp := hshift p
          omega
      · rintro ⟨c, hc, hl, htotal, hprefix⟩
        rcases inner with _ | ⟨b, inner⟩
        · obtain ⟨rfl, -⟩ := List.cons.inj hl
          simp only [List.countP_nil] at htotal
          exact absurd ⟨hc, by omega⟩ hnot
        · obtain ⟨rfl, rfl⟩ := List.cons.inj hl
          have hinner := hshift inner
          have hclose : closeOf isOpen isClose depth' (inner ++ c :: rest) = some (inner, rest) := by
            refine ih.mpr ⟨c, hc, rfl, by omega, fun p hp => ?_⟩
            have hle := hprefix (a :: p) (List.cons_prefix_cons.mpr ⟨rfl, hp⟩)
            have hp := hshift p
            omega
          exact Option.map_eq_some_iff.mpr ⟨(inner, rest), hclose, rfl⟩
    rw [closeOf]
    by_cases hopen : isOpen a = true
    · have hclose := hdisjoint a hopen
      rw [if_pos hopen]
      refine hcons (fun p => ?_) (by simp [hclose])
      rw [List.countP_cons_of_pos hopen, List.countP_cons_of_neg (by simp [hclose])]
      omega
    · rw [if_neg hopen]
      by_cases hclose : isClose a = true
      · rw [if_pos hclose]
        by_cases hzero : depth = 0
        · subst hzero
          rw [if_pos rfl]
          constructor
          · intro h
            obtain ⟨rfl, rfl⟩ := Prod.mk.inj (Option.some.inj h)
            exact ⟨a, hclose, rfl, rfl, fun p hp => by simp [List.prefix_nil.mp hp]⟩
          · rintro ⟨c, -, hl, -, hprefix⟩
            rcases inner with _ | ⟨b, inner⟩
            · obtain ⟨-, rfl⟩ := List.cons.inj hl
              rfl
            · obtain ⟨rfl, -⟩ := List.cons.inj hl
              have hle := hprefix [a] (List.cons_prefix_cons.mpr ⟨rfl, List.nil_prefix⟩)
              simp [List.countP_cons, hopen, hclose] at hle
        · rw [if_neg hzero]
          refine hcons (fun p => ?_) (fun h => hzero h.2)
          rw [List.countP_cons_of_neg hopen, List.countP_cons_of_pos hclose]
          omega
      · rw [if_neg hclose]
        refine hcons (fun p => ?_) (fun h => hclose h.1)
        rw [List.countP_cons_of_neg hopen, List.countP_cons_of_neg hclose]

/-- A nested part is closed by the first closing bracket behind it, and only a nested part is. -/
theorem closeOf_append_iff (hdisjoint : ∀ a, isOpen a = true → isClose a = false) {c : α}
    (hc : isClose c = true) (inner rest : List α) :
    closeOf isOpen isClose 0 (inner ++ c :: rest) = some (inner, rest) ↔
      Nested isOpen isClose inner := by
  rw [closeOf_eq_some_iff hdisjoint, Nested]
  simp only [Nat.zero_add]
  constructor
  · rintro ⟨-, -, -, h⟩
    exact h
  · exact fun h => ⟨c, hc, rfl, h⟩

end Counting

end Brackets
