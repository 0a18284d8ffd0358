import Mathlib.Data.List.Forall2
import Mathlib.Data.List.Perm.Basic
import ProRLAgent.Lib.Except

set_option relaxedAutoImplicit false
set_option autoImplicit false

/-!
# Reordering the rows of a table

The rows of a table in the order of a list of indices, which holds every index once. What is computed
row by row is reordered with the rows.

## Main definitions

* `ProRLAgent.reorder` — the rows at the indices.

## Main results

* `ProRLAgent.reorder_perm` — reordering is a permutation.
* `ProRLAgent.mapM_reorder` — rows that are computed one after the other.
-/

namespace ProRLAgent

variable {α β γ ε : Type} {indices : List ℕ}

/-- The rows at the indices. -/
def reorder (indices : List ℕ) (rows : List α) : List α := indices.filterMap (rows[·]?)

/-- The rows in their own order. -/
lemma reorder_range (rows : List α) : reorder (List.range rows.length) rows = rows := by
  induction rows with
  | nil => rfl
  | cons row rows ih =>
    rw [List.length_cons, List.range_succ_eq_map, reorder, List.filterMap_cons, List.filterMap_map]
    exact congrArg (row :: ·) ih

/-- **Reordering is a permutation.** -/
theorem reorder_perm {rows : List α} (h : indices.Perm (List.range rows.length)) :
    (reorder indices rows).Perm rows := by
  have hperm := h.filterMap (rows[·]?)
  rwa [← reorder, ← reorder, reorder_range] at hperm

/-- The row at one more index. -/
lemma reorder_cons (i : ℕ) (indices : List ℕ) (rows : List α) :
    reorder (i :: indices) rows = rows[i]?.toList ++ reorder indices rows := by
  rw [reorder, List.filterMap_cons]
  cases rows[i]? <;> rfl

/-- A column that is computed from the rows. -/
lemma reorder_map (indices : List ℕ) (f : α → β) (rows : List α) :
    reorder indices (rows.map f) = (reorder indices rows).map f := by
  simp [reorder, List.map_filterMap]

/-- Two columns of one length. -/
lemma reorder_zipWith (indices : List ℕ) (f : α → β → γ) {left : List α} {right : List β}
    (h : left.length = right.length) :
    reorder indices (List.zipWith f left right) =
      List.zipWith f (reorder indices left) (reorder indices right) := by
  induction indices with
  | nil => rfl
  | cons i indices ih =>
    rw [reorder_cons, reorder_cons, reorder_cons, ih]
    by_cases hi : i < left.length
    · have hi' : i < right.length := h ▸ hi
      rw [List.getElem?_zipWith, List.getElem?_eq_getElem hi, List.getElem?_eq_getElem hi']
      rfl
    · have hi' : ¬ i < right.length := h ▸ hi
      rw [List.getElem?_eq_none (Nat.not_lt.mp hi), List.getElem?_eq_none (Nat.not_lt.mp hi'),
        List.getElem?_eq_none (by simp; omega)]
      rfl

/-- Rows that belong together still do. -/
lemma forall₂_reorder {R : α → β → Prop} {left : List α} {right : List β}
    (h : List.Forall₂ R left right) (indices : List ℕ) :
    List.Forall₂ R (reorder indices left) (reorder indices right) := by
  induction indices with
  | nil => exact .nil
  | cons i indices ih =>
    rw [reorder_cons, reorder_cons]
    refine List.rel_append ?_ ih
    by_cases hi : i < left.length
    · have hi' : i < right.length := h.length_eq ▸ hi
      rw [List.getElem?_eq_getElem hi, List.getElem?_eq_getElem hi']
      exact .cons (h.get hi hi') .nil
    · have hi' : ¬ i < right.length := h.length_eq ▸ hi
      rw [List.getElem?_eq_none (Nat.not_lt.mp hi), List.getElem?_eq_none (Nat.not_lt.mp hi')]
      exact .nil

/-- A loop with only one way to fail. -/
lemma mapM_eq_error {f : α → Except ε β} {error : ε} (herror : ∀ a err, f a = .error err → err = error)
    (rows : List α) : (∃ out, rows.mapM f = .ok out) ∨ rows.mapM f = .error error := by
  induction rows with
  | nil => exact .inl ⟨[], rfl⟩
  | cons row rows ih =>
    rw [List.mapM_cons]
    cases hrow : f row with
    | error err =>
      rw [herror row err hrow]
      exact .inr rfl
    | ok b =>
      rcases ih with ⟨out, hout⟩ | hrest
      · rw [hout]
        exact .inl ⟨b :: out, rfl⟩
      · rw [hrest]
        exact .inr rfl

/-- **Rows that are computed one after the other**, if there is only one way to fail. -/
theorem mapM_reorder {f : α → Except ε β} {error : ε} (herror : ∀ a err, f a = .error err → err = error)
    (rows : List α) (h : indices.Perm (List.range rows.length)) :
    (reorder indices rows).mapM f = (rows.mapM f).map (reorder indices) := by
  rcases mapM_eq_error herror rows with ⟨out, hout⟩ | hfails
  · rw [hout]
    exact Except.mapM_eq_ok_iff.mpr (forall₂_reorder (Except.mapM_eq_ok_iff.mp hout) indices)
  · rcases mapM_eq_error herror (reorder indices rows) with ⟨out, hout⟩ | hfails'
    · -- A row that fails is also among the reordered rows.
      have hrows : ∀ row ∈ rows, ∃ b, f row = .ok b ∧ True := by
        intro row hrow
        obtain ⟨i, rfl⟩ := List.mem_iff_get.mp ((reorder_perm h).mem_iff.mpr hrow)
        have hrelated := Except.mapM_eq_ok_iff.mp hout
        exact ⟨_, hrelated.get i.2 (hrelated.length_eq ▸ i.2), trivial⟩
      obtain ⟨out', hout', -⟩ := Except.exists_mapM_eq_ok hrows
      rw [hfails] at hout'
      cases hout'
    · rw [hfails, hfails']
      rfl

end ProRLAgent
