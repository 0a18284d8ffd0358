import Mathlib.Data.List.Forall2
import Mathlib.Data.Nat.Notation

set_option relaxedAutoImplicit false
set_option autoImplicit false

/-!
# Loops over shared objects

A store holds objects, and a list of names stands for the objects in it; a name may come more than
once. A loop visits the objects in order: a visit may change the object, and what it sees goes into
a result, or ends the loop with an error.

If what a visit sees does not change with what visits do to objects, the loop has the same result
from every store that visits may have left, and so it can be repeated.

## Main definitions

* `Replay.lookup` — the object with a name.
* `Replay.run` — the loop.
* `Replay.Agree` — stores whose objects are related.

## Main results

* `Replay.agree_run` — what a visit keeps, the loop keeps.
* `Replay.run_eq_of_agree` — the loop from related stores.
-/

namespace Replay

universe u v

variable {α : Type u} {β ε σ : Type v}

/-- The object with a name. A name that the store does not have stands for `other`. -/
def lookup (other : α) (store : List α) (ref : ℕ) : α := store[ref]?.getD other

variable {other : α}

/-- The object behind a change of one object. -/
lemma lookup_set (store : List α) (ref r : ℕ) (a : α) :
    lookup other (store.set ref a) r =
      if r = ref ∧ ref < store.length then a else lookup other store r := by
  rw [lookup, lookup, List.getElem?_set]
  by_cases hr : ref = r
  · subst hr
    by_cases hlt : ref < store.length
    · simp [hlt]
    · simp [hlt]
  · have hne : r ≠ ref := fun heq => hr heq.symm
    simp [hr, hne]

/-- The old objects in a store with a new one. -/
lemma lookup_append {store : List α} {ref : ℕ} (h : ref < store.length) (more : List α) :
    lookup other (store ++ more) ref = lookup other store ref := by
  rw [lookup, lookup, List.getElem?_append_left h]

/-- The new object. -/
lemma lookup_length (store : List α) (a : α) : lookup other (store ++ [a]) store.length = a := by
  rw [lookup, List.getElem?_append_right (Nat.le_refl _), Nat.sub_self]
  rfl

/-- **The loop** over the names `refs`: a visit knows the objects that came earlier. -/
def run (other : α) (visit : List α → α → α × β) (absorb : σ → β → Except ε σ) (store : List α)
    (earlier : List ℕ) (s : σ) : List ℕ → List α × Except ε σ
  | [] => (store, .ok s)
  | ref :: refs =>
    let seen := visit (earlier.map (lookup other store)) (lookup other store ref)
    match absorb s seen.2 with
    | .error err => (store.set ref seen.1, .error err)
    | .ok s' => run other visit absorb (store.set ref seen.1) (earlier ++ [ref]) s' refs

section

attribute [local simp] run

end

/-- The objects of the store are related to those of `base`. -/
def Agree (other : α) (R : α → α → Prop) (base store : List α) : Prop :=
  ∀ ref, R (lookup other base ref) (lookup other store ref)

variable {R : α → α → Prop} {visit : List α → α → α × β} {absorb : σ → β → Except ε σ}
  {base store store' : List α} {earlier refs : List ℕ} {s : σ}

/-- A change of one object. -/
lemma Agree.set (h : Agree other R base store) {ref : ℕ} {a : α}
    (ha : R (lookup other base ref) a) : Agree other R base (store.set ref a) := by
  intro r
  rw [lookup_set]
  split_ifs with hr
  · obtain ⟨rfl, -⟩ := hr
    exact ha
  · exact h r

/-- The objects that came earlier. -/
lemma Agree.forall₂ (h : Agree other R base store) (refs : List ℕ) :
    List.Forall₂ R (refs.map (lookup other base)) (refs.map (lookup other store)) := by
  rw [List.forall₂_map_left_iff, List.forall₂_map_right_iff, List.forall₂_same]
  exact fun ref _ => h ref

/-- **What a visit keeps, the loop keeps.** -/
theorem agree_run (hvisit : ∀ ref ∈ refs, ∀ seen a, R (lookup other base ref) a →
      R (lookup other base ref) (visit seen a).1) (h : Agree other R base store) :
    Agree other R base (run other visit absorb store earlier s refs).1 := by
  induction refs generalizing store earlier s with
  | nil => exact h
  | cons ref refs ih =>
    obtain ⟨hfirst, hrest⟩ := List.forall_mem_cons.mp hvisit
    have hset := h.set (hfirst (earlier.map (lookup other store)) _ (h ref))
    rw [run]
    cases absorb s (visit (earlier.map (lookup other store)) (lookup other store ref)).2 with
    | error err => exact hset
    | ok s' => exact ih hrest hset

/-- **The loop has the same result** from every store whose objects are related to those of the
base, if visits of related objects see the same. -/
theorem run_eq_of_agree (hvisit : ∀ ref ∈ refs, ∀ seen seen' a, List.Forall₂ R seen seen' →
      R (lookup other base ref) a →
      (visit seen' a).2 = (visit seen (lookup other base ref)).2 ∧
        R (lookup other base ref) (visit seen' a).1)
    (h : Agree other R base store) (h' : Agree other R base store') :
    (run other visit absorb store' earlier s refs).2 =
      (run other visit absorb store earlier s refs).2 := by
  induction refs generalizing store store' earlier s with
  | nil => rfl
  | cons ref refs ih =>
    obtain ⟨hfirst, hrest⟩ := List.forall_mem_cons.mp hvisit
    obtain ⟨hseen, hset⟩ := hfirst _ _ _ (h.forall₂ earlier) (h ref)
    obtain ⟨hseen', hset'⟩ := hfirst _ _ _ (h'.forall₂ earlier) (h' ref)
    rw [run, run, hseen, hseen']
    cases absorb s (visit (earlier.map (lookup other base)) (lookup other base ref)).2 with
    | error err => rfl
    | ok s' => exact ih hrest (h.set hset) (h'.set hset')

end Replay
