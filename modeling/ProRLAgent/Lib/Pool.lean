import Mathlib.Data.List.Basic
import Mathlib.Data.List.Perm.Basic
import Mathlib.Algebra.BigOperators.Group.List.Basic
import Mathlib.Algebra.GroupWithZero.Nat

set_option relaxedAutoImplicit false
set_option autoImplicit false

/-!
# Pools of threads

The threads of a machine are a list, and a step of thread `i` replaces the entry at `i`. What the
threads hold together is a count or a sum over the list, and a step changes it by the difference
between the new and the old entry. The rules are stated as equations without subtraction, so that
`omega` can use them.

## Main results

* `Pool.countP_set_add` — how a step of one thread changes a count.
* `Pool.sum_map_set_add` — how it changes a sum of weights.
* `Pool.filterMap_set_perm` — how it changes a collection.
* `Pool.countP_modify` — a change that a count does not see.
* `Pool.getElem?_set_eq_some` — the entries after a step.
* `Pool.exists_of_exists_set`, `Pool.exists_set_of_exists` — what some thread does before and after
  a step.
-/

namespace Pool

variable {τ : Type*} {ts : List τ} {i : ℕ} {t : τ}

/-- A step of thread `i` changes a sum of weights by the difference of its own weights. -/
theorem sum_map_set_add (w : τ → ℕ) (t' : τ) (h : ts[i]? = some t) :
    ((ts.set i t').map w).sum + w t = (ts.map w).sum + w t' := by
  induction ts generalizing i with
  | nil => simp at h
  | cons u ts ih =>
    cases i with
    | zero =>
      obtain rfl : u = t := by simpa using h
      simp only [List.set_cons_zero, List.map_cons, List.sum_cons]
      omega
    | succ i =>
      have hrest := ih (by simpa using h)
      simp only [List.set_cons_succ, List.map_cons, List.sum_cons]
      omega

/-- A count is a sum of ones. -/
lemma countP_eq_sum_map (p : τ → Bool) (ts : List τ) :
    ts.countP p = (ts.map fun t => (p t).toNat).sum := by
  induction ts with
  | nil => rfl
  | cons t ts ih =>
    rw [List.countP_cons, ih, List.map_cons, List.sum_cons]
    cases p t <;> simp [Nat.add_comm]

/-- A step of thread `i` changes a count only by what the thread itself counts for. -/
theorem countP_set_add (p : τ → Bool) (t' : τ) (h : ts[i]? = some t) :
    (ts.set i t').countP p + (p t).toNat = ts.countP p + (p t').toNat := by
  rw [countP_eq_sum_map, countP_eq_sum_map]
  exact sum_map_set_add (fun t => (p t).toNat) t' h

/-- A step of thread `i` changes a collection of what the threads hold by what the thread itself
holds. -/
theorem filterMap_set_perm {β : Type*} (f : τ → Option β) (t' : τ) (h : ts[i]? = some t) :
    ((ts.set i t').filterMap f ++ (f t).toList).Perm (ts.filterMap f ++ (f t').toList) := by
  -- The thread's own part can be moved to the front.
  have hfront : ∀ (u : τ) (us : List τ), ((u :: us).filterMap f).Perm
      ((f u).toList ++ us.filterMap f) := by
    intro u us
    cases hu : f u <;> simp [hu]
  induction ts generalizing i with
  | nil => simp at h
  | cons u ts ih =>
    cases i with
    | zero =>
      obtain rfl : u = t := by simpa using h
      rw [List.set_cons_zero]
      refine ((hfront t' ts).append_right _).trans (List.Perm.trans ?_
        ((hfront u ts).append_right _).symm)
      rw [List.append_assoc]
      refine List.perm_append_comm.trans ?_
      exact (List.perm_append_comm.append_right _)
    | succ i =>
      rw [List.set_cons_succ]
      refine ((hfront u _).append_right _).trans (List.Perm.trans ?_
        ((hfront u ts).append_right _).symm)
      rw [List.append_assoc, List.append_assoc]
      exact (ih (by simpa using h)).append_left _

/-- A change that a count does not see keeps the count. -/
lemma countP_modify (p : τ → Bool) (f : τ → τ) (hf : ∀ t, p (f t) = p t) (i : ℕ) :
    (ts.modify i f).countP p = ts.countP p := by
  induction ts generalizing i with
  | nil => simp
  | cons t ts ih =>
    cases i with
    | zero => simp [List.countP_cons, hf]
    | succ i => simp [List.countP_cons, ih]

/-- What some thread does after a step of thread `i`, some thread did before, or thread `i` does
now. -/
lemma exists_of_exists_set {p : τ → Prop} {t' : τ} (h : ∃ u ∈ ts.set i t', p u) :
    (∃ u ∈ ts, p u) ∨ p t' := by
  obtain ⟨u, hu, hp⟩ := h
  rcases List.mem_or_eq_of_mem_set hu with hu | rfl
  · exact .inl ⟨u, hu, hp⟩
  · exact .inr hp

/-- What some thread did before a step of thread `i`, some thread does after it, or thread `i` did
it. -/
lemma exists_set_of_exists {p : τ → Prop} (hi : ts[i]? = some t) (t' : τ) (h : ∃ u ∈ ts, p u) :
    (∃ u ∈ ts.set i t', p u) ∨ p t := by
  obtain ⟨u, hu, hp⟩ := h
  obtain ⟨k, hk⟩ := List.mem_iff_getElem?.mp hu
  by_cases hik : i = k
  · subst hik
    obtain rfl := Option.some.inj (hi.symm.trans hk)
    exact .inr hp
  · exact .inl ⟨u, List.mem_of_getElem? (by rwa [List.getElem?_set_ne hik]), hp⟩

/-- An entry after a step of thread `i` is its new entry or the old one of another thread. -/
lemma getElem?_set_eq_some {k : ℕ} {t' u : τ} (h : (ts.set i t')[k]? = some u) :
    (k = i ∧ u = t') ∨ (k ≠ i ∧ ts[k]? = some u) := by
  by_cases hik : i = k
  · subst hik
    have hlt : i < ts.length := by simpa using (List.getElem?_eq_some_iff.mp h).1
    rw [List.getElem?_set_self hlt] at h
    exact .inl ⟨rfl, (Option.some.inj h).symm⟩
  · rw [List.getElem?_set_ne hik] at h
    exact .inr ⟨Ne.symm hik, h⟩

/-- The new entry of thread `i` is there after its step. -/
lemma mem_set_of_getElem? (hi : ts[i]? = some t) (t' : τ) : t' ∈ ts.set i t' :=
  List.mem_set (List.getElem?_eq_some_iff.mp hi).1 t'

end Pool
