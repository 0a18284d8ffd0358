import Mathlib.Data.List.Forall2

set_option relaxedAutoImplicit false
set_option autoImplicit false

/-!
# Fallible computations

Inversion rules for `Except`: a computation that returns took every one of its steps, and a loop
over a list that returns has treated every element. A test decides a property if it returns and its
result is true exactly if the property holds.

## Main definitions

* `Except.Decides` — a test decides a property.

## Main results

* `Except.bind_eq_ok` — a sequence returns iff both of its parts do.
* `Except.ite_throw_eq_ok` — a sequence behind a check returns iff the check passes.
* `Except.mapM_eq_ok_iff` — a loop returns iff its body does at every element.
* `Except.exists_mapM_eq_ok` — a loop whose body returns at every element returns.
* `Except.Decides.allM`, `Except.Decides.anyM` — tests of all elements of a list.
-/

namespace Except

universe u v

variable {ε : Type u} {α β : Type v}

/-- A sequence goes on with what its first part returns. -/
lemma ok_bind (a : α) (f : α → Except ε β) : (.ok a : Except ε α) >>= f = f a := rfl

/-- A sequence returns exactly if its first part does and its second part does on the result. -/
lemma bind_eq_ok {x : Except ε α} {f : α → Except ε β} {b : β} :
    x >>= f = .ok b ↔ ∃ a, x = .ok a ∧ f a = .ok b := by
  cases x with
  | error err => simp [bind, Except.bind]
  | ok a => simp [bind, Except.bind]

/-- A sequence behind a check returns exactly if the check passes and the sequence returns. -/
lemma ite_throw_eq_ok {c : Prop} [Decidable c] {err : ε} {f : α → Except ε β}
    {x : Except ε β} {b : β} :
    (if c then throw err >>= f else x) = .ok b ↔ ¬ c ∧ x = .ok b := by
  by_cases hc : c
  · simp [hc, throw, throwThe, MonadExceptOf.throw, bind, Except.bind]
  · simp [hc]

/-- **Loops**: a loop over a list returns exactly if its body returns at every element. -/
theorem mapM_eq_ok_iff {f : α → Except ε β} {as : List α} {bs : List β} :
    as.mapM f = .ok bs ↔ List.Forall₂ (fun a b => f a = .ok b) as bs := by
  induction as generalizing bs with
  | nil => simp [pure, Except.pure, eq_comm]
  | cons a as ih =>
    rw [List.mapM_cons, bind_eq_ok]
    constructor
    · rintro ⟨b, hb, h⟩
      obtain ⟨bs', hbs', h⟩ := bind_eq_ok.1 h
      obtain rfl : b :: bs' = bs := by simpa [pure, Except.pure] using h
      exact .cons hb (ih.mp hbs')
    · intro h
      cases h with
      | cons hb hbs => exact ⟨_, hb, bind_eq_ok.2 ⟨_, ih.mpr hbs, rfl⟩⟩

/-- A loop whose body returns at every element returns, and its results satisfy what the body
guarantees. -/
theorem exists_mapM_eq_ok {f : α → Except ε β} {P : α → β → Prop} {as : List α}
    (h : ∀ a ∈ as, ∃ b, f a = .ok b ∧ P a b) :
    ∃ bs, as.mapM f = .ok bs ∧ List.Forall₂ P as bs := by
  induction as with
  | nil => exact ⟨[], rfl, .nil⟩
  | cons a as ih =>
    obtain ⟨b, hb, hP⟩ := h a (by simp)
    obtain ⟨bs, hbs, hPs⟩ := ih fun a ha => h a (by simp [ha])
    refine ⟨b :: bs, ?_, .cons hP hPs⟩
    rw [mapM_eq_ok_iff] at hbs ⊢
    exact .cons hb hbs

/-! ## Tests -/

section Tests

variable {ε : Type u} {x y z : Except ε Bool} {P Q R : Prop}

/-- The test returns, and it is true exactly if the property holds. -/
def Decides (x : Except ε Bool) (P : Prop) : Prop := ∃ b, x = .ok b ∧ (b = true ↔ P)

lemma Decides.eq_true_iff (h : Decides x P) : x = .ok true ↔ P := by
  obtain ⟨b, rfl, hb⟩ := h
  rw [← hb, Except.ok.injEq]

lemma Decides.congr (h : Decides x P) (hPQ : P ↔ Q) : Decides x Q := by
  obtain ⟨b, hx, hb⟩ := h
  exact ⟨b, hx, hb.trans hPQ⟩

lemma decides_pure (b : Bool) : Decides (pure b : Except ε Bool) (b = true) := ⟨b, rfl, Iff.rfl⟩

/-- A test behind a check. -/
lemma Decides.ite {c : Prop} [Decidable c] (hx : c → Decides x P) (hy : ¬ c → Decides y Q) :
    Decides (if c then x else y) ((c ∧ P) ∨ (¬ c ∧ Q)) := by
  by_cases hc : c
  · rw [if_pos hc]
    exact (hx hc).congr (by simp [hc])
  · rw [if_neg hc]
    exact (hy hc).congr (by simp [hc])

/-- A test behind a test. -/
lemma Decides.bind (hx : Decides x P) {f : Bool → Except ε Bool} (hpos : P → Decides (f true) Q)
    (hneg : ¬ P → Decides (f false) R) : Decides (x >>= f) ((P ∧ Q) ∨ (¬ P ∧ R)) := by
  obtain ⟨b, rfl, hb⟩ := hx
  rw [ok_bind]
  cases b with
  | true =>
    have hP := hb.mp rfl
    exact (hpos hP).congr (by simp [hP])
  | false =>
    have hP : ¬ P := fun h => absurd (hb.mpr h) (by simp)
    exact (hneg hP).congr (by simp [hP])

/-- **All elements pass a test.** -/
theorem Decides.allM {α : Type v} {f : α → Except ε Bool} {p : α → Prop} {l : List α}
    (h : ∀ a ∈ l, Decides (f a) (p a)) : Decides (l.allM f) (∀ a ∈ l, p a) := by
  induction l with
  | nil => exact (decides_pure true).congr (by simp)
  | cons a l ih =>
    obtain ⟨ha, hl⟩ := List.forall_mem_cons.mp h
    rw [List.allM_cons]
    refine (ha.bind (R := False) (fun _ => ih hl) fun _ => ?_).congr (by simp)
    exact (decides_pure false).congr (by simp)

/-- **One of the tests.** -/
theorem Decides.anyM_cons {l : List (Except ε Bool)} (hx : Decides x P) (hl : Decides (l.anyM id) Q) :
    Decides ((x :: l).anyM id) (P ∨ Q) := by
  rw [List.anyM_cons]
  refine (hx.bind (Q := True) (fun _ => ?_) fun _ => hl).congr (by tauto)
  exact (decides_pure true).congr (by simp)

lemma decides_anyM_nil : Decides (([] : List (Except ε Bool)).anyM id) False :=
  (decides_pure false).congr (by simp)

/-- **Some element passes a test.** -/
theorem Decides.anyM {α : Type v} {f : α → Except ε Bool} {p : α → Prop} {l : List α}
    (h : ∀ a ∈ l, Decides (f a) (p a)) : Decides (l.anyM f) (∃ a ∈ l, p a) := by
  induction l with
  | nil => exact (decides_pure false).congr (by simp)
  | cons a l ih =>
    obtain ⟨ha, hl⟩ := List.forall_mem_cons.mp h
    rw [List.anyM_cons]
    refine (ha.bind (Q := True) (fun _ => ?_) fun _ => ih hl).congr ?_
    · exact (decides_pure true).congr (by simp)
    · rw [List.exists_mem_cons_iff]
      tauto

end Tests

end Except
