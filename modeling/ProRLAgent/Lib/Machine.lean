import Mathlib.Logic.Basic
import Mathlib.Data.List.Basic

set_option relaxedAutoImplicit false
set_option autoImplicit false

/-!
# Labelled machines and their runs

A concurrent program is embedded as a partial step function `step : σ → α → Option σ`: a label
`a` names the thread that moves and resolves every choice the program leaves open (a schedule,
an answer of the outside world), and `step s a = none` when that thread cannot move in `s`.
A run is a list of labels, so a run can be evaluated on concrete labels and reasoned about by
induction on its length.

A condition `C : σ → α → Prop` on the state before a step is attached with `guarded`: the runs
of `guarded step C` are exactly the runs of `step` all of whose steps meet `C`.

## Main definitions

* `Machine.run` — the state after a list of labels, if every step is enabled.
* `Machine.guarded` — the machine restricted to the steps that meet a condition.
* `Machine.CanReach` — some run leads to a state of a kind.
* `Machine.recorded` — the machine with a record beside its state.

## Main results

* `Machine.run_append` — runs compose.
* `Machine.run_invariant` — what the start satisfies and every step keeps holds after every run.
* `Machine.run_trace_invariant` — the same for a property of the labels taken so far and the state.
* `Machine.canReach_of_measure` — what some step always brings nearer can be reached.
-/

namespace Machine

variable {σ α : Type*}

/-- The state reached from `s` along the labels, or `none` if some step is not enabled. -/
def run (step : σ → α → Option σ) : σ → List α → Option σ
  | s, [] => some s
  | s, a :: as => (step s a).bind fun t => run step t as

/-- The machine that takes a step only if the state before it meets the condition `C`. -/
def guarded (step : σ → α → Option σ) (C : σ → α → Prop) [∀ s a, Decidable (C s a)]
    (s : σ) (a : α) : Option σ :=
  if C s a then step s a else none

variable {step : σ → α → Option σ}

@[simp] lemma run_nil (s : σ) : run step s [] = some s := rfl

/-- A run that starts with `a` takes the step `a` and runs on. -/
lemma run_cons {s s' : σ} {a : α} {as : List α} :
    run step s (a :: as) = some s' ↔ ∃ t, step s a = some t ∧ run step t as = some s' := by
  simp [run, Option.bind_eq_some_iff]

/-- Runs compose: a run along `as ++ bs` is a run along `as` followed by one along `bs`. -/
lemma run_append {s s' : σ} {as bs : List α} :
    run step s (as ++ bs) = some s' ↔ ∃ t, run step s as = some t ∧ run step t bs = some s' := by
  induction as generalizing s with
  | nil => simp
  | cons a as ih =>
    simp only [List.cons_append, run_cons, ih]
    constructor
    · rintro ⟨t, ht, u, hu, hs⟩
      exact ⟨u, ⟨t, ht, hu⟩, hs⟩
    · rintro ⟨u, ⟨t, ht, hu⟩, hs⟩
      exact ⟨t, ht, u, hu, hs⟩

/-- **The invariant rule**: a property of the start that every step keeps holds after every
run. -/
theorem run_invariant (Inv : σ → Prop)
    (hstep : ∀ s a s', Inv s → step s a = some s' → Inv s') {s s' : σ} {as : List α}
    (hs : Inv s) (hr : run step s as = some s') : Inv s' := by
  induction as generalizing s with
  | nil =>
    obtain rfl : s = s' := by simpa using hr
    exact hs
  | cons a as ih =>
    obtain ⟨t, ht, hr⟩ := run_cons.1 hr
    exact ih (hstep s a t hs ht) hr

/-- **The invariant rule with a history**: a property of the labels taken so far and the state that
every step keeps holds after every run. -/
theorem run_trace_invariant (Inv : List α → σ → Prop)
    (hstep : ∀ as s a s', Inv as s → step s a = some s' → Inv (as ++ [a]) s') {s s' : σ}
    {bs as : List α} (hs : Inv bs s) (hr : run step s as = some s') : Inv (bs ++ as) s' := by
  induction as generalizing s bs with
  | nil =>
    obtain rfl : s = s' := by simpa using hr
    simpa using hs
  | cons a as ih =>
    obtain ⟨t, ht, hr⟩ := run_cons.1 hr
    have htail := ih (hstep bs s a t hs ht) hr
    rwa [List.append_assoc, List.singleton_append] at htail

section Guarded

variable {C : σ → α → Prop} [∀ s a, Decidable (C s a)]

/-- A guarded step is a step whose start meets the condition. -/
lemma guarded_eq_some {s s' : σ} {a : α} :
    guarded step C s a = some s' ↔ C s a ∧ step s a = some s' := by
  simp [guarded]

/-- A run of guarded steps is a run. -/
lemma run_of_guarded {s s' : σ} {as : List α} (h : run (guarded step C) s as = some s') :
    run step s as = some s' := by
  induction as generalizing s with
  | nil => exact h
  | cons a as ih =>
    obtain ⟨t, ht, h⟩ := run_cons.1 h
    exact run_cons.2 ⟨t, (guarded_eq_some.1 ht).2, ih h⟩

end Guarded

/-! ## Records -/

section Recorded

variable {ρ : Type*} (record : σ → α → σ → ρ → ρ)

/-- The machine with a record beside its state: the record of a step may depend on both of its states
and changes neither. -/
def recorded (step : σ → α → Option σ) (s : σ × ρ) (a : α) : Option (σ × ρ) :=
  (step s.1 a).map fun t => (t, record s.1 a t s.2)

variable {record}

/-- A recorded step is a step. -/
lemma recorded_eq_some {s t : σ × ρ} {a : α} : recorded record step s a = some t ↔
    step s.1 a = some t.1 ∧ t.2 = record s.1 a t.1 s.2 := by
  simp only [recorded, Option.map_eq_some_iff]
  constructor
  · rintro ⟨u, hu, rfl⟩
    exact ⟨hu, rfl⟩
  · rintro ⟨ht, hrecord⟩
    exact ⟨t.1, ht, Prod.ext rfl hrecord.symm⟩

/-- **The record does not restrict the machine**: every run can be recorded, in one way. -/
lemma run_recorded_iff {s t : σ} {r : ρ} {as : List α} :
    (∃ q, run (recorded record step) (s, r) as = some (t, q)) ↔ run step s as = some t := by
  induction as generalizing s r with
  | nil => simp [run]
  | cons a as ih =>
    rw [run_cons]
    constructor
    · rintro ⟨q, hrun⟩
      obtain ⟨⟨u, p⟩, hstep, hrun⟩ := run_cons.1 hrun
      exact ⟨u, (recorded_eq_some.1 hstep).1, ih.mp ⟨q, hrun⟩⟩
    · rintro ⟨u, hstep, hrun⟩
      obtain ⟨q, hrun⟩ := (ih (r := record s a u r)).mpr hrun
      exact ⟨q, run_cons.2 ⟨_, recorded_eq_some.2 ⟨hstep, rfl⟩, hrun⟩⟩

end Recorded

/-! ## States that can be reached -/

/-- Some run leads from `s` to a state with `P`. -/
def CanReach (step : σ → α → Option σ) (s : σ) (P : σ → Prop) : Prop :=
  ∃ as t, run step s as = some t ∧ P t

section CanReach

variable {s t : σ} {a : α} {P Q : σ → Prop}

/-- A state can reach itself. -/
lemma CanReach.here (h : P s) : CanReach step s P := ⟨[], s, rfl, h⟩

/-- A step to a state from which `P` can be reached. -/
lemma CanReach.cons (hstep : step s a = some t) (h : CanReach step t P) : CanReach step s P := by
  obtain ⟨as, u, hr, hu⟩ := h
  exact ⟨a :: as, u, run_cons.2 ⟨t, hstep, hr⟩, hu⟩

/-- Runs to states from which `Q` can be reached. -/
lemma CanReach.trans (h : CanReach step s P) (hP : ∀ t, P t → CanReach step t Q) :
    CanReach step s Q := by
  obtain ⟨as, t, hr, ht⟩ := h
  obtain ⟨bs, u, hr', hu⟩ := hP t ht
  exact ⟨as ++ bs, u, run_append.2 ⟨t, hr, hr'⟩, hu⟩

/-- A weaker condition on the steps leaves what can be reached within reach. -/
lemma CanReach.weaken {C D : σ → α → Prop} [∀ s a, Decidable (C s a)] [∀ s a, Decidable (D s a)]
    (hCD : ∀ s a, C s a → D s a) (h : CanReach (guarded step C) s P) :
    CanReach (guarded step D) s P := by
  obtain ⟨as, t, hr, ht⟩ := h
  refine ⟨as, t, ?_, ht⟩
  induction as generalizing s with
  | nil => exact hr
  | cons a as ih =>
    obtain ⟨u, hu, hr⟩ := run_cons.1 hr
    obtain ⟨hC, hu⟩ := guarded_eq_some.1 hu
    exact run_cons.2 ⟨u, guarded_eq_some.2 ⟨hCD s a hC, hu⟩, ih hr⟩

/-- **Progress by a measure**: if from every state with `Inv` that is not yet in `P` some step leads
to a state with `Inv` and a smaller measure, then `P` can be reached. -/
theorem canReach_of_measure (Inv : σ → Prop) (μ : σ → ℕ)
    (hnext : ∀ s, Inv s → P s ∨ ∃ a t, step s a = some t ∧ Inv t ∧ μ t < μ s) (hs : Inv s) :
    CanReach step s fun t => Inv t ∧ P t := by
  induction hn : μ s using Nat.strongRecOn generalizing s with
  | ind n ih =>
    rcases hnext s hs with hP | ⟨a, t, hstep, ht, hlt⟩
    · exact .here ⟨hs, hP⟩
    · exact .cons hstep (ih (μ t) (hn ▸ hlt) ht rfl)

end CanReach

end Machine
