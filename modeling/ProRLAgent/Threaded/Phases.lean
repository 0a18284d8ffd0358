import Mathlib.Algebra.Order.Group.Int
import Mathlib.Data.Fintype.Basic
import Mathlib.Data.Fin.VecNotation
import Mathlib.Logic.Function.Basic
import ProRLAgent.Lib.Machine
import ProRLAgent.Jobs.Timer
import ProRLAgent.Threaded.Server

set_option relaxedAutoImplicit false
set_option autoImplicit false

/-!
# The phases of a job and the hand-off between workers

A worker of the threaded server runs its handler inside `phase_context(job_details.timer, ...)`. It
puts the job on the next queue before it leaves the context, so the next worker can enter its own
phase first; then the first worker leaves and sets the current phase to `others` behind its back.

The machine below follows one job and its timer through workers of the three kinds. A step is what
a worker does with the timer or with a queue. Readings of the clock are part of a label, and a step
is possible only with readings that are not before the last one.

## Main definitions

* `JobPhases.State`, `JobPhases.step` — the machine.
* `JobPhases.State.PhasesKept` — the property.
* `JobPhases.EntersAlone` — the condition on a step.
* `JobPhases.Orderly` — the invariant.

## Main results

* `JobPhases.step_orderly` — a step that meets the condition keeps the invariant.
* `JobPhases.phasesKept_of_entersAlone` — along runs that meet the condition handlers run in their
  own phase, and no worker finds the timer outside of the counted phases without reason.
* `JobPhases.not_phasesKept_handoff` — a worker that leaves after the next one has entered.
-/

namespace ProRLAgent.JobPhases

open ThreadedServer (JobType)

/-- Where a worker stands with the job. -/
inductive Pc (α : Type*) where
  /-- At the `get` of its queue. -/
  | waiting
  /-- It has the job and is about to enter the phase context. -/
  | got
  /-- It has entered the phase; at the call of `run_with_timeout_awareness`. -/
  | entered
  /-- The handler is executing. -/
  | executing
  /-- In the branch for a timer that is not in a counted phase. `counted` is a history variable: the
  counted time at that moment. -/
  | notCounted (counted : α)
  /-- At the `put` on the next queue or, for an eval worker, at the completion event. -/
  | putting
  /-- At the end of the phase context. -/
  | exiting
  deriving DecidableEq

/-- How a handler under `run_with_timeout_awareness` ended. -/
inductive Outcome where
  | value
  /-- The wait timed out or the task was cancelled. -/
  | timeout
  /-- An exception of the handler. -/
  | failed

/-- What a worker does next, with its readings of the clock. -/
inductive Act (α : Type*) where
  | take
  | enter (now now' : α)
  | remaining (now : α)
  | finish (o : Outcome)
  | put
  | exit (now : α)

/-- One job: its timer, the last reading of the clock, the queues that it is on, and where the
workers stand. -/
structure State (ι α : Type*) where
  timer : PausableTimer α
  clock : α
  queued : JobType → Bool
  pc : ι → Pc α

/-- `function_type` of a worker. -/
def phaseOf : JobType → Phase
  | .init => .init
  | .run => .run
  | .eval => .eval

/-- The queue that a worker puts the job on, if there is one. -/
def nextQueue : JobType → Option JobType
  | .init => some .run
  | .run => some .eval
  | .eval => none

section Machine

variable {ι α : Type*} [DecidableEq ι] [AddCommGroup α] [LinearOrder α]

def State.setPc (s : State ι α) (i : ι) (pc : Pc α) : State ι α :=
  { s with pc := Function.update s.pc i pc }

/-- **One step of worker `i`**; `kind` are the kinds of the workers. -/
def step (kind : ι → JobType) (s : State ι α) (l : ι × Act α) : Option (State ι α) :=
  let i := l.1
  match s.pc i, l.2 with
  | .waiting, .take =>
    if s.queued (kind i) then
      some { s.setPc i .got with queued := Function.update s.queued (kind i) false }
    else none
  | .got, .enter now now' =>
    if s.clock ≤ now ∧ now ≤ now' then
      some { s.setPc i .entered with
        timer := s.timer.enterPhase (phaseOf (kind i)) now now'
        clock := now' }
    else none
  | .entered, .remaining now =>
    if s.clock ≤ now then
      match s.timer.getRemainingTimeout now with
      | none =>
        some { s.setPc i (.notCounted (s.timer.getCountedTime now)) with
          timer := s.timer.triggerTimeout
          clock := now }
      | some r =>
        if r ≤ 0 then
          some { s.setPc i .exiting with timer := s.timer.triggerTimeout, clock := now }
        else some { s.setPc i .executing with clock := now }
    else none
  | .executing, .finish .value => some (s.setPc i .putting)
  | .executing, .finish .timeout =>
    some { s.setPc i .exiting with timer := s.timer.triggerTimeout }
  | .executing, .finish .failed => some (s.setPc i .exiting)
  | .putting, .put =>
    match nextQueue (kind i) with
    | some k => some { s.setPc i .exiting with queued := Function.update s.queued k true }
    | none => some (s.setPc i .exiting)
  | .notCounted _, .exit now | .exiting, .exit now =>
    if s.clock ≤ now then
      some { s.setPc i .waiting with timer := s.timer.exitPhase now, clock := now }
    else none
  | _, _ => none

/-- A job whose timer was started at `begin` and that is on the first queue. -/
def initState (timeout begin : α) : State ι α where
  timer := (PausableTimer.new timeout).start begin
  clock := begin
  queued := fun k => k = .init
  pc := fun _ => .waiting

/-- **Handlers run in their own phase**, and the branch for a timer that is not in a counted phase
is taken only when the counted time has reached the timeout. -/
structure State.PhasesKept (kind : ι → JobType) (s : State ι α) : Prop where
  phase : ∀ i, s.pc i = .executing → s.timer.currentPhase = some (phaseOf (kind i))
  counted : ∀ i c, s.pc i = .notCounted c → s.timer.timeout ≤ c

/-- The worker is inside its phase context. -/
def Pc.inside : Pc α → Bool
  | .waiting | .got => false
  | _ => true

/-- **The condition on a step**: a worker enters its phase only when no worker is inside a phase
context of the job. -/
def EntersAlone (s : State ι α) : ι × Act α → Prop
  | (_, .enter _ _) => ∀ j, (s.pc j).inside = false
  | _ => True

instance [Fintype ι] (s : State ι α) (l : ι × Act α) : Decidable (EntersAlone s l) := by
  obtain ⟨i, a⟩ := l
  cases a <;> unfold EntersAlone <;> infer_instance

/-! ## The invariant -/

/-- The worker has the job and has not passed it on. -/
def Pc.holds : Pc α → Bool
  | .got | .entered | .executing | .putting => true
  | _ => false

/-- The counted time has reached the timeout. -/
def State.Reached (s : State ι α) : Prop := s.timer.timeout ≤ s.timer.getCountedTime s.clock

/-- The job is on a queue or with a worker. -/
def State.Alive (s : State ι α) : Prop := (∃ k, s.queued k = true) ∨ ∃ i, (s.pc i).holds = true

/-- **The invariant**: the job is in one place, at most one worker is inside a phase context and the
current phase is its own, and the timeout flag of a job that is still under way has a reason. -/
structure Orderly (kind : ι → JobType) (begin : α) (s : State ι α) : Prop where
  timer : s.timer.Balanced begin
  clock : 0 < s.clock
  oneQueue : ∀ k l, s.queued k = true → s.queued l = true → k = l
  oneHolder : ∀ i j, (s.pc i).holds = true → (s.pc j).holds = true → i = j
  onePlace : ∀ k i, s.queued k = true → (s.pc i).holds = false
  oneInside : ∀ i j, (s.pc i).inside = true → (s.pc j).inside = true → i = j
  phase : ∀ i, (s.pc i).inside = true → s.timer.currentPhase = some (phaseOf (kind i))
  counted : ∀ i c, s.pc i = .notCounted c → s.timer.timeout ≤ c
  triggered : s.timer.isTimeoutTriggered = true → s.Alive → s.Reached

omit [DecidableEq ι] in
/-- The invariant gives the property. -/
lemma Orderly.phasesKept {kind : ι → JobType} {begin : α} {s : State ι α}
    (h : Orderly kind begin s) : s.PhasesKept kind where
  phase i hi := h.phase i (by rw [hi]; rfl)
  counted := h.counted

end Machine

/-! ## Steps -/

section Steps

variable {ι α : Type*} [DecidableEq ι] [AddCommGroup α] [LinearOrder α] {kind : ι → JobType}
  {begin : α} {s s' : State ι α} {i : ι}

omit [AddCommGroup α] [LinearOrder α] in
/-- Where a worker stands after a step of worker `i`. -/
lemma pc_setPc (s : State ι α) (i j : ι) (pc : Pc α) :
    (s.setPc i pc).pc j = if j = i then pc else s.pc j := by
  simp only [State.setPc, Function.update_apply]

omit [AddCommGroup α] [LinearOrder α] in
/-- A worker of which something is true after a step of worker `i`. -/
lemma of_setPc {p : Pc α → Bool} {pc : Pc α} {j : ι} (h : p ((s.setPc i pc).pc j) = true) :
    (j = i ∧ p pc = true) ∨ (j ≠ i ∧ p (s.pc j) = true) := by
  rw [pc_setPc] at h
  split at h
  · exact .inl ⟨‹_›, h⟩
  · exact .inr ⟨‹_›, h⟩

/-- A job that its holder gives up is nowhere. -/
lemma Orderly.not_alive (h : Orderly kind begin s) (hi : (s.pc i).holds = true) {pc : Pc α}
    (hpc : pc.holds = false) {timer : PausableTimer α} {clock : α} :
    ¬ State.Alive { s.setPc i pc with timer := timer, clock := clock } := by
  rintro (⟨k, hk⟩ | ⟨j, hj⟩)
  · rw [h.onePlace k i hk] at hi
    cases hi
  · rcases of_setPc hj with ⟨-, hj⟩ | ⟨hne, hj⟩
    · rw [hpc] at hj
      cases hj
    · exact hne (h.oneHolder j i hj hi)

/-- A worker inside its phase context that goes on without a queue. -/
lemma Orderly.inner (h : Orderly kind begin s) (hinside : (s.pc i).inside = true) {pc : Pc α}
    (hholds : pc.holds = true → (s.pc i).holds = true) {timer : PausableTimer α} {clock : α}
    (htimer : timer.Balanced begin) (hphase : timer.currentPhase = s.timer.currentPhase)
    (htimeout : timer.timeout = s.timer.timeout) (hclock : 0 < clock)
    (hnew : ∀ c, pc = .notCounted c → timer.timeout ≤ c)
    (htrig : timer.isTimeoutTriggered = true →
      State.Alive { s.setPc i pc with timer := timer, clock := clock } →
      timer.timeout ≤ timer.getCountedTime clock) :
    Orderly kind begin { s.setPc i pc with timer := timer, clock := clock } where
  timer := htimer
  clock := hclock
  oneQueue := h.oneQueue
  oneHolder j k hj hk := by
    have hold : ∀ {l : ι}, ((s.setPc i pc).pc l).holds = true → (s.pc l).holds = true := by
      intro l hl
      rcases of_setPc hl with ⟨rfl, hpc⟩ | ⟨-, hl⟩
      · exact hholds hpc
      · exact hl
    exact h.oneHolder j k (hold hj) (hold hk)
  onePlace k j hk := by
    have hj := h.onePlace k j hk
    have hi := h.onePlace k i hk
    cases hnew : ((s.setPc i pc).pc j).holds with
    | false => rfl
    | true =>
      rcases of_setPc hnew with ⟨-, hpc⟩ | ⟨-, hpc⟩
      · rw [hholds hpc] at hi
        cases hi
      · rw [hpc] at hj
        cases hj
  oneInside j k hj hk := by
    have hold : ∀ {l : ι}, ((s.setPc i pc).pc l).inside = true → l = i := by
      intro l hl
      rcases of_setPc hl with ⟨rfl, -⟩ | ⟨-, hl⟩
      · rfl
      · exact h.oneInside l i hl hinside
    rw [hold hj, hold hk]
  phase j hj := by
    rcases of_setPc hj with ⟨rfl, -⟩ | ⟨-, hj⟩
    · exact hphase.trans (h.phase j hinside)
    · exact hphase.trans (h.phase j hj)
  counted j c hj := by
    simp only [pc_setPc] at hj
    split at hj
    · exact hnew c hj
    · rw [htimeout]
      exact h.counted j c hj
  triggered := htrig

/-- A worker takes the job from its queue. -/
lemma Orderly.take (h : Orderly kind begin s) (hi : s.pc i = .waiting)
    (hq : s.queued (kind i) = true) :
    Orderly kind begin { s.setPc i .got with
      queued := Function.update s.queued (kind i) false } := by
  have hqueue : ∀ k, Function.update s.queued (kind i) false k = false := by
    intro k
    by_cases hk : k = kind i
    · rw [hk, Function.update_self]
    · rw [Function.update_of_ne hk]
      by_contra hne
      exact hk (h.oneQueue k (kind i) (by simpa using hne) hq)
  have hinside : ∀ {j : ι}, ((s.setPc i .got).pc j).inside = true → (s.pc j).inside = true := by
    intro j hj
    rcases of_setPc hj with ⟨-, hj⟩ | ⟨-, hj⟩
    · cases hj
    · exact hj
  exact {
    timer := h.timer
    clock := h.clock
    oneQueue := fun k l hk => by
      exact absurd ((hqueue k).symm.trans hk) Bool.false_ne_true
    oneHolder := fun j k hj hk => by
      have hold : ∀ {l : ι}, ((s.setPc i .got).pc l).holds = true → l = i := by
        intro l hl
        rcases of_setPc hl with ⟨rfl, -⟩ | ⟨-, hl⟩
        · rfl
        · rw [h.onePlace (kind i) l hq] at hl
          cases hl
      rw [hold hj, hold hk]
    onePlace := fun k j hk => by
      exact absurd ((hqueue k).symm.trans hk) Bool.false_ne_true
    oneInside := fun j k hj hk => h.oneInside j k (hinside hj) (hinside hk)
    phase := fun j hj => h.phase j (hinside hj)
    counted := fun j c hj => by
      simp only [pc_setPc] at hj
      split at hj
      · cases hj
      · exact h.counted j c hj
    triggered := fun ht _ => h.triggered ht (.inl ⟨kind i, hq⟩) }

/-- A worker puts the job on the next queue. -/
lemma Orderly.put (h : Orderly kind begin s) (hi : s.pc i = .putting) (k : JobType) :
    Orderly kind begin { s.setPc i .exiting with queued := Function.update s.queued k true } := by
  have hholds : (s.pc i).holds = true := by rw [hi]; rfl
  have hqueue : ∀ {l : JobType}, Function.update s.queued k true l = true → l = k := by
    intro l hl
    by_contra hne
    rw [Function.update_of_ne hne] at hl
    rw [h.onePlace l i hl] at hholds
    cases hholds
  have hfree : ∀ j, ((s.setPc i .exiting).pc j).holds = false := by
    intro j
    by_contra hne
    rcases of_setPc (p := Pc.holds) (by simpa using hne) with ⟨-, hj⟩ | ⟨hne, hj⟩
    · cases hj
    · exact hne (h.oneHolder j i hj hholds)
  have hinside : ∀ {j : ι}, ((s.setPc i .exiting).pc j).inside = true →
      (s.pc j).inside = true := by
    intro j hj
    rcases of_setPc hj with ⟨rfl, -⟩ | ⟨-, hj⟩
    · rw [hi]
      rfl
    · exact hj
  exact {
    timer := h.timer
    clock := h.clock
    oneQueue := fun l m hl hm => by rw [hqueue hl, hqueue hm]
    oneHolder := fun j l hj => by
      rw [hfree j] at hj
      cases hj
    onePlace := fun l j _ => hfree j
    oneInside := fun j l hj hl => h.oneInside j l (hinside hj) (hinside hl)
    phase := fun j hj => h.phase j (hinside hj)
    counted := fun j c hj => by
      simp only [pc_setPc] at hj
      split at hj
      · cases hj
      · exact h.counted j c hj
    triggered := fun ht _ => h.triggered ht (.inr ⟨i, hholds⟩) }

end Steps

section Timed

variable {ι α : Type*} [DecidableEq ι] [AddCommGroup α] [LinearOrder α] [IsOrderedAddMonoid α]
  {kind : ι → JobType} {begin : α} {s s' : State ι α} {i : ι}

/-- A worker enters its phase when nobody else is inside. -/
lemma Orderly.enter (h : Orderly kind begin s) (hi : s.pc i = .got) {now now' : α}
    (hnow : s.clock ≤ now) (hnow' : now ≤ now') (halone : ∀ j, (s.pc j).inside = false) :
    Orderly kind begin { s.setPc i .entered with
      timer := s.timer.enterPhase (phaseOf (kind i)) now now'
      clock := now' } := by
  have hholds : (s.pc i).holds = true := by rw [hi]; rfl
  have hpos : 0 < now := h.clock.trans_le hnow
  have hcounted : (phaseOf (kind i)).counted = true := by cases kind i <;> rfl
  have henter : s.timer.enterPhase (phaseOf (kind i)) now now' =
      (s.timer.switch (phaseOf (kind i)) now).checkAndTriggerTimeout now' := by
    rw [h.timer.enterPhase_eq, if_pos hcounted]
  have hbal : (s.timer.enterPhase (phaseOf (kind i)) now now').Balanced begin :=
    henter ▸ (h.timer.switch (phaseOf (kind i)) hpos).check now'
  have htimeout : (s.timer.enterPhase (phaseOf (kind i)) now now').timeout = s.timer.timeout :=
    PausableTimer.timeout_apply s.timer (.enter (phaseOf (kind i)) now now')
  have hphase : (s.timer.enterPhase (phaseOf (kind i)) now now').currentPhase =
      some (phaseOf (kind i)) := by
    rw [henter, PausableTimer.checkAndTriggerTimeout]
    split
    · rfl
    · split <;> rfl
  have hinside : ∀ {j : ι}, ((s.setPc i .entered).pc j).inside = true → j = i := by
    intro j hj
    rcases of_setPc hj with ⟨rfl, -⟩ | ⟨-, hj⟩
    · rfl
    · rw [halone j] at hj
      cases hj
  exact {
    timer := hbal
    clock := hpos.trans_le hnow'
    oneQueue := h.oneQueue
    oneHolder := fun j k hj hk => by
      have hold : ∀ {l : ι}, ((s.setPc i .entered).pc l).holds = true → (s.pc l).holds = true := by
        intro l hl
        rcases of_setPc hl with ⟨rfl, -⟩ | ⟨-, hl⟩
        · exact hholds
        · exact hl
      exact h.oneHolder j k (hold hj) (hold hk)
    onePlace := fun k j hk => by
      exact absurd ((h.onePlace k i hk).symm.trans hholds) Bool.false_ne_true
    oneInside := fun j k hj hk => by rw [hinside hj, hinside hk]
    phase := fun j hj => by rw [hinside hj, hphase]
    counted := fun j c hj => by
      simp only [pc_setPc] at hj
      split at hj
      · cases hj
      · rw [htimeout]
        exact h.counted j c hj
    triggered := fun ht _ => by
      change (s.timer.enterPhase _ now now').timeout ≤
        (s.timer.enterPhase _ now now').getCountedTime now'
      rw [htimeout, henter, PausableTimer.getCountedTime_check]
      rw [henter] at ht
      rcases PausableTimer.triggered_of_check ht with ht | ht
      · -- The flag was set before, so the timeout was reached before.
        have hreached := h.triggered ht (.inr ⟨i, hholds⟩)
        rw [h.timer.getCountedTime_switch, if_pos hcounted]
        calc s.timer.timeout ≤ s.timer.getCountedTime s.clock := hreached
          _ ≤ s.timer.getCountedTime now := h.timer.getCountedTime_mono hnow
          _ ≤ s.timer.getCountedTime now + (now' - now) :=
            le_add_of_nonneg_right (sub_nonneg.mpr hnow')
      · exact ht }

/-- A worker leaves its phase context. -/
lemma Orderly.exit (h : Orderly kind begin s) (hi : (s.pc i).inside = true) {now : α}
    (hnow : s.clock ≤ now) :
    Orderly kind begin { s.setPc i .waiting with
      timer := s.timer.exitPhase now
      clock := now } := by
  have hpos : 0 < now := h.clock.trans_le hnow
  have hexit : s.timer.exitPhase now = s.timer.switch .others now := h.timer.exitPhase_eq now
  have hout : ∀ j, ((s.setPc i .waiting).pc j).inside = false := by
    intro j
    by_contra hne
    rcases of_setPc (p := Pc.inside) (by simpa using hne) with ⟨-, hj⟩ | ⟨hne, hj⟩
    · cases hj
    · exact hne (h.oneInside j i hj hi)
  have hholds : ∀ {j : ι}, ((s.setPc i .waiting).pc j).holds = true → (s.pc j).holds = true := by
    intro j hj
    rcases of_setPc hj with ⟨-, hj⟩ | ⟨-, hj⟩
    · cases hj
    · exact hj
  exact {
    timer := hexit ▸ h.timer.switch .others hpos
    clock := hpos
    oneQueue := h.oneQueue
    oneHolder := fun j k hj hk => h.oneHolder j k (hholds hj) (hholds hk)
    onePlace := fun k j hk => by
      by_contra hne
      have hj := hholds (j := j) (by simpa using hne)
      rw [h.onePlace k j hk] at hj
      cases hj
    oneInside := fun j k hj => by exact absurd ((hout j).symm.trans hj) Bool.false_ne_true
    phase := fun j hj => by exact absurd ((hout j).symm.trans hj) Bool.false_ne_true
    counted := fun j c hj => by
      simp only [pc_setPc] at hj
      split at hj
      · cases hj
      · rw [hexit]
        exact h.counted j c hj
    triggered := fun ht halive => by
      have hold : s.Alive := by
        rcases halive with hk | ⟨j, hj⟩
        · exact .inl hk
        · exact .inr ⟨j, hholds hj⟩
      have hflag : s.timer.isTimeoutTriggered = true := by
        have hcopy : (s.timer.exitPhase now).isTimeoutTriggered = true := ht
        rw [hexit] at hcopy
        exact hcopy
      change (s.timer.exitPhase now).timeout ≤ (s.timer.exitPhase now).getCountedTime now
      rw [hexit, h.timer.getCountedTime_switch]
      simp only [Phase.counted, Bool.false_eq_true, if_false, add_zero]
      exact (h.triggered hflag hold).trans (h.timer.getCountedTime_mono hnow) }

omit [DecidableEq ι] in
/-- The call of `run_with_timeout_awareness`: a worker that is alone in its phase finds the timer in
a counted phase, so only the timeout flag can send it to the branch for a timer that is not. -/
lemma Orderly.remaining (h : Orderly kind begin s) (hi : s.pc i = .entered) {now : α}
    (hnow : s.clock ≤ now) (hnone : s.timer.getRemainingTimeout now = none) :
    s.timer.timeout ≤ s.timer.getCountedTime now := by
  have hphase := h.phase i (by rw [hi]; rfl)
  have hcounted : (phaseOf (kind i)).counted = true := by cases kind i <;> rfl
  have hflag : s.timer.isTimeoutTriggered = true := by
    by_contra hne
    simp [PausableTimer.getRemainingTimeout, h.timer.running, hne, hphase, hcounted] at hnone
  have hreached := h.triggered hflag (.inr ⟨i, by rw [hi]; rfl⟩)
  exact hreached.trans (h.timer.getCountedTime_mono hnow)

/-- **A step that meets the condition keeps the invariant.** -/
theorem step_orderly {l : ι × Act α} (h : Orderly kind begin s) (hcond : EntersAlone s l)
    (hstep : step kind s l = some s') : Orderly kind begin s' := by
  obtain ⟨i, a⟩ := l
  have hlater : ∀ {now : α}, s.clock ≤ now → (s.pc i).holds = true →
      s.timer.isTimeoutTriggered = true → s.timer.timeout ≤ s.timer.getCountedTime now :=
    fun hnow hi ht => (h.triggered ht (.inr ⟨i, hi⟩)).trans (h.timer.getCountedTime_mono hnow)
  have htrigger : s.timer.triggerTimeout.Balanced begin := { h.timer with }
  unfold step at hstep
  cases hi : s.pc i <;> cases a <;> simp only [hi, reduceCtorEq] at hstep
  case waiting.take =>
    split at hstep
    · next hq =>
      obtain rfl := Option.some.inj hstep
      exact h.take hi hq
    · cases hstep
  case got.enter now now' =>
    split at hstep
    · next hclock =>
      obtain rfl := Option.some.inj hstep
      exact h.enter hi hclock.1 hclock.2 hcond
    · cases hstep
  case entered.remaining now =>
    have hinside : (s.pc i).inside = true := by rw [hi]; rfl
    have hholds : (s.pc i).holds = true := by rw [hi]; rfl
    split at hstep
    · next hnow =>
      have hpos : 0 < now := h.clock.trans_le hnow
      split at hstep
      · next hnone =>
        obtain rfl := Option.some.inj hstep
        refine h.inner hinside (fun hf => by cases hf) htrigger rfl rfl hpos (fun c hc => ?_)
          fun _ halive => absurd halive (h.not_alive hholds rfl)
        obtain rfl : s.timer.getCountedTime now = c := by simpa using hc
        exact h.remaining hi hnow hnone
      · split at hstep <;> obtain rfl := Option.some.inj hstep
        · exact h.inner hinside (fun hf => by cases hf) htrigger rfl rfl hpos
            (fun c hc => by cases hc) fun _ halive => absurd halive (h.not_alive hholds rfl)
        · exact h.inner hinside (fun _ => hholds) h.timer rfl rfl hpos (fun c hc => by cases hc)
            fun ht _ => hlater hnow hholds ht
    · cases hstep
  case executing.finish o =>
    have hinside : (s.pc i).inside = true := by rw [hi]; rfl
    have hholds : (s.pc i).holds = true := by rw [hi]; rfl
    cases o <;> simp only [Option.some.injEq] at hstep <;> subst hstep
    · exact h.inner hinside (fun _ => hholds) h.timer rfl rfl h.clock (fun c hc => by cases hc)
        fun ht _ => hlater (le_refl _) hholds ht
    · exact h.inner hinside (fun hf => by cases hf) htrigger rfl rfl h.clock
        (fun c hc => by cases hc) fun _ halive => absurd halive (h.not_alive hholds rfl)
    · exact h.inner hinside (fun hf => by cases hf) h.timer rfl rfl h.clock
        (fun c hc => by cases hc) fun _ halive => absurd halive (h.not_alive hholds rfl)
  case putting.put =>
    split at hstep <;> obtain rfl := Option.some.inj hstep
    · exact h.put hi _
    · have hholds : (s.pc i).holds = true := by rw [hi]; rfl
      exact h.inner (by rw [hi]; rfl) (fun hf => by cases hf) h.timer rfl rfl h.clock
        (fun c hc => by cases hc) fun _ halive => absurd halive (h.not_alive hholds rfl)
  case notCounted.exit c now =>
    split at hstep
    · next hnow =>
      obtain rfl := Option.some.inj hstep
      exact h.exit (by rw [hi]; rfl) hnow
    · cases hstep
  case exiting.exit now =>
    split at hstep
    · next hnow =>
      obtain rfl := Option.some.inj hstep
      exact h.exit (by rw [hi]; rfl) hnow
    · cases hstep

omit [DecidableEq ι] [IsOrderedAddMonoid α] in
/-- The invariant holds when the job is submitted. -/
lemma orderly_initState (kind : ι → JobType) (timeout : α) (hbegin : 0 < begin) :
    Orderly kind begin (initState timeout begin) where
  timer := PausableTimer.balanced_start timeout hbegin
  clock := hbegin
  oneQueue k l hk hl := by
    simp only [initState, decide_eq_true_eq] at hk hl
    rw [hk, hl]
  oneHolder i j hi := by cases hi
  onePlace k i _ := rfl
  oneInside i j hi := by cases hi
  phase i hi := by cases hi
  counted i c hi := by cases hi
  triggered ht := by cases ht

/-- **Phase accounting survives the hand-off**: in every run of a job through the workers whose
steps all meet the condition, with readings of a positive nondecreasing clock, a handler that is
executing has its own phase as the current one, and the branch for a timer that is not in a counted
phase is not taken while the counted time is below the timeout. -/
theorem phasesKept_of_entersAlone [Fintype ι] (kind : ι → JobType) (timeout begin : α)
    (hbegin : 0 < begin) (ls : List (ι × Act α)) (s : State ι α)
    (hrun : Machine.run (Machine.guarded (step kind) EntersAlone) (initState timeout begin) ls =
      some s) : s.PhasesKept kind := by
  have hinv : Orderly kind begin s := by
    refine Machine.run_invariant (Orderly kind begin) (fun s l s' h hstep => ?_)
      (orderly_initState kind timeout hbegin) hrun
    obtain ⟨hcond, hstep⟩ := Machine.guarded_eq_some.mp hstep
    exact step_orderly h hcond hstep
  exact hinv.phasesKept

end Timed

/-! ## Two hand-offs -/

/-- One worker of each kind. -/
def oneOfEach : Fin 3 → JobType := ![.init, .run, .eval]

/-- The init worker has put the job on the next queue and is still in its phase. -/
def initPut : List (Fin 3 × Act ℤ) :=
  [(0, .take), (0, .enter 2 2), (0, .remaining 2), (0, .finish .value), (0, .put)]

/-- The init worker leaves its phase before the run worker enters its own. -/
def cleanHandoff : List (Fin 3 × Act ℤ) :=
  initPut ++ [(0, .exit 3), (1, .take), (1, .enter 4 4), (1, .remaining 5)]

theorem phasesKept_cleanHandoff :
    ∃ s, Machine.run (Machine.guarded (step oneOfEach) EntersAlone) (initState 10 1) cleanHandoff =
        some s ∧ s.pc 1 = .executing ∧ s.PhasesKept oneOfEach := by
  obtain ⟨s, hrun, hpc⟩ : ∃ s, Machine.run (Machine.guarded (step oneOfEach) EntersAlone)
      (initState 10 1) cleanHandoff = some s ∧ s.pc 1 = .executing := ⟨_, rfl, by decide⟩
  exact ⟨s, hrun, hpc, phasesKept_of_entersAlone oneOfEach 10 1 (by decide) cleanHandoff s hrun⟩

/-- The init worker leaves its phase after the run worker has entered its own: a handler that is
executing loses its phase, and a worker that is about to start its handler takes the branch for a
timer that is not in a counted phase, with a counted time of `2` of `10`. -/
theorem not_phasesKept_handoff :
    (∃ s, Machine.run (step oneOfEach) (initState 10 1)
        (initPut ++ [(1, .take), (1, .enter 3 3), (1, .remaining 3), (0, .exit 4)]) = some s ∧
      s.pc 1 = .executing ∧ s.timer.currentPhase = some .others ∧ ¬ s.PhasesKept oneOfEach) ∧
    ∃ s, Machine.run (step oneOfEach) (initState 10 1)
        (initPut ++ [(1, .take), (1, .enter 3 3), (0, .exit 4), (1, .remaining 5)]) = some s ∧
      s.pc 1 = .notCounted 2 ∧ s.timer.timeout = 10 ∧ ¬ s.PhasesKept oneOfEach := by
  constructor
  · obtain ⟨s, hrun, hpc, hphase⟩ : ∃ s, Machine.run (step oneOfEach) (initState 10 1)
        (initPut ++ [(1, .take), (1, .enter 3 3), (1, .remaining 3), (0, .exit 4)]) = some s ∧
        s.pc 1 = .executing ∧ s.timer.currentPhase = some .others := ⟨_, rfl, by decide, by decide⟩
    refine ⟨s, hrun, hpc, hphase, fun hkept => ?_⟩
    have := hkept.phase 1 hpc
    rw [hphase] at this
    exact absurd this (by decide)
  · obtain ⟨s, hrun, hpc, htimeout⟩ : ∃ s, Machine.run (step oneOfEach) (initState 10 1)
        (initPut ++ [(1, .take), (1, .enter 3 3), (0, .exit 4), (1, .remaining 5)]) = some s ∧
        s.pc 1 = .notCounted 2 ∧ s.timer.timeout = 10 := ⟨_, rfl, by decide, by decide⟩
    refine ⟨s, hrun, hpc, htimeout, fun hkept => ?_⟩
    have := hkept.counted 1 2 hpc
    rw [htimeout] at this
    exact absurd this (by decide)

end ProRLAgent.JobPhases
