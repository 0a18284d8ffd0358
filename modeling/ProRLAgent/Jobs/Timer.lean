import Mathlib.Algebra.Order.Group.Basic
import Mathlib.Algebra.Order.Group.Int
import Mathlib.Logic.Function.Basic
import Mathlib.Data.List.Basic
import Mathlib.Tactic.Abel
import ProRLAgent.Basic

set_option relaxedAutoImplicit false
set_option autoImplicit false

/-!
# The timer of a job

`PausableTimer` of `timer.py` counts the time that a job spends in its init, run and eval phases.
Elapsed time is kept partly in four accumulators and partly in the open interval since
`phase_start_time`; entering and leaving a phase moves the open interval into the accumulator of
the current phase.

Times are elements of a linearly ordered commutative group. Every call of `time.time()` is an
argument: an operation that calls it twice has two arguments, because the clock may advance in
between.

## Main definitions

* `PausableTimer` — the timer, with the methods of the source.
* `TimerOp`, `PausableTimer.run` — sequences of operations with their readings of the clock.
* `PausableTimer.Balanced` — the invariant.

## Main results

* `PausableTimer.balanced_apply` — an operation keeps the invariant.
* `PausableTimer.conserved` — what `get_timing_info`, `get_remaining_timeout` and the timeout flag
  say after every sequence of operations.
* `PausableTimer.not_countedElapsed_eq` — the two readings of `get_timing_info` can differ.
-/

namespace ProRLAgent

/-- The phases of a job. The first three count toward the timeout. -/
inductive Phase where
  | init
  | run
  | eval
  | others
  deriving DecidableEq, Repr

/-- `phase in ['init', 'run', 'eval']`. -/
def Phase.counted : Phase → Bool
  | .others => false
  | _ => true

/-- `PausableTimer`. -/
structure PausableTimer (α : Type*) where
  timeout : α
  startTime : Option α
  isRunning : Bool
  currentPhase : Option Phase
  phaseStartTime : Option α
  isTimeoutTriggered : Bool
  phaseTimes : Phase → α

/-- What `get_timing_info` returns. -/
structure TimingInfo (α : Type*) where
  initTime : α
  runTime : α
  evalTime : α
  othersTime : α
  countedElapsed : α
  timeoutTriggered : Bool

namespace PausableTimer

variable {α : Type*} [AddCommGroup α] [LinearOrder α]

/-- `PausableTimer(timeout)`. -/
def new (timeout : α) : PausableTimer α where
  timeout := timeout
  startTime := none
  isRunning := false
  currentPhase := none
  phaseStartTime := none
  isTimeoutTriggered := false
  phaseTimes := fun _ => 0

/-- `start`. -/
def start (t : PausableTimer α) (now : α) : PausableTimer α :=
  if t.isRunning then t
  else
    { t with
      startTime := some now
      isRunning := true
      currentPhase := some .others
      phaseStartTime := some now }

/-- `trigger_timeout`. -/
def triggerTimeout (t : PausableTimer α) : PausableTimer α := { t with isTimeoutTriggered := true }

/-- `get_counted_time`. -/
def getCountedTime (t : PausableTimer α) (now : α) : α :=
  let countedTime := t.phaseTimes .init + t.phaseTimes .run + t.phaseTimes .eval
  match t.currentPhase, t.phaseStartTime with
  | some p, some b => if t.isRunning && p.counted then countedTime + (now - b) else countedTime
  | _, _ => countedTime

/-- `check_and_trigger_timeout`. -/
def checkAndTriggerTimeout (t : PausableTimer α) (now : α) : PausableTimer α :=
  if t.isTimeoutTriggered then t
  else if t.timeout ≤ t.getCountedTime now then t.triggerTimeout else t

/-- `get_remaining_timeout`. -/
def getRemainingTimeout (t : PausableTimer α) (now : α) : Option α :=
  if !t.isRunning || t.isTimeoutTriggered then none
  else if t.currentPhase.any Phase.counted then some (max 0 (t.timeout - t.getCountedTime now))
  else none

/-- The accumulators when the open interval is added to the one of the current phase. A phase that
starts at time zero is not added: the source tests the truth value of `phase_start_time`. -/
def closeInterval (t : PausableTimer α) (now : α) : Phase → α :=
  match t.currentPhase, t.phaseStartTime with
  | some p, some b =>
    if b = 0 then t.phaseTimes
    else Function.update t.phaseTimes p (t.phaseTimes p + (now - b))
  | _, _ => t.phaseTimes

/-- What `enter_phase` and `exit_phase` share: the open interval is closed and a new one begins. -/
def switch (t : PausableTimer α) (p : Phase) (now : α) : PausableTimer α :=
  { t with
    phaseTimes := t.closeInterval now
    currentPhase := some p
    phaseStartTime := some now }

/-- `enter_phase`; the second reading is that of the timeout check. -/
def enterPhase (t : PausableTimer α) (p : Phase) (now now' : α) : PausableTimer α :=
  if !t.isRunning then t
  else if p.counted then (t.switch p now).checkAndTriggerTimeout now'
  else t.switch p now

/-- `exit_phase`. -/
def exitPhase (t : PausableTimer α) (now : α) : PausableTimer α :=
  if !t.isRunning then t else t.switch .others now

/-- `is_expired`. -/
def isExpired (t : PausableTimer α) (now : α) : Bool :=
  decide (t.timeout ≤ t.getCountedTime now) || t.isTimeoutTriggered

/-- `get_timing_info`; the second reading is that of `get_counted_time`. -/
def getTimingInfo (t : PausableTimer α) (now now' : α) : TimingInfo α :=
  let times := if t.isRunning then t.closeInterval now else t.phaseTimes
  { initTime := times .init
    runTime := times .run
    evalTime := times .eval
    othersTime := times .others
    countedElapsed := t.getCountedTime now'
    timeoutTriggered := t.isTimeoutTriggered }

end PausableTimer

/-! ## Sequences of operations -/

/-- The operations, with their readings of the clock. -/
inductive TimerOp (α : Type*) where
  | start (now : α)
  | enter (p : Phase) (now now' : α)
  | exit (now : α)
  | check (now : α)
  | trigger

/-- The readings of an operation, in order. -/
def TimerOp.readings {α : Type*} : TimerOp α → List α
  | .start now | .exit now | .check now => [now]
  | .enter _ now now' => [now, now']
  | .trigger => []

namespace PausableTimer

variable {α : Type*} [AddCommGroup α] [LinearOrder α]

/-- One operation. -/
def apply (t : PausableTimer α) : TimerOp α → PausableTimer α
  | .start now => t.start now
  | .enter p now now' => t.enterPhase p now now'
  | .exit now => t.exitPhase now
  | .check now => t.checkAndTriggerTimeout now
  | .trigger => t.triggerTimeout

/-- A sequence of operations. -/
def run (t : PausableTimer α) (ops : List (TimerOp α)) : PausableTimer α := ops.foldl apply t

/-- The readings come from a positive nondecreasing clock. -/
def Clock (readings : List α) : Prop := readings.Pairwise (· ≤ ·) ∧ ∀ r ∈ readings, 0 < r

instance (readings : List α) : Decidable (Clock readings) := by
  unfold Clock; infer_instance

/-- All time that the accumulators hold. -/
def total (times : Phase → α) : α := times .init + times .run + times .eval + times .others

/-- **The invariant** of a timer that was started at `begin`: the open interval began at a positive
reading, and the accumulators hold the time before it. -/
structure Balanced (t : PausableTimer α) (begin : α) : Prop where
  running : t.isRunning = true
  started : t.startTime = some begin
  since : ∃ p b, t.currentPhase = some p ∧ t.phaseStartTime = some b ∧ 0 < b ∧
    total t.phaseTimes = b - begin

omit [LinearOrder α] in
/-- What is added to one accumulator is added to the total. -/
lemma total_update (times : Phase → α) (p : Phase) (d : α) :
    total (Function.update times p (times p + d)) = total times + d := by
  cases p <;> simp [total] <;> abel

omit [LinearOrder α] in
/-- What is added to one accumulator is added to the counted time if the phase counts. -/
lemma counted_update (times : Phase → α) (p : Phase) (d : α) :
    let times' := Function.update times p (times p + d)
    times' .init + times' .run + times' .eval =
      times .init + times .run + times .eval + if p.counted then d else 0 := by
  cases p <;> simp [Phase.counted] <;> abel

section Steps

variable {t : PausableTimer α} {begin : α}

/-- Closing the open interval accounts for all time since the start. -/
lemma Balanced.total_closeInterval (h : t.Balanced begin) (now : α) :
    total (t.closeInterval now) = now - begin := by
  obtain ⟨p, b, hp, hb, hpos, htotal⟩ := h.since
  simp only [closeInterval, hp, hb, if_neg hpos.ne']
  rw [total_update, htotal]
  abel

/-- The counted time is what the accumulators hold when the open interval is closed. -/
lemma Balanced.counted_closeInterval (h : t.Balanced begin) (now : α) :
    t.closeInterval now .init + t.closeInterval now .run + t.closeInterval now .eval =
      t.getCountedTime now := by
  obtain ⟨p, b, hp, hb, hpos, -⟩ := h.since
  simp only [closeInterval, getCountedTime, hp, hb, if_neg hpos.ne', h.running, Bool.true_and]
  rw [counted_update]
  split
  · rfl
  · exact add_zero _

/-- The timeout check changes only the flag. -/
lemma Balanced.check (h : t.Balanced begin) (now : α) :
    (t.checkAndTriggerTimeout now).Balanced begin := by
  unfold checkAndTriggerTimeout
  split
  · exact h
  · split
    · exact { h with }
    · exact h

/-- A new open interval, with the old one in its accumulator. -/
lemma Balanced.switch (h : t.Balanced begin) (p : Phase) {now : α} (hnow : 0 < now) :
    (t.switch p now).Balanced begin where
  running := h.running
  started := h.started
  since := ⟨p, now, rfl, rfl, hnow, h.total_closeInterval now⟩

/-- `enter_phase` of a timer that runs. -/
lemma Balanced.enterPhase_eq (h : t.Balanced begin) (p : Phase) (now now' : α) :
    t.enterPhase p now now' =
      if p.counted then (t.switch p now).checkAndTriggerTimeout now' else t.switch p now := by
  simp [enterPhase, h.running]

/-- `exit_phase` of a timer that runs. -/
lemma Balanced.exitPhase_eq (h : t.Balanced begin) (now : α) :
    t.exitPhase now = t.switch .others now := by
  simp [exitPhase, h.running]

/-- **An operation keeps the invariant.** -/
theorem balanced_apply {op : TimerOp α} (h : t.Balanced begin)
    (hpos : ∀ r ∈ op.readings, 0 < r) : (t.apply op).Balanced begin := by
  cases op with
  | start now =>
    simp only [apply, start, h.running, if_true]
    exact h
  | enter p now now' =>
    have hswitch := h.switch p (hpos now (by simp [TimerOp.readings]))
    rw [apply, h.enterPhase_eq]
    split
    · exact hswitch.check now'
    · exact hswitch
  | exit now =>
    rw [apply, h.exitPhase_eq]
    exact h.switch .others (hpos now (by simp [TimerOp.readings]))
  | check now => exact h.check now
  | trigger => exact { h with }

/-- **A sequence of operations keeps the invariant.** -/
theorem balanced_run {ops : List (TimerOp α)} (h : t.Balanced begin)
    (hpos : ∀ r ∈ ops.flatMap TimerOp.readings, 0 < r) : (t.run ops).Balanced begin := by
  induction ops generalizing t with
  | nil => exact h
  | cons op ops ih =>
    rw [List.flatMap_cons] at hpos
    have hop := balanced_apply h fun r hr => hpos r (List.mem_append_left _ hr)
    exact ih hop fun r hr => hpos r (List.mem_append_right _ hr)

/-- A timer that is started for the first time. -/
lemma balanced_start (timeout : α) (hbegin : 0 < begin) :
    ((new timeout).start begin).Balanced begin :=
  ⟨rfl, rfl, .others, begin, rfl, rfl, hbegin, by simp [new, start, total]⟩

/-- The counted time after the current phase has changed. -/
lemma Balanced.getCountedTime_switch (h : t.Balanced begin) (p : Phase) (now u : α) :
    (t.switch p now).getCountedTime u =
      t.getCountedTime now + if p.counted then u - now else 0 := by
  have hswitch : (t.switch p now).getCountedTime u =
      if t.isRunning && p.counted then
        t.closeInterval now .init + t.closeInterval now .run + t.closeInterval now .eval + (u - now)
      else t.closeInterval now .init + t.closeInterval now .run + t.closeInterval now .eval := rfl
  rw [hswitch, h.running, Bool.true_and, h.counted_closeInterval now]
  split
  · rfl
  · exact (add_zero _).symm

/-- The counted time grows with the clock in a phase that counts. -/
lemma Balanced.getCountedTime_later (h : t.Balanced begin) (now now' : α) :
    t.getCountedTime now' =
      t.getCountedTime now + if t.currentPhase.any Phase.counted then now' - now else 0 := by
  obtain ⟨p, b, hp, hb, -⟩ := h.since
  simp only [getCountedTime, hp, hb, h.running, Bool.true_and, Option.any_some]
  split
  · abel
  · exact (add_zero _).symm

/-- The timeout check does not change the counted time. -/
lemma getCountedTime_check (t : PausableTimer α) (now u : α) :
    (t.checkAndTriggerTimeout now).getCountedTime u = t.getCountedTime u := by
  unfold checkAndTriggerTimeout
  split
  · rfl
  · split <;> rfl

/-- Why the flag is set after a timeout check. -/
lemma triggered_of_check {now : α} (h : (t.checkAndTriggerTimeout now).isTimeoutTriggered = true) :
    t.isTimeoutTriggered = true ∨ t.timeout ≤ t.getCountedTime now := by
  unfold checkAndTriggerTimeout at h
  split at h
  · exact .inl h
  · split at h
    · exact .inr ‹_›
    · exact .inl h

/-- The flag is never taken back. -/
lemma isTimeoutTriggered_apply (op : TimerOp α) (h : t.isTimeoutTriggered = true) :
    (t.apply op).isTimeoutTriggered = true := by
  cases op with
  | start now =>
    simp only [apply, start]
    split <;> exact h
  | enter p now now' =>
    have hcheck : ((t.switch p now).checkAndTriggerTimeout now').isTimeoutTriggered = true := by
      rw [checkAndTriggerTimeout, if_pos (show (t.switch p now).isTimeoutTriggered = true from h)]
      exact h
    simp only [apply, enterPhase]
    split
    · exact h
    · split
      · exact hcheck
      · exact h
  | exit now =>
    simp only [apply, exitPhase]
    split <;> exact h
  | check now =>
    simp only [apply, checkAndTriggerTimeout, h, if_true]
  | trigger => rfl

lemma isTimeoutTriggered_run (ops : List (TimerOp α)) (h : t.isTimeoutTriggered = true) :
    (t.run ops).isTimeoutTriggered = true := by
  induction ops generalizing t with
  | nil => exact h
  | cons op ops ih => exact ih (isTimeoutTriggered_apply op h)

/-- `timeout` is never changed. -/
lemma timeout_apply (t : PausableTimer α) (op : TimerOp α) : (t.apply op).timeout = t.timeout := by
  have hcheck : ∀ (t : PausableTimer α) now,
      (t.checkAndTriggerTimeout now).timeout = t.timeout := by
    intro t now
    unfold checkAndTriggerTimeout
    split
    · rfl
    · split <;> rfl
  cases op with
  | start now =>
    simp only [apply, start]
    split <;> rfl
  | enter p now now' =>
    simp only [apply, enterPhase]
    split
    · rfl
    · split
      · rw [hcheck]
        rfl
      · rfl
  | exit now =>
    simp only [apply, exitPhase]
    split <;> rfl
  | check now => exact hcheck t now
  | trigger => rfl

lemma timeout_run (t : PausableTimer α) (ops : List (TimerOp α)) :
    (t.run ops).timeout = t.timeout := by
  induction ops generalizing t with
  | nil => rfl
  | cons op ops ih => exact (ih (t.apply op)).trans (timeout_apply t op)

end Steps

/-- A positive remaining timeout is what the counted time leaves of the timeout. -/
lemma add_getCountedTime_of_pos {t : PausableTimer α} {now r : α}
    (hr : t.getRemainingTimeout now = some r) (hpos : 0 < r) :
    r + t.getCountedTime now = t.timeout := by
  unfold getRemainingTimeout at hr
  split at hr
  · cases hr
  · split at hr
    · obtain rfl := Option.some.inj hr
      have hmax : max 0 (t.timeout - t.getCountedTime now) = t.timeout - t.getCountedTime now := by
        rcases le_total 0 (t.timeout - t.getCountedTime now) with hle | hle
        · exact max_eq_right hle
        · rw [max_eq_left hle] at hpos
          exact absurd hpos (lt_irrefl 0)
      rw [hmax]
      abel
    · cases hr

section Conservation

variable [IsOrderedAddMonoid α]

/-- The counted time does not shrink. -/
lemma Balanced.getCountedTime_mono {t : PausableTimer α} {begin now now' : α}
    (h : t.Balanced begin) (hle : now ≤ now') : t.getCountedTime now ≤ t.getCountedTime now' := by
  rw [h.getCountedTime_later now now']
  apply le_add_of_nonneg_right
  split
  · exact sub_nonneg.mpr hle
  · exact le_refl 0

/-- A phase that counts is entered with a counted time that has reached the timeout. -/
lemma Balanced.isTimeoutTriggered_enterPhase {t : PausableTimer α} {begin now now' : α} {p : Phase}
    (h : t.Balanced begin) (hp : p.counted = true) (hle : now ≤ now')
    (hcounted : t.timeout ≤ t.getCountedTime now) :
    (t.enterPhase p now now').isTimeoutTriggered = true := by
  rw [h.enterPhase_eq, if_pos hp]
  unfold checkAndTriggerTimeout
  split
  · assumption
  · have hreached : (t.switch p now).timeout ≤ (t.switch p now).getCountedTime now' := by
      rw [h.getCountedTime_switch, if_pos hp]
      exact hcounted.trans (le_add_of_nonneg_right (sub_nonneg.mpr hle))
    rw [if_pos hreached]
    rfl

/-- **Time is conserved**: after every sequence of operations on a started timer, with readings from
a positive nondecreasing clock, `get_timing_info` accounts for all time since the start and its
counted time is that of the three phases, apart from what passes between its own two readings while
a phase counts; a positive remaining timeout and the counted time make up the timeout; and the flag
stays set, and is set when a phase that counts is entered with the timeout reached. -/
theorem conserved (timeout begin now now' : α) (ops : List (TimerOp α))
    (hclock : Clock (begin :: ops.flatMap TimerOp.readings ++ [now, now'])) :
    let t := ((new timeout).start begin).run ops
    let info := t.getTimingInfo now now'
    info.initTime + info.runTime + info.evalTime + info.othersTime = now - begin ∧
    info.countedElapsed = info.initTime + info.runTime + info.evalTime +
      (if t.currentPhase.any Phase.counted then now' - now else 0) ∧
    (∀ r, t.getRemainingTimeout now = some r → 0 < r → r + t.getCountedTime now = timeout) ∧
    (t.isTimeoutTriggered = true →
      ∀ later, (t.run later).isTimeoutTriggered = true) ∧
    (∀ p : Phase, p.counted = true → timeout ≤ t.getCountedTime now →
      ∀ later, ((t.enterPhase p now now').run later).isTimeoutTriggered = true) := by
  intro t info
  have hpos := hclock.2
  have hbal : t.Balanced begin :=
    balanced_run (balanced_start timeout (hpos begin (by simp)))
      fun r hr => hpos r (by simp [hr])
  have hle : now ≤ now' := by
    have hsorted := (List.pairwise_append.mp hclock.1).2.1
    exact (List.pairwise_cons.mp hsorted).1 now' (by simp)
  have htimeout : t.timeout = timeout := timeout_run _ ops
  have hinfo : info = {
      initTime := t.closeInterval now .init
      runTime := t.closeInterval now .run
      evalTime := t.closeInterval now .eval
      othersTime := t.closeInterval now .others
      countedElapsed := t.getCountedTime now'
      timeoutTriggered := t.isTimeoutTriggered } := by
    simp only [info, getTimingInfo, hbal.running, if_true]
  rw [hinfo]
  refine ⟨hbal.total_closeInterval now, ?_, fun r hr hrpos => ?_, fun h later => ?_, ?_⟩
  · rw [hbal.counted_closeInterval now]
    exact hbal.getCountedTime_later now now'
  · rw [← htimeout]
    exact add_getCountedTime_of_pos hr hrpos
  · exact isTimeoutTriggered_run later h
  · intro p hp hreached later
    exact isTimeoutTriggered_run later
      (hbal.isTimeoutTriggered_enterPhase hp hle (htimeout ▸ hreached))

end Conservation

/-- A run phase from `2` to `5`, seen at `6`. -/
theorem conserved_oneRun :
    Clock ((1 : ℤ) :: [TimerOp.enter .run 2 3, TimerOp.exit 5].flatMap TimerOp.readings ++ [6, 7]) ∧
      let t := ((new 10).start 1).run [TimerOp.enter .run 2 3, TimerOp.exit (5 : ℤ)]
      let info := t.getTimingInfo 6 7
      info.initTime + info.runTime + info.evalTime + info.othersTime = 6 - 1 ∧
        info.countedElapsed = 3 := by
  refine ⟨by decide, ?_⟩
  have h := conserved (10 : ℤ) 1 6 7 [.enter .run 2 3, .exit 5] (by decide)
  exact ⟨h.1, by decide⟩

/-- `get_timing_info` reads the clock twice: in a run phase that began at `2`, with the readings `3`
and `4`, the phases add up to `1` and the counted time is `2`. -/
theorem not_countedElapsed_eq :
    ¬ ∀ (timeout begin now now' : ℤ) (ops : List (TimerOp ℤ)),
      Clock (begin :: ops.flatMap TimerOp.readings ++ [now, now']) →
      let info := (((new timeout).start begin).run ops).getTimingInfo now now'
      info.countedElapsed = info.initTime + info.runTime + info.evalTime := by
  intro h
  have := h 10 1 3 4 [.enter .run 2 2] (by decide)
  exact absurd this (by decide)

end PausableTimer

end ProRLAgent
