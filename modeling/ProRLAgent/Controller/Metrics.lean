import Mathlib.Algebra.Group.Nat.Defs
import ProRLAgent.Controller.AgentController

set_option relaxedAutoImplicit false
set_option autoImplicit false

/-!
# The cost of a controller's LLM calls

The accumulated cost of `state.metrics` after `close` should be the cost of the LLM calls that were
made. The counter of the agent's LLM is merged into it in two ways: a change to STOPPED or ERROR
merges the counter and resets it, and a finish or reject action, or an error observation in state
ERROR, merges the copy `local_metrics` and resets nothing. So a finish action followed by a change
to STOPPED counts the same calls twice.

The count is right in the runs that keep the two ways apart: no copy with a cost is merged, and the
run is closed with a change to STOPPED; or the last merge is that of a finish or reject action, the
copy is up to date, nothing is spent after it, and no change to STOPPED or ERROR follows.

## Main definitions

* `ProRLAgent.Booked` — the change of the accounts in an operation without a merged copy.
* `ProRLAgent.ControllerOp.Safe` — the condition on an operation.
* `ProRLAgent.CountedRun` — the runs of safe operations.

## Main results

* `ProRLAgent.ControllerOp.Safe.booked` — the accounts after a safe operation.
* `ProRLAgent.metrics_close` — the accumulated cost after `close` is the cost of the LLM calls.
-/

namespace ProRLAgent

variable {Cost : Type} [AddCommMonoid Cost]

/-! ## Accounts -/

/-- Calls with cost `x` are on the counter of the LLM. -/
structure Kept (x : Cost) (c c' : AgentController Cost) : Prop where
  metrics : c'.metrics = c.metrics
  llmMetrics : c'.llmMetrics = c.llmMetrics + x
  spent : c'.spent = c.spent + x

/-- Calls with cost `x` are merged with all others on the counter, which is reset. -/
structure Synced (x : Cost) (c c' : AgentController Cost) : Prop where
  agentState : c'.agentState = .stopped ∨ c'.agentState = .error
  metrics : c'.metrics = c.metrics + (c.llmMetrics + x)
  llmMetrics : c'.llmMetrics = 0
  spent : c'.spent = c.spent + x

/-- The accounts after calls with cost `x`. -/
def Booked (x : Cost) (c c' : AgentController Cost) : Prop := Kept x c c' ∨ Synced x c c'

/-- Equal accounts. -/
lemma Kept.of_eq {c c' : AgentController Cost} (hmetrics : c'.metrics = c.metrics)
    (hllm : c'.llmMetrics = c.llmMetrics) (hspent : c'.spent = c.spent) : Kept 0 c c' :=
  ⟨hmetrics, by rw [hllm, add_zero], by rw [hspent, add_zero]⟩

lemma Kept.refl (c : AgentController Cost) : Kept 0 c c := .of_eq rfl rfl rfl

lemma Booked.refl (c : AgentController Cost) : Booked 0 c c := .inl (.refl c)

lemma Kept.trans {x y : Cost} {c₁ c₂ c₃ : AgentController Cost} (h : Kept x c₁ c₂)
    (h' : Kept y c₂ c₃) : Kept (x + y) c₁ c₃ :=
  ⟨h'.metrics.trans h.metrics, by rw [h'.llmMetrics, h.llmMetrics, add_assoc],
    by rw [h'.spent, h.spent, add_assoc]⟩

lemma Kept.trans_zero {c₁ c₂ c₃ : AgentController Cost} (h : Kept 0 c₁ c₂) (h' : Kept 0 c₂ c₃) :
    Kept 0 c₁ c₃ := by
  simpa only [add_zero] using h.trans h'

/-- Calls on the counter, and then an operation. -/
lemma Kept.booked {x y : Cost} {c₁ c₂ c₃ : AgentController Cost} (h : Kept x c₁ c₂)
    (h' : Booked y c₂ c₃) : Booked (x + y) c₁ c₃ := by
  rcases h' with hkept | hsynced
  · exact .inl (h.trans hkept)
  · refine .inr ⟨hsynced.agentState, ?_, hsynced.llmMetrics, ?_⟩
    · rw [hsynced.metrics, h.metrics, h.llmMetrics, add_assoc]
    · rw [hsynced.spent, h.spent, add_assoc]

/-- Equal accounts, and then an operation. -/
lemma Kept.booked_of_zero {x : Cost} {c₁ c₂ c₃ : AgentController Cost} (h : Kept 0 c₁ c₂)
    (h' : Booked x c₂ c₃) : Booked x c₁ c₃ := by
  simpa only [zero_add] using h.booked h'

namespace AgentController

/-- The calls of the agent's step are on the counter, if the condenser has no costs. -/
lemma kept_callAgent (c : AgentController Cost) {around : Surroundings Cost}
    (hcondenser : around.condenserCosts.sum = 0) :
    Kept around.costs.sum c (c.callAgent around) :=
  ⟨rfl, rfl, by simp only [callAgent, hcondenser, add_zero]⟩

/-- A merged copy without a cost keeps the accounts. -/
lemma kept_mergeLocalMetrics {c : AgentController Cost} (h : c.localMetrics = 0) :
    Kept 0 c c.mergeLocalMetrics :=
  .of_eq (by simp only [mergeLocalMetrics, h, add_zero]) rfl rfl

lemma kept_mergeObserved (c : AgentController Cost) (llmMetrics : Option Cost) :
    Kept (llmMetrics.getD 0) c (c.mergeObserved llmMetrics) := by
  cases llmMetrics with
  | none => exact .refl c
  | some cost => exact ⟨rfl, rfl, rfl⟩

variable [LinearOrder Cost]

/-! ## The accounts in a change of the state -/

/-- A change to ERROR keeps the state of the traffic control. -/
lemma trafficControlState_setAgentStateTo_error (c : AgentController Cost) (newId : ℤ) :
    (c.setAgentStateTo .error newId).trafficControlState = c.trafficControlState := by
  rw [setAgentStateTo]
  split
  · rfl
  · rw [if_pos (.inr rfl)]
    rfl

/-- A change to a state other than STOPPED and ERROR keeps the accounts. -/
lemma kept_setAgentStateTo (c : AgentController Cost) (newState : AgentState) (newId : ℤ)
    (h : ¬ (newState = .stopped ∨ newState = .error)) :
    Kept 0 c (c.setAgentStateTo newState newId) := by
  rw [setAgentStateTo, if_neg h]
  split_ifs <;> exact .of_eq rfl rfl rfl

/-- The accounts in a change of the state. -/
lemma booked_setAgentStateTo (c : AgentController Cost) (newState : AgentState) (newId : ℤ) :
    Booked 0 c (c.setAgentStateTo newState newId) := by
  by_cases hsync : newState = .stopped ∨ newState = .error
  · by_cases hsame : newState = c.agentState
    · rw [setAgentStateTo, if_pos hsame]
      exact .refl c
    · rw [setAgentStateTo, if_neg hsame, if_pos hsync]
      refine .inr ⟨hsync, ?_, rfl, (add_zero _).symm⟩
      rw [add_zero]
      rfl
  · exact .inl (c.kept_setAgentStateTo newState newId hsync)

lemma booked_reactToException (c : AgentController Cost) (failure : Failure) (newId : ℤ) :
    Booked 0 c (c.reactToException failure newId) := by
  rw [reactToException]
  split_ifs
  · exact c.booked_setAgentStateTo _ newId
  · exact c.booked_setAgentStateTo _ newId

/-! ## The accounts in a step -/

/-- The traffic control stops the step with a change to ERROR, or lets it go on. -/
lemma handleTrafficControl_cases (c : AgentController Cost) (newId : ℤ) :
    ((c.handleTrafficControl newId).1 = true ∧
      (c.handleTrafficControl newId).2.agentState = .error ∧
      (c.handleTrafficControl newId).2.trafficControlState = .throttling ∧
      Booked 0 c (c.handleTrafficControl newId).2) ∨
    ((c.handleTrafficControl newId).1 = false ∧ Kept 0 c (c.handleTrafficControl newId).2) := by
  by_cases hpaused : c.trafficControlState = .paused
  · rw [handleTrafficControl, if_pos hpaused]
    exact .inr ⟨rfl, .of_eq rfl rfl rfl⟩
  · have hthrottling : Kept 0 c { c with trafficControlState := .throttling } :=
      .of_eq rfl rfl rfl
    rw [handleTrafficControl, if_neg hpaused, reactToException, if_neg (by simp)]
    exact .inl ⟨rfl, agentState_setAgentStateTo _ _ _,
      trafficControlState_setAgentStateTo_error _ _,
      hthrottling.booked_of_zero (booked_setAgentStateTo _ _ _)⟩

/-- The traffic control has nothing to do for an agent that it stopped before. -/
lemma handleTrafficControl_of_error {c : AgentController Cost} (newId : ℤ)
    (hstate : c.agentState = .error) (htraffic : c.trafficControlState = .throttling) :
    c.handleTrafficControl newId = (true, c) := by
  have hsame : { c with trafficControlState := .throttling } = c := by rw [← htraffic]
  rw [handleTrafficControl, if_neg (by simp [htraffic]), hsame, reactToException,
    if_neg (by simp), setAgentStateTo, if_pos hstate.symm]

/-- The two checks before a step stop it, or leave the accounts as they are. -/
lemma checks_cases (c : AgentController Cost) (newId : ℤ) :
    let iterations := c.checkIteration newId
    let budget := iterations.2.checkBudget iterations.1 newId
    (budget.1 = true ∧ Booked 0 c budget.2) ∨ (budget.1 = false ∧ Kept 0 c budget.2) := by
  intro iterations budget
  -- The second check, behind a first one that lets the step go on.
  have hsecond : Kept 0 c iterations.2 → iterations.1 = false →
      (budget.1 = true ∧ Booked 0 c budget.2) ∨ (budget.1 = false ∧ Kept 0 c budget.2) := by
    intro hkept hgo
    simp only [budget, checkBudget]
    split
    · split_ifs
      · rcases handleTrafficControl_cases iterations.2 newId with
          ⟨hstop, -, -, hbooked⟩ | ⟨hgo', hkept'⟩
        · exact .inl ⟨hstop, hkept.booked_of_zero hbooked⟩
        · exact .inr ⟨hgo', by simpa only [add_zero] using hkept.trans hkept'⟩
      · exact .inr ⟨hgo, hkept⟩
    · exact .inr ⟨hgo, hkept⟩
  by_cases hlimit : c.maxIterations ≤ c.iteration
  · have hiterations : iterations = c.handleTrafficControl newId := if_pos hlimit
    rcases handleTrafficControl_cases c newId with ⟨hstop, hstate, htraffic, hbooked⟩ | ⟨hgo, hkept⟩
    · rw [← hiterations] at hstop hstate htraffic hbooked
      have hbudget : budget = (true, iterations.2) := by
        simp only [budget, checkBudget, handleTrafficControl_of_error newId hstate htraffic, hstop]
        split <;> simp
      exact .inl ⟨by rw [hbudget], by rw [hbudget]; exact hbooked⟩
    · rw [← hiterations] at hgo hkept
      exact hsecond hkept hgo
  · have hiterations : iterations = (false, c) := if_neg hlimit
    exact hsecond (by rw [hiterations]; exact .refl c) (by rw [hiterations])

lemma kept_takeAction (c : AgentController Cost) (action : NewAction) (newId : ℤ) :
    Kept 0 c (c.takeAction action newId) := by
  have hpending : Kept 0 c
      (if action.runnable then { c with pendingAction := some newId } else c) := by
    split_ifs <;> exact .of_eq rfl rfl rfl
  have hupdate : ∀ d : AgentController Cost, Kept 0 d d.updateStateAfterStep :=
    fun d => .of_eq rfl rfl rfl
  have hawaiting := kept_setAgentStateTo
    (if action.runnable then { c with pendingAction := some newId } else c)
    .awaitingUserConfirmation newId (by decide)
  simp only [takeAction]
  split
  · simpa only [add_zero] using (hpending.trans hawaiting).trans (hupdate _)
  · simpa only [add_zero] using hpending.trans (hupdate _)

lemma booked_afterAgent (c : AgentController Cost) (around : Surroundings Cost) :
    Booked 0 c (c.afterAgent around) := by
  rw [afterAgent]
  split
  · exact .inl (c.kept_takeAction _ _)
  · exact .refl c
  · split_ifs
    · exact .refl c
    · exact c.booked_reactToException _ _
  · exact c.booked_reactToException _ _

/-- **The accounts in a step**: it makes the calls of the agent's step, or none. -/
theorem booked_step (c : AgentController Cost) {around : Surroundings Cost}
    (hcondenser : around.condenserCosts.sum = 0) :
    ∃ x, (x = 0 ∨ x = around.costs.sum) ∧ Booked x c (c.step around) := by
  rw [step]
  by_cases hrunning : c.agentState = .running
  · by_cases hpending : c.pendingAction.isSome
    · rw [if_neg (not_not.mpr hrunning), if_pos hpending]
      exact ⟨0, .inl rfl, .refl c⟩
    · rw [if_neg (not_not.mpr hrunning), if_neg hpending]
      rcases c.checks_cases around.newId with ⟨hstop, hbooked⟩ | ⟨hgo, hkept⟩
      · simp only [hstop, if_true]
        exact ⟨0, .inl rfl, hbooked⟩
      · simp only [hgo, Bool.false_eq_true, if_false]
        split
        · exact ⟨0, .inl rfl, hkept.booked_of_zero (booked_reactToException _ _ _)⟩
        · refine ⟨around.costs.sum, .inr rfl, hkept.booked_of_zero ?_⟩
          simpa only [add_zero] using
            (kept_callAgent _ hcondenser).booked (booked_afterAgent _ around)
  · rw [if_pos hrunning]
    exact ⟨0, .inl rfl, .refl c⟩

/-! ## The accounts in an event -/

/-- A change to a state other than STOPPED and ERROR, behind a check. -/
lemma kept_ite_setAgentStateTo (c : AgentController Cost) (p : Prop) [Decidable p]
    (newState : AgentState) (newId : ℤ) (h : ¬ (newState = .stopped ∨ newState = .error)) :
    Kept 0 c (if p then c.setAgentStateTo newState newId else c) := by
  split_ifs
  · exact c.kept_setAgentStateTo newState newId h
  · exact .refl c

lemma kept_handleUserMessage (c : AgentController Cost) (newId : ℤ) :
    Kept 0 c (c.handleUserMessage newId) := by
  have hpending : Kept 0 c { c.extendIterations with pendingAction := some newId } := by
    rw [extendIterations]
    split_ifs <;> exact .of_eq rfl rfl rfl
  exact hpending.trans_zero (kept_ite_setAgentStateTo _ _ .running newId (by decide))

lemma kept_resolvePending (c : AgentController Cost) (newId : ℤ) :
    Kept 0 c (c.resolvePending newId) := by
  have hpending : Kept 0 c { c with pendingAction := none } := .of_eq rfl rfl rfl
  rw [resolvePending]
  split
  · exact .refl c
  · exact (hpending.trans_zero (kept_ite_setAgentStateTo _ _ .running newId (by decide))).trans_zero
      (kept_ite_setAgentStateTo _ _ .awaitingUserInput newId (by decide))

/-- An action keeps the accounts, apart from a change of the state. -/
lemma kept_handleAction (c : AgentController Cost) (newId : ℤ) {action : ControllerAction}
    (hchange : ∀ newState, action ≠ .changeAgentState newState)
    (hmerge : action = .finish ∨ action = .reject → c.localMetrics = 0) :
    Kept 0 c (c.handleAction newId action) := by
  cases action with
  | changeAgentState newState => exact absurd rfl (hchange newState)
  | message source waitForResponse =>
    rcases source with - | source
    · exact .refl c
    cases source with
    | user => exact c.kept_handleUserMessage newId
    | agent =>
      cases waitForResponse with
      | true => exact c.kept_setAgentStateTo .awaitingUserInput newId (by decide)
      | false => exact .refl c
    | environment => exact .refl c
  | delegate hasTask enableHistoryTruncation => exact .of_eq rfl rfl rfl
  | finish =>
    exact (kept_mergeLocalMetrics (hmerge (.inl rfl))).trans_zero
      (kept_setAgentStateTo _ .finished newId (by decide))
  | reject =>
    exact (kept_mergeLocalMetrics (hmerge (.inr rfl))).trans_zero
      (kept_setAgentStateTo _ .rejected newId (by decide))
  | condensation => exact .refl c
  | other => exact .refl c

/-- An observation keeps the accounts, with its own metrics on the counter. -/
lemma kept_handleObservation (c : AgentController Cost) {kind : ObservationKind}
    {cause : Option ℤ} (llmMetrics : Option Cost) (newId : ℤ)
    (hmerge : kind = .error → ¬ (c.pendingAction.isSome ∧ c.pendingAction = cause) →
      c.agentState = .error → c.localMetrics = 0) :
    Kept (llmMetrics.getD 0) c (c.handleObservation kind cause llmMetrics newId) := by
  have hobserved := c.kept_mergeObserved llmMetrics
  have hfields : (c.mergeObserved llmMetrics).pendingAction = c.pendingAction ∧
      (c.mergeObserved llmMetrics).agentState = c.agentState ∧
      (c.mergeObserved llmMetrics).localMetrics = c.localMetrics := by
    cases llmMetrics <;> exact ⟨rfl, rfl, rfl⟩
  simp only [handleObservation]
  split
  · simpa only [add_zero] using hobserved.trans (kept_resolvePending _ newId)
  · rename_i hpending
    split
    · rename_i herror
      have hzero : (c.mergeObserved llmMetrics).localMetrics = 0 := by
        rw [hfields.2.2]
        exact hmerge herror.1 (by rwa [hfields.1] at hpending) (by rw [← hfields.2.1, herror.2])
      simpa only [add_zero] using hobserved.trans (kept_mergeLocalMetrics hzero)
    · exact hobserved

/-- A step behind a check. -/
lemma booked_ite_step (c : AgentController Cost) (p : Prop) [Decidable p]
    {around : Surroundings Cost} (hcondenser : around.condenserCosts.sum = 0) :
    ∃ x, (around.costs.sum = 0 → x = 0) ∧ Booked x c (if p then c.step around else c) := by
  split_ifs
  · obtain ⟨x, hx, hbooked⟩ := c.booked_step hcondenser
    refine ⟨x, fun hfree => ?_, hbooked⟩
    rcases hx with rfl | rfl
    · rfl
    · exact hfree
  · exact ⟨0, fun _ => rfl, .refl c⟩

end AgentController

/-! ## Safe operations -/

namespace ControllerOp

/-- The agent gets a delegate. -/
def Delegates : ControllerOp Cost → Prop
  | .event (.action false (.delegate _ _)) => True
  | _ => False

/-- A finish or reject action. -/
def Finishes : ControllerOp Cost → Prop
  | .event (.action false .finish) => True
  | .event (.action false .reject) => True
  | _ => False

/-- An error observation in state ERROR, which is not that of the pending action. -/
def RepeatsError (c : AgentController Cost) : ControllerOp Cost → Prop
  | .event (.observation false .error cause _) =>
    ¬ (c.pendingAction.isSome ∧ c.pendingAction = cause) ∧ c.agentState = .error
  | _ => False

/-- Nothing is spent. -/
def Free (around : Surroundings Cost) : ControllerOp Cost → Prop
  | .event (.observation _ _ _ llmMetrics) => around.costs.sum = 0 ∧ llmMetrics.getD 0 = 0
  | _ => around.costs.sum = 0

variable [LinearOrder Cost]

/-- **Safe operations**. If all calls so far are counted, but still on the counter of the LLM, then
nothing is spent, and the agent does not come to STOPPED or ERROR. -/
structure Safe (counted : Bool) (c : AgentController Cost) (around : Surroundings Cost)
    (op : ControllerOp Cost) : Prop where
  noDelegate : ¬ op.Delegates
  condenser : around.condenserCosts.sum = 0
  noMerge : op.Finishes ∨ op.RepeatsError c → c.localMetrics = 0
  quiet : counted = true → op.Free around ∧
    ¬ ((op.apply c around).agentState = .stopped ∨ (op.apply c around).agentState = .error)

end ControllerOp

/-- The controllers of the runs of safe operations. All calls are counted and still on the counter
after a finish or reject action that merges an up-to-date copy. -/
inductive CountedRun [LinearOrder Cost] : AgentController Cost → Bool → Prop
  | init (config : ControllerConfig Cost) : CountedRun (.new config) false
  | step {c : AgentController Cost} {counted : Bool} (h : CountedRun c counted)
      (op : ControllerOp Cost) (around : Surroundings Cost) (hsafe : op.Safe counted c around) :
      CountedRun (op.apply c around) counted
  | finish {c : AgentController Cost} (h : CountedRun c false) (op : ControllerOp Cost)
      (around : Surroundings Cost) (hfinish : op.Finishes)
      (hlocal : c.localMetrics = c.llmMetrics) : CountedRun (op.apply c around) true

/-- A `close` that leaves nothing on the counter, or finds all of it counted. -/
def ClosesCounted (counted : Bool) (c : AgentController Cost) (setStopState : Bool) : Prop :=
  c.llmMetrics = 0 ∨ (counted = true ∧ setStopState = false) ∨
    (counted = false ∧ setStopState = true ∧ c.agentState ≠ .stopped)

/-! ## The count -/

variable [LinearOrder Cost]

/-- The accounts after an event. -/
lemma ControllerOp.Safe.booked_event {counted : Bool} {c : AgentController Cost}
    {around : Surroundings Cost} {event : ControllerEvent Cost}
    (h : (ControllerOp.event event).Safe counted c around) :
    ∃ x, ((ControllerOp.event event).Free around → x = 0) ∧
      Booked x c (c.onEvent event around) := by
  rw [AgentController.onEvent]
  by_cases hhidden : event.hidden
  · rw [if_pos hhidden]
    exact ⟨0, fun _ => rfl, .refl c⟩
  rw [if_neg hhidden]
  obtain ⟨x, hx, hstep⟩ := AgentController.booked_ite_step (c.handleEvent around.newId event)
    ((c.handleEvent around.newId event).shouldStep event = true) h.condenser
  cases event with
  | action hidden action =>
    obtain rfl : hidden = false := by simpa [ControllerEvent.hidden] using hhidden
    by_cases hchange : ∃ newState, action = .changeAgentState newState
    · obtain ⟨newState, rfl⟩ := hchange
      refine ⟨0, fun _ => rfl, ?_⟩
      simpa [AgentController.shouldStep, AgentController.handleEvent,
        AgentController.handleAction] using c.booked_setAgentStateTo newState around.newId
    · refine ⟨x, hx, Kept.booked_of_zero ?_ hstep⟩
      refine c.kept_handleAction around.newId (fun newState hstate => hchange ⟨newState, hstate⟩) ?_
      rintro (rfl | rfl)
      · exact h.noMerge (.inl trivial)
      · exact h.noMerge (.inl trivial)
  | observation hidden kind cause llmMetrics =>
    obtain rfl : hidden = false := by simpa [ControllerEvent.hidden] using hhidden
    refine ⟨llmMetrics.getD 0 + x, fun hfree => ?_, Kept.booked ?_ hstep⟩
    · rw [hfree.2, hx hfree.1, add_zero]
    · refine c.kept_handleObservation llmMetrics around.newId ?_
      rintro rfl hpending hstate
      exact h.noMerge (.inr ⟨hpending, hstate⟩)

/-- **The accounts after a safe operation.** -/
theorem ControllerOp.Safe.booked {counted : Bool} {c : AgentController Cost}
    {around : Surroundings Cost} {op : ControllerOp Cost} (h : op.Safe counted c around) :
    ∃ x, (op.Free around → x = 0) ∧ Booked x c (op.apply c around) := by
  cases op with
  | setAgentStateTo newState =>
    exact ⟨0, fun _ => rfl, c.booked_setAgentStateTo newState around.newId⟩
  | event e => exact h.booked_event
  | step =>
    obtain ⟨x, hx, hbooked⟩ := c.booked_ite_step True h.condenser
    rw [if_pos trivial] at hbooked
    exact ⟨x, hx, hbooked⟩
  | close setStopState =>
    refine ⟨0, fun _ => rfl, ?_⟩
    cases setStopState with
    | false => exact .refl c
    | true => exact c.booked_setAgentStateTo .stopped around.newId

/-- The invariant of a run: what is spent is counted, with or without the counter of the LLM. -/
def Counted (c : AgentController Cost) : Bool → Prop
  | false => c.metrics + c.llmMetrics = c.spent
  | true => c.metrics = c.spent ∧ ¬ (c.agentState = .stopped ∨ c.agentState = .error)

/-- A safe operation keeps the count. -/
lemma Counted.apply {counted : Bool} {c : AgentController Cost} {around : Surroundings Cost}
    {op : ControllerOp Cost} (h : Counted c counted) (hsafe : op.Safe counted c around) :
    Counted (op.apply c around) counted := by
  obtain ⟨x, hx, hbooked⟩ := hsafe.booked
  cases counted with
  | false =>
    have hc : c.metrics + c.llmMetrics = c.spent := h
    show (op.apply c around).metrics + (op.apply c around).llmMetrics = (op.apply c around).spent
    rcases hbooked with hkept | hsynced
    · rw [hkept.metrics, hkept.llmMetrics, hkept.spent, ← add_assoc, hc]
    · rw [hsynced.metrics, hsynced.llmMetrics, hsynced.spent, add_zero, ← add_assoc, hc]
  | true =>
    obtain ⟨hfree, hstate⟩ := hsafe.quiet rfl
    rcases hbooked with hkept | hsynced
    · refine ⟨?_, hstate⟩
      rw [hkept.metrics, hkept.spent, hx hfree, add_zero, h.1]
    · exact absurd hsynced.agentState hstate

/-- A finish or reject action counts what is on the counter, if the copy is up to date. -/
lemma Counted.finish {c : AgentController Cost} {around : Surroundings Cost}
    {op : ControllerOp Cost} (h : Counted c false) (hfinish : op.Finishes)
    (hlocal : c.localMetrics = c.llmMetrics) : Counted (op.apply c around) true := by
  have hmerge : ∀ newState : AgentState, ¬ (newState = .stopped ∨ newState = .error) →
      Counted (c.mergeLocalMetrics.setAgentStateTo newState around.newId) true := by
    intro newState hstate
    have hkept := c.mergeLocalMetrics.kept_setAgentStateTo newState around.newId hstate
    refine ⟨?_, by rwa [AgentController.agentState_setAgentStateTo]⟩
    rw [hkept.metrics, hkept.spent, add_zero]
    exact (congrArg (c.metrics + ·) hlocal).trans h
  rw [ControllerOp.Finishes.eq_def] at hfinish
  split at hfinish
  · simpa [ControllerOp.apply, AgentController.onEvent, AgentController.shouldStep,
      AgentController.handleEvent, AgentController.handleAction, ControllerEvent.hidden]
      using hmerge .finished (by decide)
  · simpa [ControllerOp.apply, AgentController.onEvent, AgentController.shouldStep,
      AgentController.handleEvent, AgentController.handleAction, ControllerEvent.hidden]
      using hmerge .rejected (by decide)
  · exact hfinish.elim

/-- The count is right in all runs of safe operations. -/
lemma CountedRun.counted {c : AgentController Cost} {counted : Bool} (h : CountedRun c counted) :
    Counted c counted := by
  induction h with
  | init config => exact add_zero 0
  | step _ op around hsafe ih => exact ih.apply hsafe
  | finish _ op around hfinish hlocal ih => exact ih.finish hfinish hlocal

/-- **Metrics are not double counted**: in every run of safe operations, the accumulated cost after
`close` is the cost of the LLM calls that were made. -/
theorem metrics_close {c : AgentController Cost} {counted : Bool} (h : CountedRun c counted)
    {setStopState : Bool} (hclose : ClosesCounted counted c setStopState) (newId : ℤ) :
    (c.close setStopState newId).metrics = (c.close setStopState newId).spent := by
  have hcounted := h.counted
  have hzero : c.llmMetrics = 0 → c.metrics = c.spent := by
    intro hllm
    cases counted with
    | false =>
      have hsum : c.metrics + c.llmMetrics = c.spent := hcounted
      rwa [hllm, add_zero] at hsum
    | true => exact hcounted.1
  cases setStopState with
  | false =>
    show c.metrics = c.spent
    rcases hclose with hllm | ⟨rfl, -⟩ | ⟨-, hstop, -⟩
    · exact hzero hllm
    · exact hcounted.1
    · cases hstop
  | true =>
    show (c.setAgentStateTo .stopped newId).metrics = (c.setAgentStateTo .stopped newId).spent
    by_cases hstopped : c.agentState = .stopped
    · rw [AgentController.setAgentStateTo, if_pos hstopped.symm]
      rcases hclose with hllm | ⟨-, hstop⟩ | ⟨-, -, hne⟩
      · exact hzero hllm
      · cases hstop
      · exact absurd hstopped hne
    · rw [AgentController.setAgentStateTo, if_neg (Ne.symm hstopped), if_pos (.inl rfl)]
      show c.metrics + c.llmMetrics = c.spent
      rcases hclose with hllm | ⟨-, hstop⟩ | ⟨rfl, -, -⟩
      · rw [hllm, add_zero]
        exact hzero hllm
      · cases hstop
      · exact hcounted

/-! ### Two runs that are counted, and two that are not -/

/-- A controller in headless mode. -/
def headlessConfig : ControllerConfig ℕ where
  maxIterations := 30
  maxBudgetPerTask := none
  confirmationMode := false
  headlessMode := true
  statusCallback := false
  enableHistoryTruncation := true

/-- A step with one LLM call, which ends in an action that cannot be run. -/
def callOfCost (cost : ℕ) : Surroundings ℕ where
  stuck := false
  costs := [cost]
  condenserCosts := []
  reply := .action ⟨false, false, false, false⟩
  newId := 1

/-- The controller after operations. -/
def runOps (config : ControllerConfig ℕ) (ops : List (ControllerOp ℕ × Surroundings ℕ)) :
    AgentController ℕ :=
  ops.foldl (fun c op => op.1.apply c op.2) (.new config)

/-- The agent runs, makes a call of cost 5 and finishes. -/
def finishedRun : AgentController ℕ :=
  runOps headlessConfig [(ControllerOp.setAgentStateTo .running, callOfCost 0),
    (.step, callOfCost 5), (.event (.action false .finish), callOfCost 0)]

/-- The agent makes a call of cost 5 and goes to ERROR, and an error observation follows. -/
def erroneousRun : AgentController ℕ :=
  runOps headlessConfig [(ControllerOp.setAgentStateTo .running, callOfCost 0),
    (.step, callOfCost 5), (.setAgentStateTo .error, callOfCost 0),
    (.event (.observation false .error none none), callOfCost 0)]

/-- A finished run is counted if `close` does not change the state. -/
theorem metrics_close_finishedRun :
    (finishedRun.close false 2).metrics = 5 ∧ (finishedRun.close false 2).spent = 5 := by
  have hsafe : ∀ (op : ControllerOp ℕ) (c : AgentController ℕ) (cost : ℕ), ¬ op.Delegates →
      ¬ op.Finishes → ¬ op.RepeatsError c → op.Safe false c (callOfCost cost) :=
    fun op c cost hdelegates hfinishes herror =>
      ⟨hdelegates, rfl, fun h => (h.elim hfinishes herror).elim, fun h => nomatch h⟩
  have hrunning := (CountedRun.init headlessConfig).step (.setAgentStateTo .running) (callOfCost 0)
    (hsafe _ _ _ id id id)
  have hstep := hrunning.step .step (callOfCost 5) (hsafe _ _ _ id id id)
  have hfinish := hstep.finish (.event (.action false .finish)) (callOfCost 0) trivial rfl
  have hspent : (finishedRun.close false 2).spent = 5 := by decide
  exact ⟨(metrics_close hfinish (.inr (.inl ⟨rfl, rfl⟩)) 2).trans hspent, hspent⟩

/-- **Calls that are counted twice**: those of a finished run that is closed with a change to
STOPPED, and those before an error observation in state ERROR. -/
theorem metrics_close_twice :
    ((finishedRun.close true 2).spent = 5 ∧ (finishedRun.close true 2).metrics = 10) ∧
    ((erroneousRun.close true 2).spent = 5 ∧ (erroneousRun.close true 2).metrics = 10) := by
  decide

end ProRLAgent
