import Mathlib.Algebra.Group.Nat.Defs
import ProRLAgent.Controller.AgentController

set_option relaxedAutoImplicit false
set_option autoImplicit false

/-!
# The iteration budget of a controller and its delegates

A step of the agent counts an iteration. Before it, `_step` compares the iterations with their
limit, and the traffic control stops the step, unless its state is PAUSED. In headless mode the
limit never moves, and the traffic control is paused only by a change of the agent's state from
PAUSED to RUNNING.

A controller may start a delegate, which starts at the iteration and with the limit of its parent,
and hands its iteration back when it ends. The controllers are a list here: the root first, and
behind each controller its delegate. They share one metrics object.

## Main definitions

* `ProRLAgent.AgentController.startDelegate` — a new delegate.
* `ProRLAgent.SystemOp` — the operations on a controller and its delegates.
* `ProRLAgent.SystemOp.Resumes` — an operation takes a controller from PAUSED to RUNNING.
* `ProRLAgent.WithinBudget` — the invariant of a controller.

## Main results

* `ProRLAgent.WithinBudget.step` — a step keeps within the budget.
* `ProRLAgent.iteration_le_maxIterations` — the budget holds in every run.
-/

namespace ProRLAgent

variable {Cost : Type} [AddCommMonoid Cost] [LinearOrder Cost]

/-! ## Delegates -/

/-- The function `start_delegate`, with the change of state that follows it for a task. -/
def AgentController.startDelegate (c : AgentController Cost)
    (hasTask enableHistoryTruncation : Bool) (newId : ℤ) : AgentController Cost :=
  let config : ControllerConfig Cost :=
    { maxIterations := c.maxIterations
      maxBudgetPerTask := c.maxBudgetPerTask
      confirmationMode := false
      headlessMode := c.config.headlessMode
      statusCallback := false
      enableHistoryTruncation := enableHistoryTruncation }
  let delegate : AgentController Cost :=
    { AgentController.new config with
      iteration := c.iteration
      metrics := c.metrics }
  if hasTask then delegate.setAgentStateTo .running newId else delegate

/-- The delegate that an operation starts. -/
def ControllerOp.started (c : AgentController Cost) (around : Surroundings Cost) :
    ControllerOp Cost → Option (AgentController Cost)
  | .event (.action false (.delegate hasTask enableHistoryTruncation)) =>
    some (c.startDelegate hasTask enableHistoryTruncation around.newId)
  | _ => none

/-- The metrics object of all controllers. -/
def shareMetrics (metrics : Cost) (controllers : List (AgentController Cost)) :
    List (AgentController Cost) :=
  controllers.map fun c => { c with metrics := metrics }

/-- An operation on the controller of a level. A new delegate takes the place of the old one. -/
def operate (controllers : List (AgentController Cost)) (level : ℕ) (op : ControllerOp Cost)
    (around : Surroundings Cost) : List (AgentController Cost) :=
  match controllers[level]? with
  | none => controllers
  | some c =>
    let delegates :=
      match op.started c around with
      | some delegate => [delegate]
      | none => controllers.drop (level + 1)
    shareMetrics (op.apply c around).metrics
      (controllers.take level ++ op.apply c around :: delegates)

/-- The function `end_delegate` of the controller of a level. -/
def endDelegate (controllers : List (AgentController Cost)) (level : ℕ) (newId : ℤ) :
    List (AgentController Cost) :=
  match controllers[level]?, controllers[level + 1]? with
  | some c, some delegate =>
    let c :=
      { c with
        iteration := delegate.iteration
        hasDelegate := false }
    shareMetrics (delegate.close true newId).metrics (controllers.take level ++ [c])
  | _, _ => controllers

/-- The level at which `on_event` of the root treats an event. There is none if it ends the
delegate. -/
def eventLevel (controllers : List (AgentController Cost)) : Option ℕ :=
  match controllers[1]? with
  | none => some 0
  | some delegate =>
    if delegate.agentState = .finished ∨ delegate.agentState = .error ∨
        delegate.agentState = .rejected then
      none
    else
      some 1

/-- The operations on a controller and its delegates: an event that comes to the root, any operation
at any level, and the end of a delegate. -/
inductive SystemOp (Cost : Type) where
  | onEvent (event : ControllerEvent Cost) (around : Surroundings Cost)
  | operate (level : ℕ) (op : ControllerOp Cost) (around : Surroundings Cost)
  | endDelegate (level : ℕ) (newId : ℤ)

/-- The effect of an operation. -/
def SystemOp.apply (controllers : List (AgentController Cost)) :
    SystemOp Cost → List (AgentController Cost)
  | .onEvent event around =>
    match eventLevel controllers with
    | some level => ProRLAgent.operate controllers level (.event event) around
    | none => ProRLAgent.endDelegate controllers 0 around.newId
  | .operate level op around => ProRLAgent.operate controllers level op around
  | .endDelegate level newId => ProRLAgent.endDelegate controllers level newId

/-- An operation takes the controller of a level from PAUSED to RUNNING. -/
def ResumesAt (controllers : List (AgentController Cost)) (level : ℕ) (op : ControllerOp Cost)
    (around : Surroundings Cost) : Prop :=
  ∃ c, controllers[level]? = some c ∧ c.agentState = .paused ∧
    (op.apply c around).agentState = .running

/-- An operation takes a controller from PAUSED to RUNNING. -/
def SystemOp.Resumes (controllers : List (AgentController Cost)) : SystemOp Cost → Prop
  | .onEvent event around =>
    ∃ level, eventLevel controllers = some level ∧
      ResumesAt controllers level (.event event) around
  | .operate level op around => ResumesAt controllers level op around
  | .endDelegate _ _ => False

/-- A controller of a new session, with the state of an earlier one (`set_initial_state`, and
`restore_from_session` of the state). -/
def AgentController.restore (c : AgentController Cost) (config : ControllerConfig Cost) :
    AgentController Cost :=
  { AgentController.new config with
    trafficControlState := c.trafficControlState
    iteration := c.iteration
    maxIterations := c.maxIterations
    metrics := c.metrics
    localMetrics := c.localMetrics
    agentSteps := c.agentSteps
    spent := c.spent }

/-- The controllers of the runs in headless mode that take no controller from PAUSED to RUNNING,
over one session or several. -/
inductive HeadlessRun : List (AgentController Cost) → Prop
  | init (config : ControllerConfig Cost) (hheadless : config.headlessMode = true) :
      HeadlessRun [.new config]
  | step {controllers : List (AgentController Cost)} (h : HeadlessRun controllers)
      (op : SystemOp Cost) (hresumes : ¬ op.Resumes controllers) :
      HeadlessRun (op.apply controllers)
  | restore {root : AgentController Cost} {delegates : List (AgentController Cost)}
      (h : HeadlessRun (root :: delegates)) (config : ControllerConfig Cost)
      (hheadless : config.headlessMode = true) : HeadlessRun [root.restore config]

/-! ## One controller -/

namespace AgentController

/-- A change of the state is all that an event for it does. -/
lemma onEvent_changeAgentState (c : AgentController Cost) (newState : AgentState)
    (around : Surroundings Cost) :
    c.onEvent (.action false (.changeAgentState newState)) around =
      c.setAgentStateTo newState around.newId := by
  simp [onEvent, shouldStep, handleEvent, handleAction, ControllerEvent.hidden]

/-- A pending action stops a step. -/
lemma step_of_pending {c : AgentController Cost} (h : c.pendingAction.isSome)
    (around : Surroundings Cost) : c.step around = c := by
  rw [step, if_pos h, ite_self]

/-- A change to RUNNING keeps the pending action. -/
lemma pendingAction_setAgentStateTo_running (c : AgentController Cost) (newId : ℤ) :
    (c.setAgentStateTo .running newId).pendingAction = c.pendingAction := by
  have hsync : ¬ (AgentState.running = .stopped ∨ AgentState.running = .error) := by decide
  have hconfirm : ¬ (AgentState.running = .userConfirmed ∨ AgentState.running = .userRejected) := by
    decide
  rw [setAgentStateTo, if_neg hsync, if_neg hconfirm]
  split_ifs <;> rfl

/-- The agent runs after a message of the user, and its recall is pending. -/
lemma handleUserMessage_running (c : AgentController Cost) (newId : ℤ) :
    (c.handleUserMessage newId).agentState = .running ∧
      (c.handleUserMessage newId).pendingAction.isSome := by
  simp only [handleUserMessage]
  split
  · refine ⟨agentState_setAgentStateTo _ _ _, ?_⟩
    rw [pendingAction_setAgentStateTo_running]
    rfl
  · rename_i hrunning
    exact ⟨not_not.mp hrunning, rfl⟩

/-- A message of the user sets the agent running, and the step behind it waits for the recall. -/
lemma agentState_onEvent_userMessage (c : AgentController Cost) (waitForResponse : Bool)
    (around : Surroundings Cost) :
    (c.onEvent (.action false (.message (some .user) waitForResponse)) around).agentState =
      .running := by
  obtain ⟨hrunning, hpending⟩ := c.handleUserMessage_running around.newId
  simp only [onEvent, ControllerEvent.hidden, Bool.false_eq_true, if_false, handleEvent,
    handleAction, step_of_pending hpending, ite_self, hrunning]

end AgentController

/-- **The invariant of a controller**: the limit is the one of the run, the traffic control is not
paused, and all steps of the agent started before the limit. -/
structure WithinBudget (limit : ℕ) (c : AgentController Cost) : Prop where
  headlessMode : c.config.headlessMode = true
  maxIterations : c.maxIterations = limit
  iteration : c.iteration ≤ limit
  trafficControlState : c.trafficControlState ≠ .paused
  agentSteps : ∀ start ∈ c.agentSteps, start.1 < start.2

namespace WithinBudget

variable {limit : ℕ} {c : AgentController Cost}

omit [AddCommMonoid Cost] [LinearOrder Cost] in
/-- The fields that the invariant is about. -/
lemma of_eq (h : WithinBudget limit c) {c' : AgentController Cost} (hconfig : c'.config = c.config)
    (hmax : c'.maxIterations = c.maxIterations) (hiteration : c'.iteration = c.iteration)
    (htraffic : c'.trafficControlState = c.trafficControlState)
    (hsteps : c'.agentSteps = c.agentSteps) : WithinBudget limit c' :=
  ⟨by rw [hconfig, h.headlessMode], by rw [hmax, h.maxIterations],
    by rw [hiteration]; exact h.iteration, by rw [htraffic]; exact h.trafficControlState,
    by rw [hsteps]; exact h.agentSteps⟩

/-- A change of the state, other than from PAUSED to RUNNING. -/
lemma setAgentStateTo (h : WithinBudget limit c) {newState : AgentState} (newId : ℤ)
    (hresumes : ¬ (c.agentState = .paused ∧ newState = .running)) :
    WithinBudget limit (c.setAgentStateTo newState newId) := by
  rw [AgentController.setAgentStateTo]
  split_ifs with hsame hsync hresume hconfirm
  · exact h
  · exact h.of_eq rfl rfl rfl rfl rfl
  · exact absurd ⟨hresume.2.1, hresume.1⟩ hresumes
  · exact h.of_eq rfl rfl rfl rfl rfl
  · exact h.of_eq rfl rfl rfl rfl rfl

/-- A change of the state behind a check. -/
lemma ite_setAgentStateTo (h : WithinBudget limit c) {p : Prop} [Decidable p]
    {newState : AgentState} (newId : ℤ)
    (hresumes : p → ¬ (c.agentState = .paused ∧ newState = .running)) :
    WithinBudget limit (if p then c.setAgentStateTo newState newId else c) := by
  split_ifs with hp
  · exact h.setAgentStateTo newId (hresumes hp)
  · exact h

lemma reactToException (h : WithinBudget limit c) (failure : Failure) (newId : ℤ) :
    WithinBudget limit (c.reactToException failure newId) := by
  rw [AgentController.reactToException]
  split_ifs
  · exact h.setAgentStateTo newId (by simp)
  · exact h.setAgentStateTo newId (by simp)

/-! ### Steps -/

/-- The traffic control stops the step. -/
lemma handleTrafficControl (h : WithinBudget limit c) (newId : ℤ) :
    (c.handleTrafficControl newId).1 = true ∧
      WithinBudget limit (c.handleTrafficControl newId).2 := by
  rw [AgentController.handleTrafficControl, if_neg h.trafficControlState]
  have hthrottling : WithinBudget limit { c with trafficControlState := .throttling } :=
    ⟨h.headlessMode, h.maxIterations, h.iteration, by simp, h.agentSteps⟩
  exact ⟨rfl, hthrottling.reactToException .other newId⟩

/-- The check of the iterations lets a step go on only below the limit. -/
lemma checkIteration (h : WithinBudget limit c) (newId : ℤ) :
    WithinBudget limit (c.checkIteration newId).2 ∧
      ((c.checkIteration newId).1 = false → (c.checkIteration newId).2.iteration < limit) := by
  rw [AgentController.checkIteration]
  split_ifs with hlimit
  · obtain ⟨hstop, hwithin⟩ := h.handleTrafficControl newId
    exact ⟨hwithin, fun hgo => by simp [hstop] at hgo⟩
  · refine ⟨h, fun _ => ?_⟩
    rw [h.maxIterations] at hlimit
    exact Nat.lt_of_not_le hlimit

/-- The check of the budget does not take back a stop. -/
lemma checkBudget (h : WithinBudget limit c) {stopStep : Bool}
    (hgo : stopStep = false → c.iteration < limit) (newId : ℤ) :
    WithinBudget limit (c.checkBudget stopStep newId).2 ∧
      ((c.checkBudget stopStep newId).1 = false →
        (c.checkBudget stopStep newId).2.iteration < limit) := by
  obtain ⟨hstop, hwithin⟩ := h.handleTrafficControl newId
  rw [AgentController.checkBudget]
  split
  · split_ifs
    · exact ⟨hwithin, fun hgo => by simp [hstop] at hgo⟩
    · exact ⟨h, hgo⟩
  · exact ⟨h, hgo⟩

omit [LinearOrder Cost] in
/-- The agent's step below the limit. -/
lemma callAgent (h : WithinBudget limit c) (hlt : c.iteration < limit)
    (around : Surroundings Cost) : WithinBudget limit (c.callAgent around) := by
  refine ⟨h.headlessMode, h.maxIterations, hlt, h.trafficControlState, ?_⟩
  intro start hstart
  rcases List.mem_cons.mp hstart with rfl | hstart
  · rw [h.maxIterations]
    exact hlt
  · exact h.agentSteps start hstart

lemma takeAction (h : WithinBudget limit c) (action : NewAction) (newId : ℤ) :
    WithinBudget limit (c.takeAction action newId) := by
  have hpending : WithinBudget limit
      (if action.runnable then { c with pendingAction := some newId } else c) := by
    split_ifs
    · exact h.of_eq rfl rfl rfl rfl rfl
    · exact h
  simp only [AgentController.takeAction]
  split
  · exact (hpending.setAgentStateTo newId (by simp)).of_eq rfl rfl rfl rfl rfl
  · exact hpending.of_eq rfl rfl rfl rfl rfl

lemma afterAgent (h : WithinBudget limit c) (around : Surroundings Cost) :
    WithinBudget limit (c.afterAgent around) := by
  rw [AgentController.afterAgent]
  split
  · exact h.takeAction _ _
  · exact h
  · split_ifs
    · exact h
    · exact h.reactToException _ _
  · exact h.reactToException _ _

/-- **A step keeps within the budget.** -/
theorem step (h : WithinBudget limit c) (around : Surroundings Cost) :
    WithinBudget limit (c.step around) := by
  obtain ⟨hiterations, hgo⟩ := h.checkIteration around.newId
  obtain ⟨hbudget, hgo⟩ := hiterations.checkBudget hgo around.newId
  simp only [AgentController.step]
  split_ifs with hrunning hpending hstop hstuck
  · exact h
  · exact h
  · exact hbudget
  · exact hbudget.reactToException _ _
  · exact (hbudget.callAgent (hgo (by simpa using hstop)) around).afterAgent around

/-! ### Events -/

/-- A message of the user, which does not come to a paused agent. -/
lemma handleUserMessage (h : WithinBudget limit c) (newId : ℤ) (hpaused : c.agentState ≠ .paused) :
    WithinBudget limit (c.handleUserMessage newId) := by
  have hextend : c.extendIterations = c := if_pos h.headlessMode
  have hpending : WithinBudget limit { c with pendingAction := some newId } :=
    h.of_eq rfl rfl rfl rfl rfl
  simp only [AgentController.handleUserMessage, hextend]
  split_ifs
  · exact hpending.setAgentStateTo newId fun hresumes => hpaused hresumes.1
  · exact hpending

lemma resolvePending (h : WithinBudget limit c) (newId : ℤ) :
    WithinBudget limit (c.resolvePending newId) := by
  have hpending : WithinBudget limit { c with pendingAction := none } :=
    h.of_eq rfl rfl rfl rfl rfl
  rw [AgentController.resolvePending]
  split
  · exact h
  · refine ite_setAgentStateTo (hpending.ite_setAgentStateTo newId ?_) newId ?_
    · intro hconfirmed hresumes
      cases hconfirmed.symm.trans hresumes.1
    · simp

lemma handleObservation (h : WithinBudget limit c) (kind : ObservationKind) (cause : Option ℤ)
    (llmMetrics : Option Cost) (newId : ℤ) :
    WithinBudget limit (c.handleObservation kind cause llmMetrics newId) := by
  have hobserved : WithinBudget limit (c.mergeObserved llmMetrics) := by
    cases llmMetrics with
    | none => exact h
    | some cost => exact h.of_eq rfl rfl rfl rfl rfl
  simp only [AgentController.handleObservation]
  split_ifs
  · exact hobserved.resolvePending newId
  · exact hobserved.of_eq rfl rfl rfl rfl rfl
  · exact hobserved

/-- An action keeps within the budget, unless it takes the controller from PAUSED to RUNNING. -/
lemma handleAction (h : WithinBudget limit c) (newId : ℤ) {action : ControllerAction}
    (hchange : ∀ newState, action = .changeAgentState newState →
      ¬ (c.agentState = .paused ∧ newState = .running))
    (hmessage : ∀ waitForResponse, action = .message (some .user) waitForResponse →
      c.agentState ≠ .paused) : WithinBudget limit (c.handleAction newId action) := by
  cases action with
  | changeAgentState newState => exact h.setAgentStateTo newId (hchange newState rfl)
  | message source waitForResponse =>
    rcases source with - | source
    · exact h
    cases source with
    | user => exact h.handleUserMessage newId (hmessage waitForResponse rfl)
    | agent =>
      cases waitForResponse with
      | true => exact h.setAgentStateTo newId (by simp)
      | false => exact h
    | environment => exact h
  | delegate hasTask enableHistoryTruncation => exact h.of_eq rfl rfl rfl rfl rfl
  | finish =>
    have hmerged : WithinBudget limit c.mergeLocalMetrics := h.of_eq rfl rfl rfl rfl rfl
    exact hmerged.setAgentStateTo newId (by simp)
  | reject =>
    have hmerged : WithinBudget limit c.mergeLocalMetrics := h.of_eq rfl rfl rfl rfl rfl
    exact hmerged.setAgentStateTo newId (by simp)
  | condensation => exact h
  | other => exact h

/-- An event keeps within the budget, unless it takes the controller from PAUSED to RUNNING. -/
lemma onEvent (h : WithinBudget limit c) (event : ControllerEvent Cost)
    (around : Surroundings Cost)
    (hresumes : ¬ (c.agentState = .paused ∧ (c.onEvent event around).agentState = .running)) :
    WithinBudget limit (c.onEvent event around) := by
  by_cases hhidden : event.hidden
  · rw [AgentController.onEvent, if_pos hhidden]
    exact h
  have hhandled : WithinBudget limit (c.handleEvent around.newId event) := by
    cases event with
    | action hidden action =>
      obtain rfl : hidden = false := by simpa [ControllerEvent.hidden] using hhidden
      refine h.handleAction around.newId ?_ ?_
      · rintro newState rfl hresume
        exact hresumes ⟨hresume.1, by
          rw [AgentController.onEvent_changeAgentState,
            AgentController.agentState_setAgentStateTo, hresume.2]⟩
      · rintro waitForResponse rfl hpaused
        exact hresumes ⟨hpaused, c.agentState_onEvent_userMessage waitForResponse around⟩
    | observation hidden kind cause llmMetrics => exact h.handleObservation _ _ _ _
  rw [AgentController.onEvent, if_neg hhidden]
  show WithinBudget limit (if _ then _ else _)
  split_ifs
  · exact hhandled.step around
  · exact hhandled

/-- An operation keeps within the budget, unless it takes the controller from PAUSED to
RUNNING. -/
lemma apply (h : WithinBudget limit c) (op : ControllerOp Cost) (around : Surroundings Cost)
    (hresumes : ¬ (c.agentState = .paused ∧ (op.apply c around).agentState = .running)) :
    WithinBudget limit (op.apply c around) := by
  cases op with
  | setAgentStateTo newState =>
    refine h.setAgentStateTo around.newId fun hresume => hresumes ⟨hresume.1, ?_⟩
    rw [ControllerOp.apply, AgentController.agentState_setAgentStateTo, hresume.2]
  | event e => exact h.onEvent e around hresumes
  | step => exact h.step around
  | close setStopState =>
    cases setStopState with
    | false => exact h
    | true => exact h.setAgentStateTo around.newId (by simp)

/-- A new delegate is within the budget of its parent. -/
lemma startDelegate (h : WithinBudget limit c) (hasTask enableHistoryTruncation : Bool)
    (newId : ℤ) : WithinBudget limit (c.startDelegate hasTask enableHistoryTruncation newId) := by
  refine ite_setAgentStateTo ?_ newId (by simp [AgentController.new])
  exact ⟨h.headlessMode, h.maxIterations, h.iteration, by simp [AgentController.new],
    by simp [AgentController.new]⟩

end WithinBudget

/-! ## The controller and its delegates -/

/-- The delegates after an operation: a new one, or the old ones. -/
lemma withinBudget_started {limit level : ℕ} {controllers : List (AgentController Cost)}
    (h : ∀ c ∈ controllers, WithinBudget limit c) {c : AgentController Cost}
    (hc : WithinBudget limit c) {op : ControllerOp Cost} {around : Surroundings Cost} :
    ∀ c' ∈ (match op.started c around with
      | some delegate => [delegate]
      | none => controllers.drop (level + 1)), WithinBudget limit c' := by
  intro c' hc'
  cases hstarted : op.started c around with
  | none =>
    rw [hstarted] at hc'
    exact h c' (List.mem_of_mem_drop hc')
  | some delegate =>
    rw [hstarted] at hc'
    obtain rfl := List.mem_singleton.mp hc'
    rw [ControllerOp.started.eq_def] at hstarted
    split at hstarted
    · cases hstarted
      exact hc.startDelegate _ _ _
    · cases hstarted

omit [AddCommMonoid Cost] [LinearOrder Cost] in
lemma withinBudget_shareMetrics {limit : ℕ} {controllers : List (AgentController Cost)}
    (h : ∀ c ∈ controllers, WithinBudget limit c) (metrics : Cost) :
    ∀ c ∈ shareMetrics metrics controllers, WithinBudget limit c := by
  intro c hc
  obtain ⟨c', hc', rfl⟩ := List.mem_map.mp hc
  exact (h c' hc').of_eq rfl rfl rfl rfl rfl

/-- An operation at a level. -/
lemma withinBudget_operate {limit : ℕ} {controllers : List (AgentController Cost)}
    (h : ∀ c ∈ controllers, WithinBudget limit c) {level : ℕ} {op : ControllerOp Cost}
    {around : Surroundings Cost} (hresumes : ¬ ResumesAt controllers level op around) :
    ∀ c ∈ operate controllers level op around, WithinBudget limit c := by
  rw [operate]
  split
  · exact h
  · rename_i c hc
    have hmem := h c (List.mem_of_getElem? hc)
    refine withinBudget_shareMetrics (fun c' hc' => ?_) _
    rcases List.mem_append.mp hc' with htake | hrest
    · exact h c' (List.mem_of_mem_take htake)
    rcases List.mem_cons.mp hrest with rfl | hdelegates
    · exact hmem.apply op around fun hresume => hresumes ⟨c, hc, hresume.1, hresume.2⟩
    · exact withinBudget_started h hmem c' hdelegates

/-- The end of a delegate. -/
lemma withinBudget_endDelegate {limit : ℕ} {controllers : List (AgentController Cost)}
    (h : ∀ c ∈ controllers, WithinBudget limit c) (level : ℕ) (newId : ℤ) :
    ∀ c ∈ endDelegate controllers level newId, WithinBudget limit c := by
  rw [endDelegate]
  split
  · rename_i c delegate hc hdelegate
    have hmem := h c (List.mem_of_getElem? hc)
    have hended := h delegate (List.mem_of_getElem? hdelegate)
    refine withinBudget_shareMetrics (fun c' hc' => ?_) _
    rcases List.mem_append.mp hc' with htake | hlast
    · exact h c' (List.mem_of_mem_take htake)
    · obtain rfl := List.mem_singleton.mp hlast
      exact ⟨hmem.headlessMode, hmem.maxIterations, hended.iteration, hmem.trafficControlState,
        hmem.agentSteps⟩
  · exact h

/-- All controllers of a run are within one budget. -/
lemma HeadlessRun.exists_limit {controllers : List (AgentController Cost)}
    (h : HeadlessRun controllers) : ∃ limit, ∀ c ∈ controllers, WithinBudget limit c := by
  induction h with
  | init config hheadless =>
    refine ⟨config.maxIterations, fun c hc => ?_⟩
    obtain rfl := List.mem_singleton.mp hc
    exact ⟨hheadless, rfl, Nat.zero_le _, by simp [AgentController.new],
      by simp [AgentController.new]⟩
  | step _ op hresumes ih =>
    obtain ⟨limit, hlimit⟩ := ih
    refine ⟨limit, ?_⟩
    cases op with
    | onEvent event around =>
      rw [SystemOp.apply]
      split
      · rename_i level hlevel
        exact withinBudget_operate hlimit fun hresume => hresumes ⟨level, hlevel, hresume⟩
      · exact withinBudget_endDelegate hlimit 0 _
    | operate level op around => exact withinBudget_operate hlimit hresumes
    | endDelegate level newId => exact withinBudget_endDelegate hlimit level newId
  | restore _ config hheadless ih =>
    rename_i root delegates _
    obtain ⟨limit, hlimit⟩ := ih
    have hroot := hlimit root (by simp)
    refine ⟨limit, fun c hc => ?_⟩
    obtain rfl := List.mem_singleton.mp hc
    exact ⟨hheadless, hroot.maxIterations, hroot.iteration, hroot.trafficControlState,
      hroot.agentSteps⟩

/-- **Iteration budget**: in every run in headless mode that takes no controller from PAUSED to
RUNNING, the iterations of the root and of all delegates stay within the limit, and no step of an
agent starts at the limit. -/
theorem iteration_le_maxIterations {controllers : List (AgentController Cost)}
    (h : HeadlessRun controllers) :
    ∀ c ∈ controllers, c.iteration ≤ c.maxIterations ∧
      ∀ start ∈ c.agentSteps, start.1 < start.2 := by
  obtain ⟨limit, hlimit⟩ := h.exists_limit
  intro c hc
  have hwithin := hlimit c hc
  refine ⟨?_, hwithin.agentSteps⟩
  rw [hwithin.maxIterations]
  exact hwithin.iteration

/-! ### A run that uses up its budget -/

/-- No controller is paused before any of the operations. -/
def neverPaused : List (SystemOp Cost) → List (AgentController Cost) → Bool
  | [], _ => true
  | op :: ops, controllers =>
    controllers.all (fun c => decide (c.agentState ≠ .paused)) &&
      neverPaused ops (op.apply controllers)

/-- An operation does not resume a controller if none is paused. -/
lemma not_resumes_of_all {controllers : List (AgentController Cost)}
    (h : ∀ c ∈ controllers, c.agentState ≠ .paused) (op : SystemOp Cost) :
    ¬ op.Resumes controllers := by
  have hat : ∀ level (op : ControllerOp Cost) around, ¬ ResumesAt controllers level op around := by
    rintro level op around ⟨c, hc, hpaused, -⟩
    exact h c (List.mem_of_getElem? hc) hpaused
  cases op with
  | onEvent event around =>
    rintro ⟨level, -, hresumes⟩
    exact hat level _ around hresumes
  | operate level op around => exact hat level op around
  | endDelegate level newId => exact id

/-- Operations that never find a paused controller. -/
lemma HeadlessRun.foldl {controllers : List (AgentController Cost)} (h : HeadlessRun controllers)
    {ops : List (SystemOp Cost)} (hops : neverPaused ops controllers = true) :
    HeadlessRun (ops.foldl SystemOp.apply controllers) := by
  induction ops generalizing controllers with
  | nil => exact h
  | cons op ops ih =>
    rw [neverPaused, Bool.and_eq_true, List.all_eq_true] at hops
    have hall : ∀ c ∈ controllers, c.agentState ≠ .paused :=
      fun c hc => of_decide_eq_true (hops.1 c hc)
    exact ih (h.step op (not_resumes_of_all hall op)) hops.2

/-- A controller with two iterations. -/
def twoIterations : ControllerConfig ℕ where
  maxIterations := 2
  maxBudgetPerTask := none
  confirmationMode := false
  headlessMode := true
  statusCallback := false
  enableHistoryTruncation := true

/-- A step that ends in an action that cannot be run. -/
def plainStep : Surroundings ℕ where
  stuck := false
  costs := []
  condenserCosts := []
  reply := .action ⟨false, false, false, false⟩
  newId := 1

/-- The root steps once and starts a delegate, which steps once and is stopped at the limit. The
root takes over, and is stopped as well. -/
def delegatedOps : List (SystemOp ℕ) :=
  [SystemOp.operate 0 (.setAgentStateTo .running) plainStep,
    .operate 0 .step plainStep,
    .onEvent (.action false (.delegate true true)) plainStep,
    .operate 1 .step plainStep,
    .operate 1 .step plainStep,
    .onEvent (.action false .other) plainStep,
    .operate 0 .step plainStep]

/-- The delegate uses the last iteration, and the root gets no further step. -/
theorem iteration_delegatedOps :
    ∃ c, delegatedOps.foldl SystemOp.apply [.new twoIterations] = [c] ∧
      c.iteration = 2 ∧ c.agentState = .error ∧ c.agentSteps = [(0, 2)] ∧
      c.iteration ≤ c.maxIterations := by
  have hrun : HeadlessRun (delegatedOps.foldl SystemOp.apply [.new twoIterations]) :=
    (HeadlessRun.init twoIterations rfl).foldl (by decide)
  have hbudget := iteration_le_maxIterations hrun
  refine ⟨_, rfl, by decide, by decide, by decide, ?_⟩
  exact (hbudget _ (List.mem_singleton.mpr rfl)).1

end ProRLAgent
