import Mathlib.Algebra.BigOperators.Group.List.Defs
import Mathlib.Order.Defs.LinearOrder
import ProRLAgent.Memory.View

set_option relaxedAutoImplicit false
set_option autoImplicit false

/-!
# The agent controller

The state machine of `openhands/controller/agent_controller.py`: the changes of the agent's state,
the steps with their limits, and the events that a controller handles.

Everything from outside comes in with an operation: whether the loop detector finds the agent stuck,
what the agent's step does and costs, and the id that the event stream gives to an action. The
events that a controller puts on the stream come back to it as operations; any event may come at any
time, so they are not recorded. A cost is an element of an ordered additive monoid: the rounding of
floating-point sums is left out.

Two fields record calls to the outside, and no function reads them: `agentSteps`, the agent's steps
with the iteration at which they started, and `spent`, the cost of all LLM calls.

## Main definitions

* `ProRLAgent.AgentController` — the state of a controller.
* `ProRLAgent.AgentController.setAgentStateTo` — a change of the agent's state.
* `ProRLAgent.AgentController.step` — a step of the agent behind its limits.
* `ProRLAgent.AgentController.onEvent` — the treatment of an event.
* `ProRLAgent.ControllerOp` — the operations on a controller.
-/

namespace ProRLAgent

open Memory (EventSource)

/-- The states of an agent. -/
inductive AgentState where
  | loading
  | running
  | awaitingUserInput
  | paused
  | stopped
  | finished
  | rejected
  | error
  | awaitingUserConfirmation
  | userConfirmed
  | userRejected
  | rateLimited
  deriving DecidableEq, Repr

/-- The states of the traffic control. -/
inductive TrafficControlState where
  | normal
  | throttling
  | paused
  deriving DecidableEq, Repr

/-! ## Controllers -/

/-- What a controller is created with. -/
structure ControllerConfig (Cost : Type) where
  maxIterations : ℕ
  maxBudgetPerTask : Option Cost
  confirmationMode : Bool
  headlessMode : Bool
  statusCallback : Bool
  enableHistoryTruncation : Bool
  deriving DecidableEq, Repr

/-- A controller with its state and its agent's LLM. -/
structure AgentController (Cost : Type) where
  /-- The arguments of its creation, with `_initial_max_iterations` and
  `_initial_max_budget_per_task`. -/
  config : ControllerConfig Cost
  maxBudgetPerTask : Option Cost
  agentState : AgentState
  trafficControlState : TrafficControlState
  iteration : ℕ
  maxIterations : ℕ
  /-- The accumulated cost of `state.metrics`. -/
  metrics : Cost
  /-- The accumulated cost of `state.local_metrics`. -/
  localMetrics : Cost
  /-- The accumulated cost of `agent.llm.metrics`. -/
  llmMetrics : Cost
  /-- The id of `_pending_action`. -/
  pendingAction : Option ℤ
  /-- There is a delegate. -/
  hasDelegate : Bool
  /-- The agent's steps so far: the iteration and the limit at which each one started. -/
  agentSteps : List (ℕ × ℕ)
  /-- The cost of all LLM calls so far. -/
  spent : Cost
  deriving DecidableEq, Repr

/-! ## What comes from outside -/

/-- The exceptions that `_react_to_exception` tells apart. -/
inductive Failure where
  | rateLimit
  | other
  deriving DecidableEq, Repr

/-- An action of the agent, as `_step` looks at it. -/
structure NewAction where
  isNull : Bool
  runnable : Bool
  /-- A `CmdRunAction` or an `IPythonRunCellAction`. -/
  isCommand : Bool
  awaitingConfirmation : Bool
  deriving DecidableEq, Repr

/-- What the agent's step (or a replayed one) ends with. -/
inductive Reply where
  | action (action : NewAction)
  /-- A response that cannot be used, which is told to the agent as an error observation. -/
  | malformed
  /-- The context window is exceeded. -/
  | contextWindow
  /-- Any other exception. -/
  | exception (failure : Failure)
  deriving DecidableEq, Repr

/-- What an operation gets from outside. -/
structure Surroundings (Cost : Type) where
  /-- The loop detector finds the agent stuck. -/
  stuck : Bool
  /-- The costs of the calls that the agent's step makes on the agent's LLM. -/
  costs : List Cost
  /-- The costs of the calls that it makes on the condenser's LLM. -/
  condenserCosts : List Cost
  reply : Reply
  /-- The id that the stream gives to the action that the operation puts on it. -/
  newId : ℤ
  deriving DecidableEq, Repr

/-- The actions that a controller tells apart. -/
inductive ControllerAction where
  | changeAgentState (agentState : AgentState)
  | message (source : Option EventSource) (waitForResponse : Bool)
  /-- A delegation, with a task or not, and whether the delegate truncates its history. -/
  | delegate (hasTask enableHistoryTruncation : Bool)
  | finish
  | reject
  | condensation
  | other
  deriving DecidableEq, Repr

/-- The observations that a controller tells apart. -/
inductive ObservationKind where
  | error
  | null
  | agentStateChanged
  | other
  deriving DecidableEq, Repr

/-- The events of the stream. -/
inductive ControllerEvent (Cost : Type) where
  | action (hidden : Bool) (action : ControllerAction)
  | observation (hidden : Bool) (kind : ObservationKind) (cause : Option ℤ)
      (llmMetrics : Option Cost)
  deriving DecidableEq, Repr

/-- The event is hidden. -/
def ControllerEvent.hidden {Cost : Type} : ControllerEvent Cost → Bool
  | action hidden _ => hidden
  | observation hidden _ _ _ => hidden

namespace AgentController

variable {Cost : Type}

/-! ## Metrics and states -/

section States

variable [AddCommMonoid Cost] [LinearOrder Cost]

/-- A controller that was just created. -/
def new (config : ControllerConfig Cost) : AgentController Cost where
  config := config
  maxBudgetPerTask := config.maxBudgetPerTask
  agentState := .loading
  trafficControlState := .normal
  iteration := 0
  maxIterations := config.maxIterations
  metrics := 0
  localMetrics := 0
  llmMetrics := 0
  pendingAction := none
  hasDelegate := false
  agentSteps := []
  spent := 0

/-- The function `update_state_after_step`. -/
def updateStateAfterStep (c : AgentController Cost) : AgentController Cost :=
  { c with localMetrics := c.llmMetrics }

/-- The call `state.metrics.merge(state.local_metrics)`. -/
def mergeLocalMetrics (c : AgentController Cost) : AgentController Cost :=
  { c with metrics := c.metrics + c.localMetrics }

/-- The function `_reset`, which resets the agent's LLM. -/
def reset (c : AgentController Cost) : AgentController Cost :=
  { c with
    pendingAction := none
    llmMetrics := 0 }

/-- The agent goes on in spite of the traffic control. -/
def resumeTraffic (c : AgentController Cost) : AgentController Cost :=
  { c with
    trafficControlState := .paused
    maxIterations :=
      if c.config.headlessMode = false ∧ c.maxIterations ≤ c.iteration then
        c.maxIterations + c.config.maxIterations
      else
        c.maxIterations
    maxBudgetPerTask :=
      match c.maxBudgetPerTask, c.config.maxBudgetPerTask with
      | some budget, some initial =>
        if budget ≤ c.metrics then some (budget + initial) else some budget
      | budget, _ => budget }

/-- The function `set_agent_state_to`. -/
def setAgentStateTo (c : AgentController Cost) (newState : AgentState) (newId : ℤ) :
    AgentController Cost :=
  if newState = c.agentState then
    c
  else if newState = .stopped ∨ newState = .error then
    { c.updateStateAfterStep.mergeLocalMetrics.reset with agentState := newState }
  else if newState = .running ∧ c.agentState = .paused ∧
      c.trafficControlState = .throttling then
    { c.resumeTraffic with agentState := newState }
  else if newState = .userConfirmed ∨ newState = .userRejected then
    -- A pending action is put on the stream again.
    { c with
      pendingAction := c.pendingAction.map fun _ => newId
      agentState := newState }
  else
    { c with agentState := newState }

/-- The state after a change. -/
lemma agentState_setAgentStateTo (c : AgentController Cost) (newState : AgentState) (newId : ℤ) :
    (c.setAgentStateTo newState newId).agentState = newState := by
  rw [setAgentStateTo]
  split
  · rename_i h
    exact h.symm
  · split_ifs <;> rfl

/-- The function `_react_to_exception`. -/
def reactToException (c : AgentController Cost) (failure : Failure) (newId : ℤ) :
    AgentController Cost :=
  if c.config.statusCallback = true ∧ failure = .rateLimit then
    c.setAgentStateTo .rateLimited newId
  else
    c.setAgentStateTo .error newId

/-- The function `close`. -/
def close (c : AgentController Cost) (setStopState : Bool) (newId : ℤ) : AgentController Cost :=
  if setStopState then c.setAgentStateTo .stopped newId else c

/-! ## Steps -/

/-- The function `_handle_traffic_control`: whether the step stops, and the controller. -/
def handleTrafficControl (c : AgentController Cost) (newId : ℤ) : Bool × AgentController Cost :=
  if c.trafficControlState = .paused then
    (false, { c with trafficControlState := .normal })
  else
    (true, { c with trafficControlState := .throttling }.reactToException .other newId)

/-- The check of the iterations in `_step`. -/
def checkIteration (c : AgentController Cost) (newId : ℤ) : Bool × AgentController Cost :=
  if c.maxIterations ≤ c.iteration then c.handleTrafficControl newId else (false, c)

/-- The check of the budget in `_step`, with the answer of the check before it. -/
def checkBudget (c : AgentController Cost) (stopStep : Bool) (newId : ℤ) :
    Bool × AgentController Cost :=
  match c.maxBudgetPerTask with
  | some budget => if budget < c.metrics then c.handleTrafficControl newId else (stopStep, c)
  | none => (stopStep, c)

/-- The agent's step starts: the iteration is counted, and the LLM calls are made. -/
def callAgent (c : AgentController Cost) (around : Surroundings Cost) : AgentController Cost :=
  { c with
    iteration := c.iteration + 1
    llmMetrics := c.llmMetrics + around.costs.sum
    agentSteps := (c.iteration, c.maxIterations) :: c.agentSteps
    spent := c.spent + around.costs.sum + around.condenserCosts.sum }

/-- The last part of `_step`: the action goes to the stream. -/
def takeAction (c : AgentController Cost) (action : NewAction) (newId : ℤ) :
    AgentController Cost :=
  let awaiting := action.awaitingConfirmation ||
    (action.runnable && c.config.confirmationMode && action.isCommand)
  let c := if action.runnable then { c with pendingAction := some newId } else c
  let c :=
    if action.isNull = false ∧ awaiting = true then
      c.setAgentStateTo .awaitingUserConfirmation newId
    else
      c
  c.updateStateAfterStep

/-- What follows the agent's step. -/
def afterAgent (c : AgentController Cost) (around : Surroundings Cost) : AgentController Cost :=
  match around.reply with
  | .action action => c.takeAction action around.newId
  | .malformed => c
  | .contextWindow =>
    if c.config.enableHistoryTruncation then c else c.reactToException .other around.newId
  | .exception failure => c.reactToException failure around.newId

/-- The functions `_step_with_exception_handling` and `_step`. -/
def step (c : AgentController Cost) (around : Surroundings Cost) : AgentController Cost :=
  if c.agentState ≠ .running then
    c
  else if c.pendingAction.isSome then
    c
  else
    let iterations := c.checkIteration around.newId
    let budget := iterations.2.checkBudget iterations.1 around.newId
    if budget.1 then
      budget.2
    else if around.stuck then
      budget.2.reactToException .other around.newId
    else
      (budget.2.callAgent around).afterAgent around

/-! ## Events -/

/-- More iterations for a message of the user, unless in headless mode. -/
def extendIterations (c : AgentController Cost) : AgentController Cost :=
  if c.config.headlessMode then
    c
  else
    { c with
      maxIterations := c.iteration + c.config.maxIterations
      trafficControlState := .normal }

/-- A message of the user, in `_handle_message_action`. -/
def handleUserMessage (c : AgentController Cost) (newId : ℤ) : AgentController Cost :=
  let c := { c.extendIterations with pendingAction := some newId }
  if c.agentState ≠ .running then c.setAgentStateTo .running newId else c

/-- The function `_handle_action`. What it does for a new delegate is in `startDelegate`. -/
def handleAction (c : AgentController Cost) (newId : ℤ) :
    ControllerAction → AgentController Cost
  | .changeAgentState newState => c.setAgentStateTo newState newId
  | .message (some .user) _ => c.handleUserMessage newId
  | .message (some .agent) true => c.setAgentStateTo .awaitingUserInput newId
  | .message _ _ => c
  | .delegate _ _ => { c with hasDelegate := true }
  | .finish => c.mergeLocalMetrics.setAgentStateTo .finished newId
  | .reject => c.mergeLocalMetrics.setAgentStateTo .rejected newId
  | .condensation => c
  | .other => c

/-- The metrics that come with an observation. -/
def mergeObserved (c : AgentController Cost) (llmMetrics : Option Cost) : AgentController Cost :=
  match llmMetrics with
  | some cost =>
    { c with
      llmMetrics := c.llmMetrics + cost
      spent := c.spent + cost }
  | none => c

/-- The observation of the pending action. -/
def resolvePending (c : AgentController Cost) (newId : ℤ) : AgentController Cost :=
  if c.agentState = .awaitingUserConfirmation then
    c
  else
    let c := { c with pendingAction := none }
    let c := if c.agentState = .userConfirmed then c.setAgentStateTo .running newId else c
    if c.agentState = .userRejected then c.setAgentStateTo .awaitingUserInput newId else c

/-- The function `_handle_observation`. -/
def handleObservation (c : AgentController Cost) (kind : ObservationKind) (cause : Option ℤ)
    (llmMetrics : Option Cost) (newId : ℤ) : AgentController Cost :=
  let c := c.mergeObserved llmMetrics
  if c.pendingAction.isSome ∧ c.pendingAction = cause then
    c.resolvePending newId
  else if kind = .error ∧ c.agentState = .error then
    c.mergeLocalMetrics
  else
    c

/-- The function `should_step`. -/
def shouldStep (c : AgentController Cost) : ControllerEvent Cost → Bool
  | .action _ action =>
    !c.hasDelegate &&
      match action with
      | .message (some .user) _ => true
      | .message _ _ => decide (c.agentState ≠ .awaitingUserInput)
      | .delegate _ _ => true
      | .condensation => true
      | _ => false
  | .observation _ kind cause _ =>
    !c.hasDelegate &&
      match kind with
      | .null => decide (0 < cause.getD 0)
      | .agentStateChanged => false
      | _ => true

/-- The treatment of an event before the step. -/
def handleEvent (c : AgentController Cost) (newId : ℤ) :
    ControllerEvent Cost → AgentController Cost
  | .action _ action => c.handleAction newId action
  | .observation _ kind cause llmMetrics => c.handleObservation kind cause llmMetrics newId

/-- The function `_on_event`. -/
def onEvent (c : AgentController Cost) (event : ControllerEvent Cost)
    (around : Surroundings Cost) : AgentController Cost :=
  if event.hidden then
    c
  else
    let c := c.handleEvent around.newId event
    if c.shouldStep event then c.step around else c

end States

end AgentController

/-! ## Operations -/

/-- The operations on a controller. -/
inductive ControllerOp (Cost : Type) where
  | setAgentStateTo (newState : AgentState)
  | event (event : ControllerEvent Cost)
  | step
  | close (setStopState : Bool)
  deriving DecidableEq, Repr

/-- The effect of an operation. -/
def ControllerOp.apply {Cost : Type} [AddCommMonoid Cost] [LinearOrder Cost]
    (c : AgentController Cost) (around : Surroundings Cost) :
    ControllerOp Cost → AgentController Cost
  | .setAgentStateTo newState => c.setAgentStateTo newState around.newId
  | .event e => c.onEvent e around
  | .step => c.step around
  | .close setStopState => c.close setStopState around.newId

end ProRLAgent
