import Mathlib.Data.List.Basic
import Mathlib.Logic.Function.Basic
import ProRLAgent.Basic
import ProRLAgent.Lib.Heapq
import ProRLAgent.Lib.Machine

set_option relaxedAutoImplicit false
set_option autoImplicit false

/-!
# The API server and its child process

`start_server.py` runs the endpoints on one event loop and keeps the rollout server in a child
process. The two sides talk through three queues: requests go to the child, results of jobs come
back to a listener thread, and acknowledgements of control requests come back to the endpoint that
waits for one.

The machine below has these parties: the event loop, the listener thread, and the child with its
main loop and its jobs. A control endpoint puts its request and then waits for a message of
`control_response_queue` without giving the event loop back, so no other endpoint, callback or timer
runs meanwhile (`State.control`). A `/process` call is a task that gives the event loop back while
it awaits its future; when the future is done the event loop first runs the callback that removes
the entry under the job id, and then the rest of the call.

Ids made with `uuid4` are numbers that have not been used before. The listener ends with its child
when the server is stopped; one whose child has died goes on with the results that it left.

## Main definitions

* `ApiServer.Child` — the child process with its queues.
* `ApiServer.ProcessCall` — a `/process` call with its future.
* `ApiServer.State`, `ApiServer.Label`, `ApiServer.step` — the machine.

## Main results

* `ApiServer.step_cases` — which party has taken a step.
-/

namespace ProRLAgent.ApiServer

/-- The id of a job: chosen by the client, or made with `uuid4`. -/
inductive JobId where
  | client (id : String)
  | uuid (n : ℕ)
  deriving DecidableEq

/-- A message on `request_queue`. The number `call` of a `process` request and `sender` of a
`cancel` request say which `/process` call has sent it; the child decides nothing by them. -/
inductive Request where
  | process (jobId : JobId) (call : ℕ)
  | cancel (jobId : JobId) (requestId : ℕ) (sender : Option ℕ)
  | addLlmServer (address : String) (requestId : ℕ)
  | clearLlmServer (requestId : ℕ)
  | status (requestId : ℕ)
  | stop (requestId : ℕ)
  deriving DecidableEq

/-- The control endpoints, and the types of the acknowledgements for them. -/
inductive ControlKind where
  | cancel
  | addLlmServer
  | clearLlmServer
  | status
  | stop
  deriving DecidableEq

/-- A message on `control_response_queue`. -/
structure Ack where
  kind : ControlKind
  requestId : ℕ
  deriving DecidableEq

/-- Where a job stands in the executor of the child. -/
inductive JobPc where
  | queued
  | running
  | ended
  deriving DecidableEq

/-- A job of the child. -/
structure Job where
  jobId : JobId
  call : ℕ
  pc : JobPc
  deriving DecidableEq

/-- A message on `job_result_queue`: the result of a job or the text of its error. `call` is the
`/process` call that has submitted the job; nobody decides anything by it. -/
structure Result (ρ : Type) where
  jobId : JobId
  call : ℕ
  reply : Except String ρ

/-- The child process (`server_worker`) with the queues that it was started with. -/
structure Child where
  alive : Bool
  /-- The addresses of the configuration that it was started with. -/
  addresses : List String
  /-- `weighted_addresses` of its server, when it has one. -/
  heap : Option (List (ℕ × String))
  /-- Its main loop is still running. -/
  running : Bool
  requests : List Request
  acks : List Ack
  jobs : List Job
  /-- `submitted_futures`: the job that was submitted last under the id. -/
  submitted : JobId → Option ℕ

/-- The future of a `/process` call. -/
inductive FutureState (ρ : Type) where
  | pending
  | result (r : ρ)
  | failed (error : String)
  /-- Cancelled by the timer of its own call. -/
  | timedOut
  /-- Cancelled by the end of another call. -/
  | cancelled

/-- The future is done. -/
def FutureState.isDone {ρ : Type} : FutureState ρ → Bool
  | .pending => false
  | _ => true

/-- Where a `/process` call stands. -/
inductive CallPc (ρ : Type) where
  /-- It awaits its future. -/
  | waiting
  /-- The callback of the done future has run. -/
  | waking
  | returned (r : ρ)
  /-- It has ended with an HTTP error. -/
  | raised (status : ℕ) (detail : String)
  /-- A `CancelledError` has left it, which no handler of the call catches. -/
  | aborted

/-- A `/process` call. -/
structure ProcessCall (ρ : Type) where
  jobId : JobId
  future : FutureState ρ
  pc : CallPc ρ

/-- The state of the API server and its child. The last three fields are history variables that no
step reads: the pairs of the request that an endpoint waited for and the one whose acknowledgement
it consumed; the pairs of the call whose future a result message has resolved and the call that the
message is for; and the pairs of a call on whose behalf an entry, a future or a job was removed or
cancelled and the call that it belonged to. -/
structure State (ρ : Type) where
  /-- `llm_server_addresses_buffer`. -/
  buffer : List String
  accepting : Bool
  child : Option Child
  /-- `result_futures`: the call whose future stands under the id. -/
  futures : JobId → Option ℕ
  calls : List (ProcessCall ρ)
  /-- The results that the children have put for the listener. -/
  results : List (Result ρ)
  /-- What the listener has popped and not handled yet: the call whose future it found. -/
  handling : List (ℕ × Result ρ)
  /-- The control endpoint that waits for its acknowledgement. -/
  control : Option (ControlKind × ℕ)
  /-- The next number for `uuid4`. -/
  nextUuid : ℕ
  consumed : List (ℕ × ℕ)
  resolved : List (ℕ × ℕ)
  removed : List (ℕ × ℕ)

/-- The moves of the machine. -/
inductive Label (ρ : Type) where
  | start
  | stop
  | status
  | cancel (jobId : String)
  | addLlmServer (address : String)
  | clearLlmServer
  /-- The endpoint that waits gets a message. -/
  | ack
  /-- Its wait times out. -/
  | ackTimeout
  /-- A `/process` request, with the job id of the client if there is one. -/
  | process (jobId : Option String)
  /-- The timer of `wait_for` fires. -/
  | timeout (i : ℕ)
  /-- The event loop runs the callback of a done future. -/
  | cleanup (i : ℕ)
  /-- The event loop runs the rest of a `/process` call. -/
  | wake (i : ℕ)
  /-- The listener takes a message and pops the future under its id. -/
  | listen
  /-- The listener sets the result of a future that it has popped. -/
  | resolve
  /-- The child makes its server. -/
  | boot
  /-- The main loop of the child handles a request. -/
  | handle
  | runJob (n : ℕ)
  /-- A job ends, with the message that it puts. -/
  | endJob (n : ℕ) (reply : Option (Except String ρ))
  /-- A job of the child selects an LLM address. -/
  | selectAddress
  /-- The child process dies. -/
  | die

variable {ρ : Type}

/-! ## The server of the child -/

/-- The order of the entries `[weight, address]` of the heap. -/
def weightedLt (x y : ℕ × String) : Bool := x.1 < y.1 ∨ (x.1 = y.1 ∧ x.2 < y.2)

/-- The heap of a new server. -/
def newHeap (addresses : List String) : List (ℕ × String) :=
  Heapq.heapify weightedLt (addresses.map fun address => (0, address))

/-- `add_llm_server_address`. -/
def addLlmServerAddress (heap : List (ℕ × String)) (address : String) : List (ℕ × String) :=
  if heap.any fun x => x.2 = address then heap else Heapq.heappush weightedLt heap (0, address)

/-- `clear_llm_server_addresses`. -/
def clearLlmServerAddresses (_heap : List (ℕ × String)) : List (ℕ × String) := []

/-- The selection of an address (`get_llm_server_addresses`, `create_llm_config`): the first entry
gets one more weight and moves down. -/
def selectLlmServerAddress : List (ℕ × String) → List (ℕ × String)
  | [] => []
  | (weight, address) :: heap =>
    Heapq.heapreplace weightedLt ((weight + 1, address) :: heap) (weight + 1, address)

/-! ## The event loop -/

/-- The child that `server_process` refers to, when it is alive (`_is_server_running`). -/
def State.serverRunning (s : State ρ) : Option Child := s.child.filter fun c => c.alive

/-- Put a request on `request_queue`. -/
def Child.put (c : Child) (r : Request) : Child := { c with requests := c.requests ++ [r] }

/-- A control endpoint puts its request and waits. -/
def State.sendControl (s : State ρ) (c : Child) (kind : ControlKind) (r : ℕ → Request) : State ρ :=
  { s with
    child := some (c.put (r s.nextUuid))
    control := some (kind, s.nextUuid)
    nextUuid := s.nextUuid + 1 }

/-- A child that has just been started. -/
def newChild (addresses : List String) : Child where
  alive := true
  addresses := addresses
  heap := none
  running := true
  requests := []
  acks := []
  jobs := []
  submitted := fun _ => none

/-- `_reject_all_pending_futures`: every future in the map that is not done gets an exception. -/
def State.rejectAll (s : State ρ) (error : String) : State ρ :=
  { s with
    futures := fun _ => none
    calls := s.calls.mapIdx fun i c =>
      if s.futures c.jobId = some i ∧ c.future.isDone = false then
        { c with future := .failed error }
      else c }

/-- The last section of a `/process` call `i` that has failed: the pop under its id, and the
cancellation of the future that it finds. -/
def State.popAndCancel (s : State ρ) (i : ℕ) (jobId : JobId) : State ρ :=
  match s.futures jobId with
  | none => s
  | some k =>
    { s with
      futures := Function.update s.futures jobId none
      calls := s.calls.modify k fun c =>
        if c.future.isDone then c else { c with future := .cancelled }
      removed := s.removed ++ [(i, k)] }

/-- The end of a failed `/process` call leaves all alone but the calls and their futures. -/
lemma State.popAndCancel_frame (s : State ρ) (i : ℕ) (jobId : JobId) :
    (s.popAndCancel i jobId).buffer = s.buffer ∧ (s.popAndCancel i jobId).child = s.child ∧
      (s.popAndCancel i jobId).control = s.control ∧
      (s.popAndCancel i jobId).consumed = s.consumed := by
  unfold State.popAndCancel
  split <;> exact ⟨rfl, rfl, rfl, rfl⟩

/-- A new `/process` call. -/
def State.submit (s : State ρ) (c : Child) (jobId : JobId) : State ρ :=
  { s with
    calls := s.calls ++ [⟨jobId, .pending, .waiting⟩]
    futures := Function.update s.futures jobId (some s.calls.length)
    child := some (c.put (.process jobId s.calls.length)) }

/-- The rest of a `/process` call whose future is done. -/
def State.finish (s : State ρ) (i : ℕ) (c : ProcessCall ρ) : State ρ :=
  match c.future with
  | .pending => s
  | .result r => { s with calls := s.calls.set i { c with pc := .returned r } }
  | .failed error =>
    State.popAndCancel
      { s with
        calls := s.calls.set i { c with pc := .raised 500 s!"Failed to process job: {error}" } }
      i c.jobId
  | .cancelled => { s with calls := s.calls.set i { c with pc := .aborted } }
  | .timedOut =>
    let child := s.child.map fun d => d.put (.cancel c.jobId s.nextUuid (some i))
    State.popAndCancel
      { s with
        calls := s.calls.set i
          { c with pc := .raised 500 "Failed to process job: 504: Processing timed out" }
        child := child
        nextUuid := s.nextUuid + 1 }
      i c.jobId

/-- A step of the event loop that needs the control endpoint to be over. -/
def State.loopStep (s : State ρ) : Label ρ → Option (State ρ)
  | .start =>
    match s.serverRunning with
    | some _ => none
    | none => some { s with child := some (newChild s.buffer), accepting := true }
  | .stop =>
    s.serverRunning.map fun c =>
      State.sendControl
        (State.rejectAll { s with accepting := false } "Server is stopping; job cancelled") c
        .stop .stop
  | .status => s.serverRunning.map fun c => s.sendControl c .status .status
  | .cancel jobId =>
    s.serverRunning.map fun c => s.sendControl c .cancel fun r => .cancel (.client jobId) r none
  | .addLlmServer address =>
    let s := { s with buffer := if address ∈ s.buffer then s.buffer else s.buffer ++ [address] }
    match s.serverRunning with
    | some c => some (s.sendControl c .addLlmServer (.addLlmServer address))
    | none => some s
  | .clearLlmServer =>
    let s := { s with buffer := [] }
    match s.serverRunning with
    | some c => some (s.sendControl c .clearLlmServer .clearLlmServer)
    | none => some s
  | .process jobId =>
    if s.accepting then
      s.serverRunning.map fun c =>
        match jobId with
        | some id =>
          if id = "" then { s.submit c (.uuid s.nextUuid) with nextUuid := s.nextUuid + 1 }
          else s.submit c (.client id)
        | none => { s.submit c (.uuid s.nextUuid) with nextUuid := s.nextUuid + 1 }
    else none
  | .timeout i =>
    (s.calls[i]?).bind fun c =>
      match c.pc, c.future with
      | .waiting, .pending => some { s with calls := s.calls.set i { c with future := .timedOut } }
      | _, _ => none
  | .cleanup i =>
    (s.calls[i]?).bind fun c =>
      match c.pc with
      | .waiting =>
        if c.future.isDone then
          let s' := { s with calls := s.calls.set i { c with pc := .waking } }
          match s.futures c.jobId with
          | some k =>
            some { s' with
              futures := Function.update s.futures c.jobId none
              removed := s.removed ++ [(i, k)] }
          | none => some s'
        else none
      | _ => none
  | .wake i =>
    (s.calls[i]?).bind fun c =>
      match c.pc with
      | .waking => some (s.finish i c)
      | _ => none
  | _ => none

/-! ## The child -/

/-- The main loop of the child handles a request; the second part is the call on whose behalf a job
is cancelled, with the call of the job. -/
def Child.handle (c : Child) (heap : List (ℕ × String)) : Request → Child × Option (ℕ × ℕ)
  | .process jobId call =>
    ({ c with
      jobs := c.jobs ++ [⟨jobId, call, .queued⟩]
      submitted := Function.update c.submitted jobId (some c.jobs.length) }, none)
  | .cancel jobId requestId sender =>
    let c' := { c with acks := c.acks ++ [⟨.cancel, requestId⟩] }
    match (c.submitted jobId).bind fun n => (c.jobs[n]?).map fun job => (n, job) with
    | none => (c', none)
    | some (n, job) =>
      -- A job that has not been started is not run; one that runs is told to end.
      ({ c' with
        submitted := Function.update c.submitted jobId none
        jobs := if job.pc = .queued then c.jobs.set n { job with pc := .ended } else c.jobs },
        if job.pc = .ended then none else sender.map fun i => (i, job.call))
  | .addLlmServer address requestId =>
    ({ c with
      heap := some (addLlmServerAddress heap address)
      acks := c.acks ++ [⟨.addLlmServer, requestId⟩] }, none)
  | .clearLlmServer requestId =>
    ({ c with
      heap := some (clearLlmServerAddresses heap)
      acks := c.acks ++ [⟨.clearLlmServer, requestId⟩] }, none)
  | .status requestId => ({ c with acks := c.acks ++ [⟨.status, requestId⟩] }, none)
  -- Every submitted job is told to end, and those that have not been started are not run.
  | .stop requestId =>
    ({ c with
      running := false
      jobs := c.jobs.mapIdx fun n job =>
        if c.submitted job.jobId = some n ∧ job.pc = .queued then { job with pc := .ended } else job
      submitted := fun _ => none
      acks := c.acks ++ [⟨.stop, requestId⟩] }, none)

/-- A step of the child. -/
def State.childStep (s : State ρ) (c : Child) : Label ρ → Option (State ρ)
  | .boot =>
    match c.heap with
    | none => some { s with child := some { c with heap := some (newHeap c.addresses) } }
    | some _ => none
  | .handle =>
    match c.heap, c.running, c.requests with
    | some heap, true, r :: requests =>
      let result := Child.handle { c with requests := requests } heap r
      some { s with child := some result.1, removed := s.removed ++ result.2.toList }
    | _, _, _ => none
  | .runJob n =>
    (c.jobs[n]?).bind fun job =>
      if job.pc = .queued then
        some { s with child := some { c with jobs := c.jobs.set n { job with pc := .running } } }
      else none
  | .endJob n reply =>
    (c.jobs[n]?).bind fun job =>
      if job.pc = .running then
        some { s with
          child := some { c with jobs := c.jobs.set n { job with pc := .ended } }
          results := s.results ++ reply.toList.map fun r => ⟨job.jobId, job.call, r⟩ }
      else none
  | .selectAddress =>
    c.heap.map fun heap =>
      { s with child := some { c with heap := some (selectLlmServerAddress heap) } }
  | .die => some { s with child := some { c with alive := false } }
  | _ => none

/-! ## The listener and the control queue -/

/-- What the listener sets on a future that is not done. -/
def FutureState.ofReply : Except String ρ → FutureState ρ
  | .ok r => .result r
  | .error e => .failed e

/-- A step of the listener. -/
def State.listenerStep (s : State ρ) : Label ρ → Option (State ρ)
  | .listen =>
    match s.results with
    | [] => none
    | m :: results =>
      match s.futures m.jobId with
      | none => some { s with results := results }
      | some k =>
        some { s with
          results := results
          futures := Function.update s.futures m.jobId none
          handling := s.handling ++ [(k, m)]
          removed := s.removed ++ [(m.call, k)] }
  | .resolve =>
    match s.handling with
    | [] => none
    | (k, m) :: handling =>
      (s.calls[k]?).map fun c =>
        if c.future.isDone then { s with handling := handling }
        else
          { s with
            handling := handling
            calls := s.calls.set k { c with future := .ofReply m.reply }
            resolved := s.resolved ++ [(k, m.call)] }
  | _ => none

/-- The end of a control endpoint. After a stop the child is killed and the queues are given up. -/
def State.endControl (s : State ρ) : ControlKind → State ρ
  | .stop => { s with control := none, child := none, results := [] }
  | _ => { s with control := none }

/-- The endpoint that waits gets a message, or its wait times out. -/
def State.controlStep (s : State ρ) (kind : ControlKind) (requestId : ℕ) (c : Child) :
    Label ρ → Option (State ρ)
  | .ack =>
    match c.acks with
    | [] => none
    | ack :: acks =>
      some (State.endControl
        { s with
          child := some { c with acks := acks }
          consumed := s.consumed ++ [(requestId, ack.requestId)] } kind)
  | .ackTimeout =>
    match c.acks with
    | [] => some (s.endControl kind)
    | _ => none
  | _ => none

/-- **The API server and its child**: one move. -/
def step (s : State ρ) (l : Label ρ) : Option (State ρ) :=
  match l with
  | .listen | .resolve => s.listenerStep l
  | .boot | .handle | .runJob _ | .endJob _ _ | .selectAddress | .die =>
    s.serverRunning.bind fun c => s.childStep c l
  | .ack | .ackTimeout =>
    match s.control, s.child with
    | some (kind, requestId), some c => s.controlStep kind requestId c l
    | _, _ => none
  | _ =>
    match s.control with
    | some _ => none
    | none => s.loopStep l

/-- The API server before the first request. -/
def initState : State ρ where
  buffer := []
  accepting := false
  child := none
  futures := fun _ => none
  calls := []
  results := []
  handling := []
  control := none
  nextUuid := 0
  consumed := []
  resolved := []
  removed := []

/-! ## Inversion -/

section Inversion

variable {s s' : State ρ}

/-- A child that is alive. -/
lemma serverRunning_eq_some {c : Child} :
    s.serverRunning = some c ↔ s.child = some c ∧ c.alive = true := by
  rw [State.serverRunning, Option.filter_eq_some_iff]

/-- **Which party has taken a step**: the listener, the child, the control endpoint that waits, or
the event loop when no control endpoint waits. -/
theorem step_cases {l : Label ρ} (hstep : step s l = some s') :
    s.listenerStep l = some s' ∨
    (∃ c, s.child = some c ∧ c.alive = true ∧ s.childStep c l = some s') ∨
    (∃ kind requestId c, s.control = some (kind, requestId) ∧ s.child = some c ∧
      s.controlStep kind requestId c l = some s') ∨
    (s.control = none ∧ s.loopStep l = some s') := by
  have hchild : (s.serverRunning.bind fun c => s.childStep c l) = some s' →
      ∃ c, s.child = some c ∧ c.alive = true ∧ s.childStep c l = some s' := by
    intro h
    obtain ⟨c, hc, h⟩ := Option.bind_eq_some_iff.mp h
    obtain ⟨hc, ha⟩ := serverRunning_eq_some.1 hc
    exact ⟨c, hc, ha, h⟩
  have hcontrol : (match s.control, s.child with
      | some (kind, requestId), some c => s.controlStep kind requestId c l
      | _, _ => none) = some s' →
      ∃ kind requestId c, s.control = some (kind, requestId) ∧ s.child = some c ∧
        s.controlStep kind requestId c l = some s' := by
    intro h
    split at h
    · exact ⟨_, _, _, ‹_›, ‹_›, h⟩
    · cases h
  have hloop : (match s.control with
      | some _ => none
      | none => s.loopStep l) = some s' → s.control = none ∧ s.loopStep l = some s' := by
    intro h
    split at h
    · cases h
    · exact ⟨‹_›, h⟩
  cases l with
  | listen | resolve => exact .inl hstep
  | boot | handle | runJob | endJob | selectAddress | die => exact .inr (.inl (hchild hstep))
  | ack | ackTimeout => exact .inr (.inr (.inl (hcontrol hstep)))
  | _ => exact .inr (.inr (.inr (hloop hstep)))

end Inversion

end ProRLAgent.ApiServer
