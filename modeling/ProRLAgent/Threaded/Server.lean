import Mathlib.Logic.Function.Basic
import Mathlib.Data.List.Basic
import ProRLAgent.Basic
import ProRLAgent.Lib.Machine
import ProRLAgent.Jobs.FinalResult

set_option relaxedAutoImplicit false
set_option autoImplicit false

/-!
# The threaded server

`OpenHandsServer` of `async_server.py` runs three pools of workers. A `process` call puts its
job's details into `_job_details` and its id on `init_queue`, and waits for the job's completion
event; the workers pass the id from queue to queue. `cancel_job` and `stop` set the event from
outside. Several places close the runtime of a job (`if job.runtime: cleanup; job.runtime = None`)
without a lock.

The machine below has a record per thread, and a step is what a thread does between two accesses
to shared data. `_job_details_lock` is a flag of the state where a holder lets other threads move
in between (`cancel_job`, `stop`); a section under `_state_lock`, and a section under
`_job_details_lock` with a single access, is one step. What a handler does, and what the handler
of an exception does, is chosen by the label, so a timeout or a cancelled task is an outcome that
is possible at any moment. The phases of the job timer are not part of this machine.

Two components are history variables, which no step reads: the job that each runtime was made for,
and the runtimes that were passed to `_cleanup_job_runtime`.

## Main definitions

* `ThreadedServer.WorkerPc`, `ThreadedServer.CallPc`, `ThreadedServer.CancelPc`,
  `ThreadedServer.StopPc` — where the threads stand.
* `ThreadedServer.State`, `ThreadedServer.Label`, `ThreadedServer.step` — the machine.

## Main results

* `ThreadedServer.closeRuntime_cases` — what a place that closes a runtime can change.
-/

namespace ProRLAgent.ThreadedServer

/-- The kinds of workers, each with its queue and its set of active jobs (`JobType`). -/
inductive JobType where
  | init
  | run
  | eval
  deriving DecidableEq, Repr

/-- The queue entry that stops a worker. -/
def stopSentinel : String := "__STOP__"

/-- The three accesses of a place that closes a runtime: the check, the call of
`_cleanup_job_runtime` with what the field holds then, and the assignment of `None`. -/
inductive CloseStage where
  | check
  | close
  | clear
  deriving DecidableEq, Repr

/-- How a handler of a phase ended. -/
inductive HandlerOutcome where
  /-- The init handler returned a new runtime. -/
  | initialized
  | ran (results : ResultDict)
  | evaluated (report : EvalReport)
  /-- A `TimeoutError`: the time ran out or the task was cancelled. -/
  | timeout
  /-- Any other exception, a missing handler included. -/
  | failed

/-- Where a worker stands in `_worker`. It knows a job by its id and by the details object, which
is named by the index of the `process` call that made it. -/
inductive WorkerPc where
  | waiting
  /-- It has taken the id from its queue. -/
  | got (j : String)
  /-- It has found the job's details. -/
  | found (j : String) (r : ℕ)
  /-- The id is in the active set and the handler runs. -/
  | active (j : String) (r : ℕ)
  /-- The init handler has returned the runtime, which is not yet assigned. -/
  | produced (j : String) (r : ℕ) (runtime : ℕ)
  | ran (j : String) (r : ℕ) (results : ResultDict)
  | evaluated (j : String) (r : ℕ) (report : EvalReport)
  /-- In the handler of a `TimeoutError`. -/
  | timedOut (j : String) (r : ℕ)
  /-- A run worker closes the runtime, after a success or in the handler of an exception. -/
  | cleanup (j : String) (r : ℕ) (stage : CloseStage) (success : Bool)
  /-- At the call of the exception function. -/
  | handling (j : String) (r : ℕ)
  /-- At the `put` on the next queue. -/
  | putting (j : String) (r : ℕ)
  /-- At the completion event. -/
  | setting (j : String) (r : ℕ)
  /-- In the `finally` block. -/
  | leaving (j : String)
  /-- In the `finally` block, with an exception that ends the worker. -/
  | crashing (j : String)
  | crashed
  | stopped

/-- A worker and its kind. -/
structure Worker where
  kind : JobType
  pc : WorkerPc

/-- Where a call stands in `process`. -/
inductive CallPc where
  /-- At the insertion into `_job_details`. -/
  | insert
  /-- At the `put` on `init_queue`. -/
  | put
  /-- Waiting for the completion event. -/
  | waiting
  /-- The final result is there; at `if job_details.runtime`. -/
  | check (result : ResultDict)
  | close (result : ResultDict)
  /-- At the deletion from `_job_details`. -/
  | delete (result : ResultDict)
  | returned (result : ResultDict)
  | raised (e : PyError)

/-- A `process` call with the details of its job. -/
structure Call where
  id : String
  pc : CallPc
  job : JobDetails

/-- Where a `cancel_job` call stands. From `flag` to `delete` it holds `_job_details_lock`. -/
inductive CancelPc where
  | check
  | lock
  | flag (r : ℕ)
  | signal (r : ℕ)
  | cleanup (r : ℕ) (stage : CloseStage)
  | delete
  | discard
  | done
  | raised (e : PyError)

/-- A `cancel_job` call. `early` is a history variable: the job whose completion event was unset
when this call set it. -/
structure Cancel where
  id : String
  pc : CancelPc
  early : Option ℕ

/-- Where a `stop` call stands. From `flagJob` to `cleanup` it holds `_job_details_lock`. -/
inductive StopPc where
  | flag
  | snapshot
  /-- The ids of the snapshot that are still to be signalled. -/
  | signal (pending : List String)
  | flagJob (r : ℕ) (pending : List String)
  | setJob (r : ℕ) (pending : List String)
  | cleanup (r : ℕ) (stage : CloseStage) (pending : List String)
  /-- The stop sentinels that are still to be put on the queue of this kind. -/
  | putStops (k : JobType) (n : ℕ)
  | clearSets
  | clearDetails
  | clearQueue (k : JobType)
  | done

/-- A `stop` call. `waiters` is a history variable: the calls that waited for their completion
event when `stop` was called. -/
structure Stop where
  pc : StopPc
  waiters : List ℕ

/-- The state of the server and its threads. -/
structure State where
  queue : JobType → List String
  active : JobType → List String
  discarded : List String
  /-- `_job_details`: the call whose job stands under the id. -/
  details : String → Option ℕ
  detailsLocked : Bool
  running : Bool
  workers : List Worker
  calls : List Call
  cancels : List Cancel
  stops : List Stop
  /-- History: entry `x` is the job that runtime `x` was made for. -/
  created : List ℕ
  /-- History: the runtimes that were passed to `_cleanup_job_runtime`. -/
  closed : List ℕ

/-- What a step of a worker leaves to its environment. -/
inductive WorkerAct where
  | go
  | handler (o : HandlerOutcome)
  /-- What the exception function returns or raises. -/
  | handled (r : Except PyError ResultDict)

/-- The moves of the machine. -/
inductive Label where
  /-- A `process` call begins. -/
  | submit (j : String) (inst : ResultDict)
  /-- The next step of a `process` call; `p` is the partial result that `final_result` finds. -/
  | call (i : ℕ) (p : Except PyError PartialResult)
  | worker (w : ℕ) (a : WorkerAct)
  | cancelBegin (j : String)
  | cancel (k : ℕ)
  | stopBegin
  /-- The next step of a `stop` call; `n` picks the next id of its snapshot, a set. -/
  | stop (k : ℕ) (n : ℕ)
  | start

/-! ## Access to the state -/

/-- Change the details of the job of call `r`. -/
def State.modifyJob (s : State) (r : ℕ) (f : JobDetails → JobDetails) : State :=
  { s with calls := s.calls.modify r fun c => { c with job := f c.job } }

/-- The runtime of the job of call `r`. -/
def State.runtimeOf (s : State) (r : ℕ) : Option ℕ :=
  (s.calls[r]?).bind fun c => c.job.runtime

def State.setWorker (s : State) (w : ℕ) (k : JobType) (pc : WorkerPc) : State :=
  { s with workers := s.workers.set w ⟨k, pc⟩ }

def State.setCall (s : State) (i : ℕ) (c : Call) : State :=
  { s with calls := s.calls.set i c }

def State.setCancel (s : State) (k : ℕ) (c : Cancel) : State :=
  { s with cancels := s.cancels.set k c }

def State.setStop (s : State) (k : ℕ) (t : Stop) : State :=
  { s with stops := s.stops.set k t }

/-- `set.add`. -/
def addTo (xs : List String) (j : String) : List String := if j ∈ xs then xs else xs ++ [j]

/-- `set.discard`. -/
def discardFrom (xs : List String) (j : String) : List String := xs.filter (· ≠ j)

/-- `put` on a queue. -/
def State.enqueue (s : State) (k : JobType) (j : String) : State :=
  { s with queue := Function.update s.queue k (s.queue k ++ [j]) }

/-- One access of a place that closes the runtime of the job of call `r`, and where it goes
next. -/
def State.closeRuntime (s : State) (r : ℕ) : CloseStage → State × Option CloseStage
  | .check => (s, if (s.runtimeOf r).isSome then some .close else none)
  -- The field is read again: another thread may have cleared it.
  | .close => ({ s with closed := s.closed ++ (s.runtimeOf r).toList }, some .clear)
  | .clear => (s.modifyJob r fun job => { job with runtime := none }, none)

/-! ## The steps of the threads -/

/-- Where a worker goes that has caught an exception. -/
def afterException (k : JobType) (j : String) (r : ℕ) : WorkerPc :=
  match k with
  | .run => .cleanup j r .check false
  | _ => .handling j r

/-- The queue that a worker passes its jobs to. -/
def nextQueue : JobType → JobType
  | .init => .run
  | _ => .eval

/-- The end of a handler. -/
def handlerStep (s : State) (w : ℕ) (k : JobType) (j : String) (r : ℕ) :
    HandlerOutcome → Option State
  | .initialized =>
    if k = .init then
      some { s.setWorker w k (.produced j r s.created.length) with created := s.created ++ [r] }
    else none
  | .ran results => if k = .run then some (s.setWorker w k (.ran j r results)) else none
  | .evaluated report => if k = .eval then some (s.setWorker w k (.evaluated j r report)) else none
  | .timeout => some (s.setWorker w k (.timedOut j r))
  | .failed => some (s.setWorker w k (afterException k j r))

/-- A step of worker `w` of kind `k`. -/
def workerStep (s : State) (w : ℕ) (k : JobType) : WorkerPc → WorkerAct → Option State
  | .waiting, .go =>
    match s.queue k with
    | [] => none
    | j :: q =>
      let s' := { s with queue := Function.update s.queue k q }
      some (s'.setWorker w k (if j = stopSentinel then .stopped else .got j))
  | .got j, .go =>
    if s.detailsLocked then none
    else
      match s.details j with
      | none => some (s.setWorker w k .waiting)
      | some r => some (s.setWorker w k (.found j r))
  | .found j r, .go =>
    if j ∈ s.discarded then
      some { s.setWorker w k .waiting with discarded := discardFrom s.discarded j }
    else
      some { s.setWorker w k (.active j r) with
        active := Function.update s.active k (addTo (s.active k) j) }
  | .active j r, .handler o => handlerStep s w k j r o
  | .produced j r x, .go =>
    some ((s.modifyJob r fun job => { job with runtime := some x }).setWorker w k (.putting j r))
  -- The time runs out before the task's result is fetched: the runtime is dropped.
  | .produced j r _, .handler .timeout => some (s.setWorker w k (.timedOut j r))
  | .ran j r results, .go =>
    some ((s.modifyJob r fun job => { job with runResults := some results }).setWorker w k
      (.cleanup j r .check true))
  | .evaluated j r report, .go =>
    some ((s.modifyJob r fun job => { job with evalResults := report.unwrap }).setWorker w k
      (.setting j r))
  | .timedOut j r, .go =>
    some ((s.modifyJob r fun job => { job with timeoutError := true }).setWorker w k
      (afterException k j r))
  | .cleanup j r stage success, .go =>
    let (s', next) := s.closeRuntime r stage
    match next with
    | some stage => some (s'.setWorker w k (.cleanup j r stage success))
    | none => some (s'.setWorker w k (if success then .putting j r else .handling j r))
  | .handling j r, .handled (.ok results) =>
    some ((s.modifyJob r fun job => { job with results := some results }).setWorker w k
      (.setting j r))
  -- The exception leaves the loop: nobody sets the completion event.
  | .handling j _, .handled (.error _) => some (s.setWorker w k (.crashing j))
  | .putting j _, .go => some ((s.enqueue (nextQueue k) j).setWorker w k (.leaving j))
  | .setting j r, .go =>
    some ((s.modifyJob r fun job => { job with event := true }).setWorker w k (.leaving j))
  | .leaving j, .go =>
    some { s.setWorker w k .waiting with
      active := Function.update s.active k (discardFrom (s.active k) j) }
  | .crashing j, .go =>
    some { s.setWorker w k .crashed with
      active := Function.update s.active k (discardFrom (s.active k) j) }
  | _, _ => none

/-- A step of the `process` call `i`. -/
def callStep (s : State) (i : ℕ) (c : Call) (p : Except PyError PartialResult) :
    CallPc → Option State
  | .insert =>
    if s.detailsLocked then none
    else
      some { s.setCall i { c with pc := .put } with
        details := Function.update s.details c.id (some i) }
  | .put => some ((s.enqueue .init c.id).setCall i { c with pc := .waiting })
  | .waiting =>
    if c.job.event then
      match finalResult c.job p with
      | .ok result => some (s.setCall i { c with pc := .check result })
      | .error e => some (s.setCall i { c with pc := .raised e })
    else none
  | .check result =>
    some (s.setCall i
      { c with pc := if c.job.runtime.isSome then .close result else .delete result })
  -- The runtime is closed and the field keeps it.
  | .close result =>
    some { s.setCall i { c with pc := .delete result } with
      closed := s.closed ++ c.job.runtime.toList }
  | .delete result =>
    if s.detailsLocked then none
    else
      match s.details c.id with
      | none => some (s.setCall i { c with pc := .raised (.keyError c.id) })
      | some _ =>
        some { s.setCall i { c with pc := .returned result } with
          details := Function.update s.details c.id none }
  | .returned _ | .raised _ => none

/-- A step of the `cancel_job` call `k`. -/
def cancelStep (s : State) (k : ℕ) (c : Cancel) : CancelPc → Option State
  | .check =>
    if s.running then
      match s.details c.id with
      | some _ => some (s.setCancel k { c with pc := .lock })
      | none =>
        some (s.setCancel k { c with pc := .raised (.valueError ("Job " ++ c.id ++ " not found")) })
    else some (s.setCancel k { c with pc := .raised (.runtimeError "Server is not running") })
  | .lock =>
    if s.detailsLocked then none
    else
      let pc := match s.details c.id with
        | some r => CancelPc.flag r
        | none => CancelPc.delete
      some { s.setCancel k { c with pc := pc } with detailsLocked := true }
  | .flag r =>
    some ((s.modifyJob r fun job => { job with timeoutError := true }).setCancel k
      { c with pc := .signal r })
  | .signal r =>
    let unset := (s.calls[r]?).any fun d => !d.job.event
    some ((s.modifyJob r fun job => { job with event := true }).setCancel k
      { c with pc := .cleanup r .check, early := if unset then some r else c.early })
  | .cleanup r stage =>
    let (s', next) := s.closeRuntime r stage
    match next with
    | some stage => some (s'.setCancel k { c with pc := .cleanup r stage })
    | none => some (s'.setCancel k { c with pc := .delete })
  | .delete =>
    match s.details c.id with
    | some _ =>
      some { s.setCancel k { c with pc := .discard } with
        details := Function.update s.details c.id none
        detailsLocked := false }
    | none =>
      some { s.setCancel k { c with pc := .raised (.keyError c.id) } with detailsLocked := false }
  | .discard =>
    some { s.setCancel k { c with pc := .done } with
      active := fun kind => discardFrom (s.active kind) c.id
      discarded := addTo s.discarded c.id }
  | .done | .raised _ => none

/-- The kind whose queue `stop` turns to after this one. -/
def nextKind : JobType → Option JobType
  | .init => some .run
  | .run => some .eval
  | .eval => none

/-- A step of the `stop` call `k`; `max` are the configured numbers of workers. -/
def stopStep (max : JobType → ℕ) (s : State) (k : ℕ) (t : Stop) (n : ℕ) : StopPc → Option State
  | .flag => some { s.setStop k { t with pc := .snapshot } with running := false }
  | .snapshot =>
    some (s.setStop k
      { t with pc := .signal (s.active .init ++ s.active .run ++ s.active .eval) })
  | .signal [] => some (s.setStop k { t with pc := .putStops .init (max .init) })
  | .signal (j :: js) =>
    if s.detailsLocked then none
    else
      match (j :: js)[n]? with
      | none => none
      | some j' =>
        let rest := (j :: js).eraseIdx n
        match s.details j' with
        | some r => some { s.setStop k { t with pc := .flagJob r rest } with detailsLocked := true }
        | none => some (s.setStop k { t with pc := .signal rest })
  | .flagJob r pending =>
    some ((s.modifyJob r fun job => { job with timeoutError := true }).setStop k
      { t with pc := .setJob r pending })
  | .setJob r pending =>
    some ((s.modifyJob r fun job => { job with event := true }).setStop k
      { t with pc := .cleanup r .check pending })
  | .cleanup r stage pending =>
    let (s', next) := s.closeRuntime r stage
    match next with
    | some stage => some (s'.setStop k { t with pc := .cleanup r stage pending })
    | none => some { s'.setStop k { t with pc := .signal pending } with detailsLocked := false }
  | .putStops kind (m + 1) =>
    some ((s.enqueue kind stopSentinel).setStop k { t with pc := .putStops kind m })
  | .putStops kind 0 =>
    match nextKind kind with
    | some kind => some (s.setStop k { t with pc := .putStops kind (max kind) })
    | none => some (s.setStop k { t with pc := .clearSets })
  | .clearSets =>
    some { s.setStop k { t with pc := .clearDetails } with
      active := fun _ => []
      discarded := [] }
  | .clearDetails =>
    if s.detailsLocked then none
    else
      some { s.setStop k { t with pc := .clearQueue .init } with
        details := fun _ => none }
  | .clearQueue kind =>
    match s.queue kind with
    | _ :: q => some { s with queue := Function.update s.queue kind q }
    | [] =>
      match nextKind kind with
      | some kind => some (s.setStop k { t with pc := .clearQueue kind })
      | none => some (s.setStop k { t with pc := .done })
  | .done => none

/-- The calls that wait for their completion event. -/
def State.waiters (s : State) : List ℕ :=
  (List.range s.calls.length).filter fun i =>
    (s.calls[i]?).any fun c => match c.pc with | .waiting => true | _ => false

/-- The workers that `start` submits to its executor. -/
def newWorkers (max : JobType → ℕ) : List Worker :=
  List.replicate (max .init) ⟨.init, .waiting⟩ ++ List.replicate (max .run) ⟨.run, .waiting⟩ ++
    List.replicate (max .eval) ⟨.eval, .waiting⟩

/-- The record of a `process` call that begins. -/
def newCall (s : State) (j : String) (inst : ResultDict) : Call :=
  { id := j
    pc := if s.running then .insert else .raised (.runtimeError "Server is not running")
    job := { inst := inst } }

/-- **The threaded server**: one move. -/
def step (max : JobType → ℕ) (s : State) : Label → Option State
  | .submit j inst => some { s with calls := s.calls ++ [newCall s j inst] }
  | .call i p => (s.calls[i]?).bind fun c => callStep s i c p c.pc
  | .worker w a => (s.workers[w]?).bind fun x => workerStep s w x.kind x.pc a
  | .cancelBegin j => some { s with cancels := s.cancels ++ [⟨j, .check, none⟩] }
  | .cancel k => (s.cancels[k]?).bind fun c => cancelStep s k c c.pc
  | .stopBegin =>
    let pc := if s.running then StopPc.flag else StopPc.done
    some { s with stops := s.stops ++ [⟨pc, s.waiters⟩] }
  | .stop k n => (s.stops[k]?).bind fun t => stopStep max s k t n t.pc
  | .start =>
    if s.running then none
    else some { s with running := true, workers := s.workers ++ newWorkers max }

/-- The server after its first `start`. -/
def initState (max : JobType → ℕ) : State where
  queue := fun _ => []
  active := fun _ => []
  discarded := []
  details := fun _ => none
  detailsLocked := false
  running := true
  workers := newWorkers max
  calls := []
  cancels := []
  stops := []
  created := []
  closed := []

/-! ## What the accesses change -/

/-- The calls after a change of one job's details. -/
lemma getElem?_modifyJob (s : State) (r : ℕ) (f : JobDetails → JobDetails) (i : ℕ) :
    (s.modifyJob r f).calls[i]? =
      (s.calls[i]?).map fun c => if r = i then { c with job := f c.job } else c := by
  simp only [State.modifyJob, List.getElem?_modify]
  cases s.calls[i]? with
  | none => rfl
  | some c => by_cases hri : r = i <;> simp [hri]

/-- What is on a queue after a `put`. -/
lemma mem_queue_enqueue {s : State} {k k' : JobType} {i j : String}
    (h : i ∈ (s.enqueue k j).queue k') : i ∈ s.queue k' ∨ i = j := by
  unfold State.enqueue at h
  by_cases hk : k' = k
  · subst hk
    simpa using h
  · exact .inl (by simpa [Function.update_of_ne hk] using h)

/-- What is on a queue after a `get`. -/
lemma mem_queue_dequeue {s : State} {k k' : JobType} {i j : String} {q : List String}
    (hq : s.queue k = j :: q) (h : i ∈ Function.update s.queue k q k') : i ∈ s.queue k' := by
  by_cases hk : k' = k
  · subst hk
    rw [hq]
    exact List.mem_cons_of_mem j (by simpa using h)
  · simpa [Function.update_of_ne hk] using h

/-- A place that closes a runtime changes nothing, or the log of closed runtimes, or the runtime
field. -/
lemma closeRuntime_cases (s : State) (r : ℕ) (stage : CloseStage) :
    (s.closeRuntime r stage).1 = s ∨
      (s.closeRuntime r stage).1 = { s with closed := s.closed ++ (s.runtimeOf r).toList } ∨
      (s.closeRuntime r stage).1 = s.modifyJob r fun job => { job with runtime := none } := by
  cases stage with
  | check => exact .inl rfl
  | close => exact .inr (.inl rfl)
  | clear => exact .inr (.inr rfl)

end ProRLAgent.ThreadedServer
