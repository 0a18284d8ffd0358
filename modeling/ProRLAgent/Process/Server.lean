import Mathlib.Logic.Function.Basic
import Mathlib.Data.List.Basic
import ProRLAgent.Basic
import ProRLAgent.Lib.Machine

set_option relaxedAutoImplicit false
set_option autoImplicit false

/-!
# The process-based server

`OpenHandsServer.process` of `async_server_process.py` starts one child process per job. The
children share three counting semaphores (`ConcurrencyControl`), a dictionary `job_status` that
says which phase a job holds a permit of, and the lock of that dictionary. A permit can be
returned by the child itself (`Worker.run`), by the last block of `process_job`, by `cancel_job`,
by the tail of `process` and by the dead-job sweep (`_cleanup_dead_job`).

The machine below has one record per `process` call, which also holds the state of its child. A
child moves in the small steps between two calls to the manager process, and it can be killed
between any two of them. A section of the server process that runs with the status lock (or with
`_job_details_lock`) held and cannot be killed is one step. The semaphores are those of
`threading`: `release` has no upper bound. Wall-clock time is not modelled, so the grace period of
the sweep may end at any moment.

## Main definitions

* `ProcessServer.ChildPc` — where a child stands in `process_job` and `Worker.run`.
* `ProcessServer.CallPc` — where a call stands in `process`.
* `ProcessServer.State`, `ProcessServer.Label`, `ProcessServer.step` — the machine.
-/

namespace ProRLAgent.ProcessServer

/-- The phases of a job (`JobType`). -/
inductive JobType where
  | init
  | run
  | eval
  deriving DecidableEq, Repr

/-- The phase that `Worker.run` enters after this one. -/
def JobType.next : JobType → Option JobType
  | .init => some .run
  | .run => some .eval
  | .eval => none

/-- How `run_step` ended: with the job's event unset, with it set, or with an exception. -/
inductive StepEnd where
  | next
  | finish
  | fail
  deriving DecidableEq, Repr

/-- An entry of `job_status`. The index of the child that wrote it is a history variable: no step
decides anything by it. -/
structure StatusWord where
  phase : JobType
  writer : ℕ
  deriving DecidableEq, Repr

/-- Where a child stands in `process_job`. -/
inductive ChildPc where
  /-- At the `acquire` of the phase's semaphore. -/
  | acquiring (p : JobType)
  /-- It has the permit and waits for the status lock. -/
  | acquired (p : JobType)
  /-- It holds the status lock and has not written its status word. -/
  | locked (p : JobType)
  /-- It holds the status lock and has written its status word. -/
  | written (p : JobType)
  /-- In `run_step`. -/
  | working (p : JobType)
  /-- The `finally` block has released the permit and waits for the status lock. -/
  | released (p : JobType) (e : StepEnd)
  /-- It holds the status lock and has not popped its status word. -/
  | popping (p : JobType) (e : StepEnd)
  /-- It holds the status lock and has popped its status word. -/
  | popped (p : JobType) (e : StepEnd)
  /-- At the `put` on `result_queue`. -/
  | reporting
  /-- In the `finally` block of `process_job`, before the status lock. -/
  | finalLock
  /-- There, with the status lock. -/
  | finalLocked
  /-- There, with the status lock and a popped word whose permit is not yet released. -/
  | finalPopped (w : StatusWord)
  /-- There, before the status lock is given back. -/
  | finalUnlock
  /-- In the last resort of that block: the semaphores still to be released. -/
  | fallback (ps : List JobType)
  /-- The process has ended. -/
  | exited
  deriving DecidableEq, Repr

/-- Where a call stands in `process`. -/
inductive CallPc (ρ : Type) where
  /-- The child is started, `self.jobs` has no entry yet. -/
  | starting
  /-- The entry is made; next is the lookup for the wait. -/
  | registered
  /-- Waiting for the `finished` event of the job state of call `k`. -/
  | waiting (k : ℕ)
  /-- At the read of the result. -/
  | reading
  /-- At the section that pops the status word. -/
  | tail (r : Except PyError ρ)
  /-- At the section that closes and deletes the entry of `self.jobs`. -/
  | closing (r : Except PyError ρ)
  /-- At the `return`, where the job state is destroyed. -/
  | returning (r : Except PyError ρ)
  | returned (r : Except PyError ρ)
  | raised (e : PyError)

/-- The call is over. -/
def CallPc.ended {ρ : Type} : CallPc ρ → Bool
  | .returned _ | .raised _ => true
  | _ => false

/-- The call has still to pop the status word of its job. -/
def CallPc.tailAhead {ρ : Type} : CallPc ρ → Bool
  | .starting | .registered | .waiting _ | .reading | .tail _ => true
  | _ => false

/-- A `process` call with its `JobState` (`finished`, `result`) and its child (`child`, `alive`).
`owed` is a history variable that no step reads: the permit that the child has taken and nobody
has returned. -/
structure ProcessCall (ρ : Type) where
  id : String
  pc : CallPc ρ
  finished : Bool
  result : Option ρ
  child : ChildPc
  alive : Bool
  owed : Option JobType

/-- Where a `cancel_job` call stands. -/
inductive CancelPc where
  | check
  | signal
  | pop
  | done
  | raised (e : PyError)
  deriving DecidableEq, Repr

/-- Where a `_cleanup_dead_job` call stands. -/
inductive SweepPc where
  | check
  | pop
  | close
  | done
  deriving DecidableEq, Repr

/-- The state of the server, its children and the manager process. -/
structure State (ρ : Type) where
  /-- The free permits of the three semaphores. -/
  free : JobType → ℕ
  status : String → Option StatusWord
  /-- The child that holds `job_status_lock`, if any. -/
  statusLock : Option ℕ
  /-- `self.jobs`: the call whose `JobState` stands under the id. -/
  jobs : String → Option ℕ
  calls : List (ProcessCall ρ)
  resultQueue : List (String × ρ)
  cancels : List (String × CancelPc)
  sweeps : List (String × SweepPc)

/-- What a step of a child leaves to its environment. -/
inductive ChildAct (ρ : Type) where
  /-- A step without a choice. -/
  | go
  /-- `run_step` ends. -/
  | work (e : StepEnd)
  /-- The result that `get_results`, or the handler of an exception, puts. -/
  | report (r : ρ)
  /-- A manager call in the last block of `process_job` raises. -/
  | cleanupError

/-- The moves of the machine. -/
inductive Label (ρ : Type) where
  /-- A `process` call for the id starts its child. -/
  | start (j : String)
  /-- The next step of a `process` call. -/
  | call (i : ℕ)
  /-- The next step of a child. -/
  | child (i : ℕ) (a : ChildAct ρ)
  /-- `JobState.close` of a call's job state, from outside the modelled callers. -/
  | terminate (i : ℕ)
  /-- A round of `_result_check_thread_func`. -/
  | deliver
  | cancelBegin (j : String)
  | cancel (k : ℕ)
  /-- `_monitor_dead_processes` selects the job for `_cleanup_dead_job`. -/
  | sweepBegin (j : String)
  | sweep (k : ℕ)

variable {ρ : Type}

/-- Replace the record of call `i`. -/
def State.setCall (s : State ρ) (i : ℕ) (c : ProcessCall ρ) : State ρ :=
  { s with calls := s.calls.set i c }

/-- `release` of a phase's semaphore. -/
def State.release (s : State ρ) (p : JobType) : State ρ :=
  { s with free := Function.update s.free p (s.free p + 1) }

/-- History: the permit of call `i`'s child has been returned. -/
def settle (calls : List (ProcessCall ρ)) (i : ℕ) : List (ProcessCall ρ) :=
  match calls[i]? with
  | some c => calls.set i { c with owed := none }
  | none => calls

/-- The section with the status lock that `cancel_job`, the tail of `process` and
`_cleanup_dead_job` share: pop the status word of the job and release the semaphore it names. -/
def State.popRelease (s : State ρ) (j : String) : State ρ :=
  match s.status j with
  | none => s
  | some w =>
    { s with
      status := Function.update s.status j none
      free := Function.update s.free w.phase (s.free w.phase + 1)
      calls := settle s.calls w.writer }

/-- `JobState.close` of call `k`: `force_terminate` kills the child, whatever it is doing, and the
`finished` event is set. The status lock stays with a child that is killed while it holds it. -/
def State.close (s : State ρ) (k : ℕ) : State ρ :=
  match s.calls[k]? with
  | some c => s.setCall k { c with alive := false, finished := true }
  | none => s

/-- The section that closes the job state under the id and deletes it from `self.jobs`. -/
def State.closeEntry (s : State ρ) (j : String) : State ρ :=
  match s.jobs j with
  | some k => { s.close k with jobs := Function.update s.jobs j none }
  | none => s

/-- Where a child goes when it has left a phase. -/
def afterPhase (p : JobType) : StepEnd → ChildPc
  | .next =>
    match p.next with
    | some q => .acquiring q
    | none => .reporting
  | .finish | .fail => .reporting

/-- A step of the child of call `i`. -/
def childStep (s : State ρ) (i : ℕ) (c : ProcessCall ρ) : ChildPc → ChildAct ρ → Option (State ρ)
  | .acquiring p, .go =>
    if 0 < s.free p then
      some { s with
        free := Function.update s.free p (s.free p - 1)
        calls := s.calls.set i { c with child := .acquired p, owed := some p } }
    else none
  | .acquired p, .go =>
    if s.statusLock = none then
      some { s.setCall i { c with child := .locked p } with statusLock := some i }
    else none
  | .locked p, .go =>
    some { s.setCall i { c with child := .written p } with
      status := Function.update s.status c.id (some ⟨p, i⟩) }
  | .written p, .go =>
    some { s.setCall i { c with child := .working p } with statusLock := none }
  | .working p, .work e =>
    some ((s.release p).setCall i { c with child := .released p e, owed := none })
  | .released p e, .go =>
    if s.statusLock = none then
      some { s.setCall i { c with child := .popping p e } with statusLock := some i }
    else none
  | .popping p e, .go =>
    some { s.setCall i { c with child := .popped p e } with
      status := Function.update s.status c.id none }
  | .popped p e, .go =>
    some { s.setCall i { c with child := afterPhase p e } with statusLock := none }
  | .reporting, .report r =>
    some { s.setCall i { c with child := .finalLock } with
      resultQueue := s.resultQueue ++ [(c.id, r)] }
  | .finalLock, .go =>
    if s.statusLock = none then
      some { s.setCall i { c with child := .finalLocked } with statusLock := some i }
    else none
  | .finalLocked, .go =>
    match s.status c.id with
    | none => some (s.setCall i { c with child := .finalUnlock })
    | some w =>
      some { s.setCall i { c with child := .finalPopped w } with
        status := Function.update s.status c.id none }
  | .finalPopped w, .go =>
    let s' := (s.release w.phase).setCall i { c with child := .finalUnlock }
    some { s' with calls := settle s'.calls w.writer }
  | .finalUnlock, .go =>
    some { s.setCall i { c with child := .exited, alive := false } with statusLock := none }
  | .finalLock, .cleanupError =>
    some (s.setCall i { c with child := .fallback [.init, .run, .eval] })
  -- The `with` statement gives the lock back before the exception is handled.
  | .finalLocked, .cleanupError | .finalPopped _, .cleanupError =>
    some { s.setCall i { c with child := .fallback [.init, .run, .eval] } with statusLock := none }
  | .fallback (p :: ps), .go =>
    some ((s.release p).setCall i { c with child := .fallback ps })
  | .fallback [], .go => some (s.setCall i { c with child := .exited, alive := false })
  | _, _ => none

/-- The result that `process` reads: `dict(self.jobs[job_id].result)`, with every exception turned
into an error. -/
def readResult (s : State ρ) (j : String) : Except PyError ρ :=
  match s.jobs j with
  | none => .error (.keyError j)
  | some k =>
    match s.calls[k]? with
    | none => .error (.keyError j)
    | some d =>
      match d.result with
      | some r => .ok r
      | none => .error (.typeError "'NoneType' object is not iterable")

/-- A step of the `process` call `i`. -/
def callStep (s : State ρ) (i : ℕ) (c : ProcessCall ρ) : CallPc ρ → Option (State ρ)
  | .starting =>
    some { s.setCall i { c with pc := .registered } with
      jobs := Function.update s.jobs c.id (some i) }
  | .registered =>
    match s.jobs c.id with
    | some k => some (s.setCall i { c with pc := .waiting k })
    -- The exception leaves the frame, and with it the job state: its destructor closes it.
    | none =>
      some (s.setCall i
        { c with pc := .raised (.keyError c.id), alive := false, finished := true })
  | .waiting k =>
    match s.calls[k]? with
    | some d => if d.finished then some (s.setCall i { c with pc := .reading }) else none
    | none => none
  | .reading => some (s.setCall i { c with pc := .tail (readResult s c.id) })
  | .tail r =>
    if s.statusLock = none then
      let s' := s.popRelease c.id
      (s'.calls[i]?).map fun c' => s'.setCall i { c' with pc := .closing r }
    else none
  | .closing r =>
    let s' := s.closeEntry c.id
    (s'.calls[i]?).map fun c' => s'.setCall i { c' with pc := .returning r }
  -- `JobState.__del__`: the call drops the last reference to its job state.
  | .returning r =>
    some (s.setCall i { c with pc := .returned r, alive := false, finished := true })
  | .returned _ | .raised _ => none

/-- A step of the `cancel_job` call `k`. -/
def cancelStep (s : State ρ) (k : ℕ) (j : String) : CancelPc → Option (State ρ)
  | .check =>
    match s.jobs j with
    | some _ => some { s with cancels := s.cancels.set k (j, .signal) }
    | none =>
      some { s with
        cancels := s.cancels.set k (j, .raised (.valueError s!"Job {j} not found")) }
  | .signal =>
    let s' := { s with cancels := s.cancels.set k (j, .pop) }
    match (s.jobs j).bind fun i => (s.calls[i]?).map fun c => (i, c) with
    | some (i, c) => some (s'.setCall i { c with finished := true })
    | none => some s'
  | .pop =>
    if s.statusLock = none then
      some { s.popRelease j with cancels := s.cancels.set k (j, .done) }
    else none
  | .done | .raised _ => none

/-- A step of the `_cleanup_dead_job` call `k`. -/
def sweepStep (s : State ρ) (k : ℕ) (j : String) : SweepPc → Option (State ρ)
  | .check =>
    let pc := if (s.status j).isSome then SweepPc.pop else SweepPc.close
    some { s with sweeps := s.sweeps.set k (j, pc) }
  | .pop =>
    if s.statusLock = none then
      some { s.popRelease j with sweeps := s.sweeps.set k (j, .close) }
    else none
  | .close => some { s.closeEntry j with sweeps := s.sweeps.set k (j, .done) }
  | .done => none

/-- A round of the result thread: the result goes to the job state under its id, if there is
one. -/
def deliver (s : State ρ) : Option (State ρ) :=
  match s.resultQueue with
  | [] => none
  | (j, r) :: q =>
    let s' := { s with resultQueue := q }
    match (s.jobs j).bind fun i => (s.calls[i]?).map fun c => (i, c) with
    | some (i, c) => some (s'.setCall i { c with result := some r, finished := true })
    | none => some s'

/-- The record of a call that has just started its child. -/
def newCall (j : String) : ProcessCall ρ :=
  { id := j, pc := .starting, finished := false, result := none, child := .acquiring .init,
    alive := true, owed := none }

/-- **The process-based server**: one move. -/
def step (s : State ρ) : Label ρ → Option (State ρ)
  | .start j => some { s with calls := s.calls ++ [newCall j] }
  | .call i => (s.calls[i]?).bind fun c => callStep s i c c.pc
  | .child i a =>
    (s.calls[i]?).bind fun c => if c.alive then childStep s i c c.child a else none
  | .terminate i =>
    (s.calls[i]?).bind fun c =>
      match c.pc with
      | .starting => none
      | _ => some (s.close i)
  | .deliver => deliver s
  | .cancelBegin j => some { s with cancels := s.cancels ++ [(j, .check)] }
  | .cancel k => (s.cancels[k]?).bind fun x => cancelStep s k x.1 x.2
  | .sweepBegin j =>
    (s.jobs j).bind fun i => (s.calls[i]?).bind fun c =>
      if c.alive then none else some { s with sweeps := s.sweeps ++ [(j, .check)] }
  | .sweep k => (s.sweeps[k]?).bind fun x => sweepStep s k x.1 x.2

/-- The server after `start`, with the configured numbers of workers. -/
def initState (max : JobType → ℕ) : State ρ where
  free := max
  status := fun _ => none
  statusLock := none
  jobs := fun _ => none
  calls := []
  resultQueue := []
  cancels := []
  sweeps := []

end ProRLAgent.ProcessServer
