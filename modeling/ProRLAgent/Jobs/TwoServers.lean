import Mathlib.Logic.Function.Basic
import ProRLAgent.Lib.Machine
import ProRLAgent.Jobs.FinalResult
import ProRLAgent.Jobs.Registry

set_option relaxedAutoImplicit false
set_option autoImplicit false

/-!
# A job on the two servers

The process-based server runs a job in a process of its own: `Worker.run` calls the steps of the
three phases one after the other and returns what `get_results` makes of the job details. The
threaded server puts the job on a queue; workers of three kinds take jobs from their queues, run a
phase and pass the job on, and `process` waits for the completion event of its job. Both look their
functions up in the registry.

The functions of the registry are the environment of both servers: `Handlers` says what each does
when it is called, and it may return, raise a `TimeoutError` or raise another exception. The time
limit of a phase shows as a `TimeoutError`. A function may change the fields of the job details that
only the functions read and write.

The threaded server here has any number of jobs and workers, but no `cancel_job` and no `stop`, and
the ids of its jobs are distinct: a job is named by the number of its `process` call. The closing of
runtimes and the times of the phases are not part of this model.

## Main definitions

* `TwoServers.Details`, `TwoServers.Handlers` — job details and what the functions do.
* `TwoServers.Worker.run`, `TwoServers.processServer` — a job on the process-based server.
* `TwoServers.State`, `TwoServers.step` — the threaded server.
-/

namespace ProRLAgent.TwoServers

/-! ## Jobs and functions -/

/-- The phases of a job. -/
inductive JobType where
  | init
  | run
  | eval
  deriving DecidableEq, Repr

/-- `function_type`. -/
def JobType.functionType : JobType → RegistryType
  | .init => .init
  | .run => .run
  | .eval => .eval

/-- `exception_type`. -/
def JobType.exceptionType : JobType → RegistryType
  | .init => .initException
  | .run => .runException
  | .eval => .evalException

/-- The name of `function_type`. -/
def JobType.text : JobType → String
  | .init => "init"
  | .run => "run"
  | .eval => "eval"

/-- An exception with its text. -/
inductive Raised where
  | timeoutError (text : String)
  | exception (text : String)
  deriving DecidableEq, Repr

/-- What a client asks for. `rest` are the parts of the job details that only the functions of the
registry read and write: the language model, the agent and its controller. -/
structure JobRequest (ω : Type) where
  jobId : String
  inst : ResultDict
  isReasoningTask : Bool
  rest : ω

/-- The details of a job. -/
structure Details (ω : Type) extends JobDetails where
  jobId : String
  isReasoningTask : Bool
  metadata : Option ω
  config : Option ω
  rest : ω

/-- What the registered functions do when they are called. The parts of the details that a function
leaves come first, then what it returns or raises. -/
structure Handlers (φ ω : Type) where
  init : φ → Details ω → String → ω × Except Raised (Option ℕ × Option ω × Option ω)
  run : φ → Details ω → String → ω × Except Raised ResultDict
  eval : φ → Details ω → String → ω × Except Raised EvalReport
  exception : φ → Details ω → Raised → ω × Except Raised ResultDict
  finalResult : φ → Details ω → Except Raised ResultDict

variable {φ ω : Type}

/-- The details that a job starts with. -/
def JobRequest.details (job : JobRequest ω) : Details ω where
  inst := job.inst
  jobId := job.jobId
  isReasoningTask := job.isReasoningTask
  metadata := none
  config := none
  rest := job.rest

/-- `instance.get('data_source', 'swebench')`, and the slice of the lookups that needs a text. -/
def datasetType (inst : ResultDict) : Except Raised String :=
  match (inst.get? "data_source").getD (.str "swebench") with
  | .str name => .ok name
  | .none => .error (.exception "'NoneType' object is not subscriptable")
  | .bool _ => .error (.exception "'bool' object is not subscriptable")
  | .int _ => .error (.exception "'int' object is not subscriptable")
  | .list _ => .error (.exception "unhashable type: 'list'")

/-- The check of both servers before a job is made. -/
def checkRegistered (R : Registry φ) (job : JobRequest ω) : Except Raised String :=
  match datasetType job.inst with
  | .error e => .error e
  | .ok name =>
    if R.isRegisteredHandler name job.isReasoningTask then .ok name
    else .error (.exception s!"Dataset type {name} is not registered")

/-- The result of a job whose data source has no `final_result`. -/
def noFinalResult (name : String) : ResultDict :=
  (Dict.empty.set "critical_error" (.str "final_result")).set "error"
    (.str s!"Function not found in registry type final_result for dataset type {name}")

/-! ## The process-based server -/

namespace Worker

variable (R : Registry φ) (H : Handlers φ ω)

/-- The body of the `try` of `run_step`: the details after it, and the exception that leaves it. -/
def tryStep (name : String) (type : JobType) (d : Details ω) : Details ω × Option Raised :=
  match R.getRegisteredFunctions type.functionType name d.isReasoningTask with
  | none =>
    (d, some (.exception s!"Function '{name}' not found in registry type '{type.text}'"))
  | some func =>
    match type with
    | .init =>
      match H.init func d d.jobId with
      | (rest, .ok (runtime, metadata, config)) =>
        ({ d with rest := rest, runtime := runtime, metadata := metadata, config := config }, none)
      | (rest, .error e) => ({ d with rest := rest }, some e)
    | .run =>
      match H.run func d d.jobId with
      | (rest, .ok results) =>
        ({ d with rest := rest, runResults := some results, runtime := none }, none)
      | (rest, .error e) => ({ d with rest := rest }, some e)
    | .eval =>
      match H.eval func d ("eval_" ++ d.jobId) with
      | (rest, .ok report) =>
        ({ d with rest := rest, evalResults := report.unwrap, event := true }, none)
      | (rest, .error e) => ({ d with rest := rest }, some e)

/-- The runtime of a job whose run phase has failed is given up. -/
def dropRuntime (type : JobType) (d : Details ω) : Details ω :=
  if type = .run then { d with runtime := none } else d

/-- The exception function of the phase, or the results when there is none. -/
def exceptionResults (name : String) (type : JobType) (d : Details ω) (e : Raised)
    (missing : ResultDict) : Except Raised (Details ω) :=
  match R.getRegisteredFunctions type.exceptionType name d.isReasoningTask with
  | some exceptionFunc =>
    match H.exception exceptionFunc d e with
    | (rest, .ok results) => .ok { d with rest := rest, results := some results, event := true }
    | (_, .error e') => .error e'
  | none => .ok { d with results := some missing, event := true }

/-- The `except` clauses of `run_step`. -/
def catchStep (name : String) (type : JobType) (d : Details ω) :
    Raised → Except Raised (Details ω)
  | .timeoutError text =>
    exceptionResults R H name type (dropRuntime type { d with timeoutError := true })
      (.timeoutError text)
      ((Dict.empty.set "error" (.str s!"Timeout during {type.text}: {text}")).set "timeout"
        (.bool true))
  | .exception text =>
    exceptionResults R H name type (dropRuntime type d) (.exception text)
      (Dict.empty.set "error" (.str s!"Exception during {type.text}: {text}"))

/-- **A phase of the process-based server** (`run_step`). -/
def runStep (type : JobType) (d : Details ω) : Except Raised (Details ω) :=
  match datasetType d.inst with
  | .error e => .error e
  | .ok name =>
    match tryStep R H name type d with
    | (d, none) => .ok d
    | (d, some e) => catchStep R H name type d e

/-- `get_results`: the table of the ordinary jobs is looked up, whatever the job is. -/
def getResults (timing : PyVal) (d : Details ω) : Except Raised ResultDict :=
  match datasetType d.inst with
  | .error e => .error e
  | .ok name =>
    match R.getRegisteredFunctions .finalResult name with
    | none => .ok ((noFinalResult name).set "timing" timing)
    | some finalResultFunc =>
      match H.finalResult finalResultFunc d with
      | .ok result => .ok (result.set "timing" timing)
      | .error e => .error e

/-- **A job on the process-based server** (`Worker.run`). -/
def run (timing : PyVal) (job : JobRequest ω) : Except Raised ResultDict := do
  let d ← runStep R H .init job.details
  if d.event then getResults R H timing d
  else
    let d ← runStep R H .run d
    if d.event then getResults R H timing d
    else
      let d ← runStep R H .eval d
      getResults R H timing d

end Worker

/-- A `process` call of the process-based server, up to the result of its worker. -/
def processServer (R : Registry φ) (H : Handlers φ ω) (timing : PyVal) (job : JobRequest ω) :
    Except Raised ResultDict :=
  match checkRegistered R job with
  | .error e => .error e
  | .ok _ => Worker.run R H timing job

/-! ## The threaded server -/

/-- Where a worker stands in `_worker`. -/
inductive WorkerPc (ω : Type) where
  | waiting
  /-- It has taken the job and entered it into the active set. -/
  | taken (i : ℕ)
  /-- The function of the phase has returned. -/
  | initialized (i : ℕ) (runtime : Option ℕ) (metadata config : Option ω)
  | ran (i : ℕ) (results : ResultDict)
  | evaluated (i : ℕ) (report : EvalReport)
  /-- An exception has been caught. -/
  | caught (i : ℕ) (e : Raised)
  /-- At the `put` on the next queue. -/
  | putting (i : ℕ)
  /-- At the completion event. -/
  | setting (i : ℕ)
  /-- In the `finally` block. -/
  | leaving
  /-- An exception has left the loop. -/
  | crashed

/-- A worker and its kind. -/
structure WorkerThread (ω : Type) where
  kind : JobType
  pc : WorkerPc ω

/-- Where a `process` call stands. -/
inductive CallPc where
  /-- It waits for the completion event. -/
  | waiting
  | returned (result : ResultDict)
  | raised (e : Raised)

/-- A `process` call: what it was called with, its local variable `dataset_type` and the details of
its job. -/
structure Call (ω : Type) where
  job : JobRequest ω
  datasetType : String
  details : Details ω
  pc : CallPc

/-- The state of the threaded server. -/
structure State (ω : Type) where
  queue : JobType → List ℕ
  workers : List (WorkerThread ω)
  calls : List (Call ω)

/-- The moves of the threaded server. -/
inductive Label (ω : Type) where
  /-- A `process` call checks its job and puts it on `init_queue`. -/
  | submit (job : JobRequest ω)
  /-- A `process` call whose event is set makes its result. -/
  | finish (i : ℕ) (timing : PyVal)
  | work (w : ℕ)

/-- The queue that a worker passes its jobs to. -/
def nextQueue : JobType → JobType
  | .init => .run
  | _ => .eval

def State.setWorker (s : State ω) (w : ℕ) (kind : JobType) (pc : WorkerPc ω) : State ω :=
  { s with workers := s.workers.set w ⟨kind, pc⟩ }

/-- Put a job on a queue. -/
def State.enqueue (s : State ω) (kind : JobType) (i : ℕ) : State ω :=
  { s with queue := Function.update s.queue kind (s.queue kind ++ [i]) }

/-- Change the details of a job. -/
def State.setDetails (s : State ω) (i : ℕ) (c : Call ω) (d : Details ω) : State ω :=
  { s with calls := s.calls.set i { c with details := d } }

section Threaded

variable (R : Registry φ) (H : Handlers φ ω)

/-- The call of the function of the phase: the details after it and where the worker goes. -/
def callFunction (i : ℕ) (name : String) (kind : JobType) (d : Details ω) :
    Details ω × WorkerPc ω :=
  match R.getRegisteredFunctions kind.functionType name d.isReasoningTask with
  | none =>
    (d, .caught i (.exception s!"Function '{name}' not found in registry type '{kind.text}'"))
  | some func =>
    match kind with
    | .init =>
      let (rest, outcome) := H.init func d d.jobId
      ({ d with rest := rest },
        match outcome with
        | .ok (runtime, metadata, config) => .initialized i runtime metadata config
        | .error e => .caught i e)
    | .run =>
      let (rest, outcome) := H.run func d d.jobId
      ({ d with rest := rest },
        match outcome with
        | .ok results => .ran i results
        | .error e => .caught i e)
    | .eval =>
      let (rest, outcome) := H.eval func d ("eval_" ++ d.jobId)
      ({ d with rest := rest },
        match outcome with
        | .ok report => .evaluated i report
        | .error e => .caught i e)

/-- The handling of a caught exception. -/
def handleException (i : ℕ) (name : String) (kind : JobType) (d : Details ω) (e : Raised) :
    Details ω × WorkerPc ω :=
  let d := match e with
    | .timeoutError _ => { d with timeoutError := true }
    | .exception _ => d
  let d := if kind = .run ∧ d.runtime.isSome then { d with runtime := none } else d
  match R.getRegisteredFunctions kind.exceptionType name d.isReasoningTask with
  | some exceptionFunc =>
    match H.exception exceptionFunc d e with
    | (rest, .ok results) => ({ d with rest := rest, results := some results }, .setting i)
    -- The exception leaves the loop: nobody sets the completion event.
    | (rest, .error _) => ({ d with rest := rest }, .crashed)
  | none =>
    let results : ResultDict := match e with
      | .timeoutError text =>
        (Dict.empty.set "error" (.str s!"Timeout during {kind.text}: {text}")).set "timeout"
          (.bool true)
      | .exception text =>
        Dict.empty.set "error" (.str s!"Exception during {kind.text}: {text}")
    ({ d with results := some results }, .setting i)

/-- A step of a worker with job `i` that changes its details and its place only. -/
def workOn (i : ℕ) (kind : JobType) (d : Details ω) : WorkerPc ω → Option (Details ω × WorkerPc ω)
  | .taken _ =>
    match datasetType d.inst with
    | .error _ => some (d, .crashed)
    | .ok name => some (callFunction R H i name kind d)
  | .initialized _ runtime metadata config =>
    some ({ d with runtime := runtime, metadata := metadata, config := config }, .putting i)
  | .ran _ results =>
    let d := { d with runResults := some results }
    some (if d.runtime.isSome then { d with runtime := none } else d, .putting i)
  | .evaluated _ report => some ({ d with evalResults := report.unwrap }, .setting i)
  | .caught _ e =>
    match datasetType d.inst with
    | .error _ => some (d, .crashed)
    | .ok name => some (handleException R H i name kind d e)
  | .setting _ => some ({ d with event := true }, .leaving)
  | _ => none

/-- The job that a worker has. -/
def WorkerPc.job? : WorkerPc ω → Option ℕ
  | .taken i | .initialized i _ _ _ | .ran i _ | .evaluated i _ | .caught i _ | .putting i
  | .setting i => some i
  | .waiting | .leaving | .crashed => none

/-- A step of worker `w`. -/
def workerStep (s : State ω) (w : ℕ) (kind : JobType) (pc : WorkerPc ω) : Option (State ω) :=
  match pc with
  | .waiting =>
    match s.queue kind with
    | [] => none
    | i :: q =>
      some (State.setWorker { s with queue := Function.update s.queue kind q } w kind (.taken i))
  | .putting i => some ((s.enqueue (nextQueue kind) i).setWorker w kind .leaving)
  | .leaving => some (s.setWorker w kind .waiting)
  | pc =>
    pc.job?.bind fun i =>
      (s.calls[i]?).bind fun c =>
        (workOn R H i kind c.details pc).map fun x =>
          (s.setDetails i c x.1).setWorker w kind x.2

/-- The result that `process` makes when the event of its job is set. -/
def makeResult (timing : PyVal) (c : Call ω) : CallPc :=
  match R.getRegisteredFunctions .finalResult c.datasetType c.job.isReasoningTask with
  | none => .returned ((noFinalResult c.datasetType).set "timing" timing)
  | some finalResultFunc =>
    match H.finalResult finalResultFunc c.details with
    | .ok result => .returned (result.set "timing" timing)
    | .error e => .raised e

/-- **The threaded server**: one move. -/
def step (s : State ω) : Label ω → Option (State ω)
  | .submit job =>
    match checkRegistered R job with
    | .error e => some { s with calls := s.calls ++ [⟨job, "", job.details, .raised e⟩] }
    | .ok name =>
      some (State.enqueue { s with calls := s.calls ++ [⟨job, name, job.details, .waiting⟩] } .init
        s.calls.length)
  | .finish i timing =>
    (s.calls[i]?).bind fun c =>
      match c.pc with
      | .waiting =>
        if c.details.event then
          some { s with calls := s.calls.set i { c with pc := makeResult R H timing c } }
        else none
      | _ => none
  | .work w => (s.workers[w]?).bind fun worker => workerStep R H s w worker.kind worker.pc

end Threaded

/-- The threaded server after `start`, with workers of the given kinds. -/
def initState (kinds : List JobType) : State ω where
  queue := fun _ => []
  workers := kinds.map fun kind => ⟨kind, .waiting⟩
  calls := []

end ProRLAgent.TwoServers
