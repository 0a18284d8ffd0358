import ProRLAgent.Rollout.Collect

set_option relaxedAutoImplicit false
set_option autoImplicit false

/-!
# Rounds of dynamic sampling

The manager `AsyncLLMServerManagerDAPO` (`verl_custom/nvidia/rollout/async_server_dapo.py`) runs
rounds. A round sends the trajectories of the instances in `all_input_batch`, loads more
instances whenever its job queue runs dry, drops the instances whose trajectories are all
resolved or all unresolved, and stops once `train_batch_size` instances are complete. What is
left stays in `all_input_batch` for the next round, and its trajectories are queued again.

The coroutines of a round are those of `ProRLAgent.Rollout.Collect` with two priority queues; the
step labels resolve which entry of least priority a queue returns and what the data loader
yields. The data loader is outside the program: the model lets it yield any batch of distinct
instances that are not in `all_input_batch`.

## Main definitions

* `ProRLAgent.Rollout.Dapo.filterEasyHardInstance`,
  `ProRLAgent.Rollout.Dapo.filterUncompletedInstances` — the two filters.
* `ProRLAgent.Rollout.Dapo.roundStep` — a step of the coroutines of one round.
* `ProRLAgent.Rollout.Dapo.startRound`, `ProRLAgent.Rollout.Dapo.finishRound` — the ends of a
  round.
* `ProRLAgent.Rollout.Dapo.step` — successive rounds.
-/

namespace ProRLAgent.Rollout.Dapo

open Collect

variable {F : Type}

/-- The settings of the manager. -/
structure Config where
  numTrajectories : ℕ
  trainBatchSize : ℕ
  openhandsUrls : List String
  numWorkers : ℕ

/-- The method `DataProto2Messages`: every instance once for each trajectory. -/
def messagesOf (numTrajectories : ℕ) (batch : List Instance) : List Message :=
  batch.flatMap fun item => (List.range numTrajectories).map fun j => ⟨item.instanceId, j⟩

/-- Jobs for messages, with consecutive indices as priorities. -/
def indexed (start : ℕ) (messages : List Message) : List Job :=
  (messages.zipIdx start).map fun m => ⟨m.2, m.1, 0⟩

/-! ## The filters -/

/-- The number of resolved trajectories; reading an absent entry raises. -/
def resolvedCount (trajectories : Dict ℕ (Response F)) : Except PyError ℕ := do
  let flags ← trajectories.values.mapM fun response =>
    match response.resolved with
    | some resolved => .ok resolved
    | none => .error (.keyError "resolved")
  return flags.count true

/-- All trajectories of an instance are there. -/
def isComplete (config : Config) (trajectories : Dict ℕ (Response F)) : Bool :=
  trajectories.entries.length = config.numTrajectories

/-- One pass of the loop of `filter_easy_hard_instance`. -/
def filterInstance (config : Config) (state : Responses F × List String) (instanceId : String) :
    Except PyError (Responses F × List String) :=
  match state.1.get? instanceId with
  | none => .ok state
  | some trajectories =>
    if isComplete config trajectories then do
      let count ← resolvedCount trajectories
      if count = config.numTrajectories ∨ count = 0 then
        return (state.1.erase instanceId, state.2 ++ [instanceId])
      else
        return state
    else
      .ok state

/-- The method `filter_easy_hard_instance`: drops the complete instances whose trajectories are
all resolved or all unresolved. -/
def filterEasyHardInstance (config : Config) (allResponses : Responses F) :
    Except PyError (Responses F × List String) :=
  allResponses.keys.foldlM (filterInstance config) (allResponses, [])

/-- The number of complete instances. -/
def numCompletedInstances (config : Config) (allResponses : Responses F) : ℕ :=
  allResponses.values.countP (isComplete config)

/-- The index of each instance id in the batch, the last one if an id occurs twice. -/
def instanceIdToBatchIdx (batch : List Instance) : Dict String ℕ :=
  batch.zipIdx.foldl (fun d (item, i) => d.set item.instanceId i) Dict.empty

/-- What `filter_uncompleted_instances` makes of the batch. -/
structure FilteredBatch (F : Type) where
  allResponses : Responses F
  outputBatch : List Instance
  remaining : List Instance

/-- The instance at the index of an id. -/
def selectInstance (batch : List Instance) (instanceId : String) : Except PyError Instance :=
  match (instanceIdToBatchIdx batch).get? instanceId with
  | none => .error (.keyError instanceId)
  | some i =>
    match batch[i]? with
    | none => .error .indexError
    | some item => .ok item

/-- The method `filter_uncompleted_instances`, without its assertion. -/
def filterUncompletedInstances (config : Config) (allInputBatch : List Instance)
    (allResponses : Responses F) (filteredInstanceIds : List String) :
    Except PyError (FilteredBatch F) := do
  let kept := allResponses.filter fun e => isComplete config e.2
  let outputBatch ← kept.keys.mapM (selectInstance allInputBatch)
  return {
    allResponses := kept
    outputBatch := outputBatch
    remaining := allInputBatch.filter fun item =>
      item.instanceId ∉ filteredInstanceIds && item.instanceId ∉ kept.keys }

/-- The assertion of `filter_uncompleted_instances`. -/
def FilteredBatch.sizesAgree (config : Config) (r : FilteredBatch F) : Bool :=
  r.outputBatch.length = r.allResponses.entries.length &&
    r.allResponses.entries.length = config.trainBatchSize

/-- The assertion behind the call of `filter_uncompleted_instances`: the ids before are those of
the remaining instances, the output and the filtered ids together. -/
def FilteredBatch.partitions (before : List Instance) (filteredInstanceIds : List String)
    (r : FilteredBatch F) : Bool :=
  let idsBefore := before.map Instance.instanceId
  let idsAfter := r.remaining.map Instance.instanceId ++ r.outputBatch.map Instance.instanceId ++
    filteredInstanceIds
  idsBefore.all (fun id => id ∈ idsAfter) && idsAfter.all (fun id => id ∈ idsBefore)

/-! ## The coroutines of a round -/

/-- Where the collecting coroutine is. -/
inductive CollectorPc where
  /-- Between two rounds. -/
  | idle
  /-- At the top of its loop. -/
  | top
  /-- It sleeps with the lock of the results. -/
  | sleeping
  /-- It will read the length of the job queue for the log. -/
  | loggingJobs (numCompleted : ℕ)
  /-- It will read the number of free slots for the log. -/
  | loggingServers (numCompleted : ℕ)
  /-- It has left its loop and waits for the cancelled tasks. -/
  | stopping
  /-- An exception ended the round. -/
  | failed (error : PyError)
  deriving DecidableEq

/-- The state of the manager and of the coroutines of its round. -/
structure State (F : Type) where
  allInputBatch : List Instance
  lastDataIndex : ℕ
  jobQueue : List Job
  /-- The output of the last round. -/
  returned : Option (Responses F × List Instance)
  /-- The index of the next instance that the dispatcher loads. -/
  dataIndex : ℕ
  availableServers : List Slot
  resultsQueue : List (Job × Option (Response F))
  dispatcher : DispatcherPc
  /-- The cancelled dispatcher has left a `get` behind that still takes a job. -/
  pendingGet : Bool
  tasks : List (JobTask F)
  collector : CollectorPc
  completedCount : ℕ
  filteredInstanceIds : List String
  allResponses : Responses F

/-- A manager before its first round. -/
def init : State F where
  allInputBatch := []
  lastDataIndex := 0
  jobQueue := []
  returned := none
  dataIndex := 0
  availableServers := []
  resultsQueue := []
  dispatcher := .stopped
  pendingGet := false
  tasks := []
  collector := .idle
  completedCount := 0
  filteredInstanceIds := []
  allResponses := Dict.empty

/-- The lock of the job queue is held. -/
def State.jobQueueLocked (s : State F) : Bool :=
  match s.dispatcher with
  | .jobLocked | .sleeping | .getting _ _ => true
  | .top | .stopped => false

/-- The lock of the slots is held. -/
def State.availableServersLocked (s : State F) : Bool :=
  match s.dispatcher with
  | .sleeping | .getting _ _ => true
  | .top | .jobLocked | .stopped => false

/-- The lock of the results is held. -/
def State.resultsQueueLocked (s : State F) : Bool := s.collector = .sleeping

/-- Entry `k` of a priority queue, if its priority is least. -/
def popLeast {α : Type} (priority : α → ℕ) (queue : List α) (k : ℕ) : Option (α × List α) :=
  match queue[k]? with
  | none => none
  | some a =>
    if queue.all fun b => priority a ≤ priority b then some (a, queue.eraseIdx k) else none

/-- The labels of the steps. -/
inductive Label (F : Type) where
  /-- A round starts. -/
  | startRound
  /-- The dispatcher moves. -/
  | dispatcher
  /-- The dispatcher finds the queue empty, and the data loader yields `batch`. -/
  | refill (batch : List Instance)
  /-- The dispatcher's job arrives, entry `k` of the queue. -/
  | getJob (k : ℕ)
  /-- The dispatcher's slot arrives. -/
  | getServer
  /-- The `get` of the cancelled dispatcher takes entry `k` of the queue. -/
  | orphanGet (k : ℕ)
  /-- Task `i` moves; `outcome` is the answer of the server if it waits for one. -/
  | task (i : ℕ) (outcome : HttpOutcome F)
  /-- The collector moves, and takes entry `k` of the results if there is one. -/
  | collector (k : ℕ)
  /-- The round ends. -/
  | finishRound

/-- A step of `job_dispatcher`. -/
def dispatcherStep (s : State F) : Option (State F) :=
  match s.dispatcher with
  | .top => some { s with dispatcher := .jobLocked }
  | .jobLocked =>
    if s.availableServers.isEmpty then some { s with dispatcher := .sleeping }
    else if s.jobQueue.isEmpty then none
    else some { s with dispatcher := .getting none none }
  | .sleeping => some { s with dispatcher := .top }
  | .getting (some job) (some slot) =>
    some { s with dispatcher := .top, tasks := s.tasks ++ [⟨job, slot, .sending⟩] }
  | .getting _ _ => none
  | .stopped => none

/-- The data loader yields distinct instances that are not in the batch. -/
def Fresh (allInputBatch batch : List Instance) : Prop :=
  ((allInputBatch ++ batch).map Instance.instanceId).Nodup

instance (allInputBatch batch : List Instance) : Decidable (Fresh allInputBatch batch) :=
  inferInstanceAs (Decidable (List.Nodup _))

/-- The dispatcher calls `refill_job_queue` and extends `all_input_batch`. -/
def refillStep (config : Config) (s : State F) (batch : List Instance) : Option (State F) :=
  match s.dispatcher with
  | .jobLocked =>
    if s.availableServers.isEmpty then none
    else if s.jobQueue.isEmpty ∧ Fresh s.allInputBatch batch then
      let messages := messagesOf config.numTrajectories batch
      some { s with
        dispatcher := .top
        jobQueue := indexed s.dataIndex messages
        dataIndex := s.dataIndex + messages.length
        allInputBatch := s.allInputBatch ++ batch }
    else none
  | _ => none

/-- The dispatcher's `job_queue.get()` returns. -/
def getJobStep (s : State F) (k : ℕ) : Option (State F) :=
  match s.dispatcher, popLeast Job.messageIndex s.jobQueue k with
  | .getting none slot, some (job, jobs) =>
    some { s with dispatcher := .getting (some job) slot, jobQueue := jobs }
  | _, _ => none

/-- The dispatcher's `available_servers_queue.get()` returns. -/
def getServerStep (s : State F) : Option (State F) :=
  match s.dispatcher, s.availableServers with
  | .getting job none, slot :: slots =>
    some { s with dispatcher := .getting job (some slot), availableServers := slots }
  | _, _ => none

/-- The `get` that a cancelled dispatcher has left behind returns, and its job is dropped. -/
def orphanGetStep (s : State F) (k : ℕ) : Option (State F) :=
  if s.pendingGet then
    match popLeast Job.messageIndex s.jobQueue k with
    | some (_, jobs) => some { s with jobQueue := jobs, pendingGet := false }
    | none => none
  else none

/-- A step of `process_job_on_server` in task `i`. -/
def taskStep (s : State F) (i : ℕ) (outcome : HttpOutcome F) : Option (State F) :=
  match s.tasks[i]? with
  | none => none
  | some t =>
    let goto (pc : TaskPc F) : List (JobTask F) := s.tasks.set i { t with pc := pc }
    match t.pc with
    | .sending =>
      let (result, shouldRetry) := sendSingleMessageToOpenhands outcome
      if shouldRetry && t.job.retryCount < 2 then
        some { s with tasks := goto .retrying }
      else
        some { s with tasks := goto (.puttingResult result) }
    | .retrying =>
      if s.jobQueueLocked then none
      else
        some { s with
          tasks := goto .returning
          jobQueue := s.jobQueue ++ [{ t.job with retryCount := t.job.retryCount + 1 }] }
    | .puttingResult result =>
      if s.resultsQueueLocked then none
      else
        some { s with
          tasks := goto .taskDone
          resultsQueue := s.resultsQueue ++ [(t.job, result)] }
    -- Whether `task_done` raises or not, the task goes on to return its slot.
    | .taskDone => if s.jobQueueLocked then none else some { s with tasks := goto .returning }
    | .returning =>
      if s.availableServersLocked then none
      else
        some { s with tasks := goto .done, availableServers := s.availableServers ++ [t.slot] }
    | .done => none

/-- The dispatcher waits for a job that has not arrived. -/
def awaitsJob : DispatcherPc → Bool
  | .getting none _ => true
  | _ => false

/-- The end of a pass of the collecting loop: leave it, and cancel the dispatcher and all tasks,
if enough instances are complete. -/
def decideStep (config : Config) (s : State F) (numCompleted : ℕ) : State F :=
  if numCompleted ≥ config.trainBatchSize then
    { s with
      collector := .stopping
      dispatcher := .stopped
      pendingGet := awaitsJob s.dispatcher
      tasks := [] }
  else
    { s with collector := .top }

/-- The pass of the collecting loop behind the arrival of a result. -/
def collectResult (config : Config) (s : State F) (job : Job) (result : Option (Response F))
    (results : List (Job × Option (Response F))) : State F :=
  let s := { s with resultsQueue := results, completedCount := s.completedCount + 1 }
  match filterEasyHardInstance config (storeResponse s.allResponses job.message result) with
  | .error error => { s with collector := .failed error }
  | .ok (allResponses, filteredIds) =>
    let s := { s with
      allResponses := allResponses
      filteredInstanceIds := s.filteredInstanceIds ++ filteredIds }
    let numCompleted := numCompletedInstances config allResponses
    if s.completedCount % 4 = 0 ∨ numCompleted = config.trainBatchSize then
      if config.trainBatchSize = 0 then
        { s with collector := .failed (.other "division by zero") }
      else
        { s with collector := .loggingJobs numCompleted }
    else
      decideStep config s numCompleted

/-- A step of the collecting loop. -/
def collectorStep (config : Config) (s : State F) (k : ℕ) : Option (State F) :=
  match s.collector with
  | .top =>
    if s.resultsQueue.isEmpty then some { s with collector := .sleeping }
    else
      match popLeast (fun r => r.1.messageIndex) s.resultsQueue k with
      | some ((job, result), results) => some (collectResult config s job result results)
      | none => none
  | .sleeping => some { s with collector := .top }
  | .loggingJobs numCompleted =>
    if s.jobQueueLocked then none
    else some { s with collector := .loggingServers numCompleted }
  | .loggingServers numCompleted =>
    if s.availableServersLocked then none
    else
      match readAllProgress s.allResponses with
      | .ok _ => some (decideStep config s numCompleted)
      | .error error => some { s with collector := .failed error }
  | .idle => none
  | .stopping => none
  | .failed _ => none

/-- A step of the coroutines of one round. -/
def roundStep (config : Config) (s : State F) : Label F → Option (State F)
  | .dispatcher => dispatcherStep s
  | .refill batch => refillStep config s batch
  | .getJob k => getJobStep s k
  | .getServer => getServerStep s
  | .orphanGet k => orphanGetStep s k
  | .task i outcome => taskStep s i outcome
  | .collector k => collectorStep config s k
  | .startRound => none
  | .finishRound => none

/-! ## Successive rounds -/

/-- The start of `request_from_openhands_dapo`. -/
def startRound (config : Config) (s : State F) : State F :=
  { s with
    dataIndex := s.lastDataIndex
    availableServers := serverSlots config.openhandsUrls config.numWorkers
    resultsQueue := []
    dispatcher := .top
    pendingGet := false
    tasks := []
    collector := .top
    completedCount := 0
    filteredInstanceIds := []
    allResponses := Dict.empty }

/-- The method `push_remaining_train_data_to_job_queue`. -/
def pushRemainingTrainDataToJobQueue (config : Config) (s : State F) : State F :=
  let messages := messagesOf config.numTrajectories s.allInputBatch
  { s with
    lastDataIndex := messages.length
    jobQueue := s.jobQueue ++ indexed 0 messages }

/-- The end of `request_from_openhands_dapo`, behind the loop and the cancellations: the other
coroutines of the round have ended, and nobody reads the results queue any more. -/
def finishRound (config : Config) (s : State F) : State F :=
  let s := { s with dispatcher := .stopped, pendingGet := false, tasks := [], resultsQueue := [] }
  match filterUncompletedInstances config s.allInputBatch s.allResponses s.filteredInstanceIds with
  | .error error => { s with collector := .failed error }
  | .ok r =>
    let before := s.allInputBatch
    let s := { s with allInputBatch := r.remaining }
    if ¬ r.sizesAgree config ∨ ¬ r.partitions before s.filteredInstanceIds then
      { s with collector := .failed .assertionError }
    else
      pushRemainingTrainDataToJobQueue config { s with
        collector := .idle
        returned := some (r.allResponses, r.outputBatch) }

/-- A step of the manager through its rounds. Without server urls, `request_from_openhands_dapo`
raises at once and changes nothing. -/
def step (config : Config) (s : State F) : Label F → Option (State F)
  | .startRound =>
    if s.collector = .idle ∧ config.openhandsUrls ≠ [] then some (startRound config s) else none
  | .finishRound => if s.collector = .stopping then some (finishRound config s) else none
  | a => if s.collector = .idle then none else roundStep config s a

/-! ## A small round -/

/-- One server slot, two trajectories per instance, and one instance per training batch. -/
def smallConfig : Config := ⟨2, 1, ["u"], 1⟩

/-- The answer of a server with the given outcome. -/
def answer (resolved : Bool) : HttpOutcome ℤ :=
  .ok ⟨none, some true, [⟨.assistant, some [7], some [-1]⟩], some resolved, some true⟩

/-- The dispatcher takes the job of least priority, its request is answered and the answer is
collected. -/
def served (i : ℕ) (resolved : Bool) : List (Label ℤ) :=
  [.dispatcher, .dispatcher, .getJob 0, .getServer, .dispatcher, .task i (answer resolved),
    .task i .failure, .task i .failure, .task i .failure, .collector 0]

end ProRLAgent.Rollout.Dapo
