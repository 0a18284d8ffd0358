import ProRLAgent.Lib.Machine
import ProRLAgent.Lib.Pool
import ProRLAgent.Rollout.BatchRows

set_option relaxedAutoImplicit false
set_option autoImplicit false

/-!
# Collecting rollouts

The coroutine `request_from_openhands` of the rollout
(`verl_custom/nvidia/rollout/async_server.py`) sends every message to a slot of the agent servers
and collects the answers. A dispatcher takes a job and a free slot, a task per job makes the
request, and the coroutine itself collects the results; a failed request is queued again, at most
twice.

The coroutines are embedded as a machine: a label names the coroutine that moves, and the answer
of the server where it matters. A lock is held across a suspension only by the dispatcher (the
locks of the job queue and of the slots) and by the collector (the lock of the results), so
whether a lock is free is read off their program counters.

## Main definitions

* `ProRLAgent.Rollout.Collect.step` — one step of one coroutine.
* `ProRLAgent.Rollout.Collect.Accounted` — where messages and slots are: the invariant.

## Main results

* `ProRLAgent.Rollout.Collect.step_accounted` — every step keeps the invariant.
* `ProRLAgent.Rollout.Collect.exactly_once` — in every reachable state each message is in one
  place, slots are neither lost nor duplicated, and a message is sent at most three times; the
  returned map has one entry for each message.
-/

namespace ProRLAgent.Rollout

variable {F : Type}

/-! ## Messages and answers -/

/-- A message to the agent servers. -/
structure Message where
  instanceId : String
  trajectoryId : ℕ
  deriving DecidableEq, Repr

/-- An answer of a server, with `none` for an absent entry. -/
structure Response (F : Type) where
  error : Option String
  success : Option Bool
  messages : List (TrajMessage F)
  resolved : Option Bool
  finish : Option Bool

/-- What can happen to one request. -/
inductive HttpOutcome (F : Type) where
  /-- Status 200 with a JSON body. -/
  | ok (data : Response F)
  /-- Another status. -/
  | status
  /-- The client's timeout. -/
  | timeout
  /-- Any other exception. -/
  | failure

/-- The function `_send_single_message_to_openhands`: the result, and whether to retry. -/
def sendSingleMessageToOpenhands : HttpOutcome F → Option (Response F) × Bool
  | .ok data => if data.messages.isEmpty then (none, true) else (some data, false)
  | .status => (none, true)
  | .timeout => (none, true)
  | .failure => (none, true)

/-- The collected answers by instance id and trajectory id. -/
abbrev Responses (F : Type) := Dict String (Dict ℕ (Response F))

/-- The answer to a message. -/
def lookupResponse (responses : Responses F) (message : Message) : Option (Response F) :=
  (responses.get? message.instanceId).bind fun d => d.get? message.trajectoryId

/-- The entry for a message without an answer. -/
def emptyResponse : Response F where
  error := some "Empty response"
  success := some false
  messages := []
  resolved := some false
  finish := some false

/-- Stores the answer to a message. -/
def storeResponse (responses : Responses F) (message : Message) (result : Option (Response F)) :
    Responses F :=
  let trajectories := (responses.get? message.instanceId).getD Dict.empty
  responses.set message.instanceId
    (trajectories.set message.trajectoryId (result.getD emptyResponse))

/-- Storing an answer changes the entry of its message and no other. -/
lemma lookupResponse_store (responses : Responses F) (message : Message)
    (result : Option (Response F)) (other : Message) :
    lookupResponse (storeResponse responses message result) other
      = if other = message then some (result.getD emptyResponse)
        else lookupResponse responses other := by
  obtain ⟨i, t⟩ := message
  obtain ⟨i', t'⟩ := other
  simp only [lookupResponse, storeResponse, Dict.get?_set, Message.mk.injEq]
  by_cases hi : i' = i
  · subst hi
    rw [if_pos rfl, Option.bind_some, Dict.get?_set]
    by_cases ht : t' = t
    · simp [ht]
    · cases hget : responses.get? i' with
      | none => simp [ht]
      | some d => simp [ht]
  · simp [hi]

namespace Collect

/-! ## The coroutines -/

/-- A job of the queue. -/
structure Job where
  messageIndex : ℕ
  message : Message
  retryCount : ℕ
  deriving DecidableEq, Repr

/-- A worker slot of a server, the string `url|worker_i` of the source. -/
structure Slot where
  url : String
  worker : ℕ
  deriving DecidableEq, Repr

/-- Where the dispatcher is. -/
inductive DispatcherPc where
  /-- At the top of its loop. -/
  | top
  /-- It holds the lock of the job queue. -/
  | jobLocked
  /-- It sleeps with both locks. -/
  | sleeping
  /-- It waits, with both locks, for the job and the slot that it asked for. -/
  | getting (job : Option Job) (slot : Option Slot)
  /-- It was cancelled. -/
  | stopped

/-- Where a task is. -/
inductive TaskPc (F : Type) where
  /-- It waits for the server. -/
  | sending
  /-- It will queue its job again. -/
  | retrying
  /-- It will hand over the result. -/
  | puttingResult (result : Option (Response F))
  /-- It will mark the job as done. -/
  | taskDone
  /-- It will return its slot. -/
  | returning
  /-- It has ended. -/
  | done

/-- A task `process_job_on_server`. -/
structure JobTask (F : Type) where
  job : Job
  slot : Slot
  pc : TaskPc F

/-- Where the collecting coroutine is. -/
inductive CollectorPc where
  /-- At the top of its loop. -/
  | top
  /-- It sleeps with the lock of the results. -/
  | sleeping
  /-- It will read the length of the job queue for the log. -/
  | loggingJobs
  /-- It will read the number of free slots for the log. -/
  | loggingServers
  /-- It has returned the answers. -/
  | returned
  /-- An exception ended it. -/
  | raised (error : PyError)
  deriving DecidableEq

/-- The state of the coroutines. -/
structure State (F : Type) where
  jobQueue : List Job
  /-- The unfinished tasks that the job queue counts. -/
  unfinished : ℕ
  availableServers : List Slot
  resultsQueue : List (Job × Option (Response F))
  dispatcher : DispatcherPc
  tasks : List (JobTask F)
  collector : CollectorPc
  completedCount : ℕ
  allResponses : Responses F
  /-- The messages in the order in which they were sent. -/
  attempts : List Message

/-- The lock of the job queue is held. -/
def State.jobQueueLocked (s : State F) : Bool :=
  match s.dispatcher with
  | .jobLocked | .sleeping | .getting _ _ => true
  | .top | .stopped => false

/-- The lock of the slots is held. -/
def State.availableServersLocked (s : State F) : Bool :=
  match s.dispatcher with
  | .sleeping | .getting _ _ => true
  | .top | .jobLocked | .stopped => false

/-- The lock of the results is held. -/
def State.resultsQueueLocked (s : State F) : Bool := s.collector = .sleeping

/-- The slots of the servers. -/
def serverSlots (openhandsUrls : List String) (numWorkers : ℕ) : List Slot :=
  openhandsUrls.flatMap fun url => (List.range numWorkers).map fun worker => ⟨url, worker⟩

/-- The state in which the coroutines start. -/
def start (openhandsUrls : List String) (numWorkers : ℕ) (messages : List Message) :
    Except PyError (State F) :=
  if openhandsUrls.isEmpty then
    .error (.valueError ("No OpenHands base URLs configured. " ++
      "Please set actor_rollout_ref.rollout.openhands_base_url."))
  else
    .ok {
      jobQueue := messages.zipIdx.map fun m => ⟨m.2, m.1, 0⟩
      unfinished := messages.length
      availableServers := serverSlots openhandsUrls numWorkers
      resultsQueue := []
      dispatcher := .top
      tasks := []
      collector := .top
      completedCount := 0
      allResponses := Dict.empty
      attempts := [] }

/-- The labels of the steps. -/
inductive Label (F : Type) where
  /-- The dispatcher moves. -/
  | dispatcher
  /-- The dispatcher's job arrives. -/
  | getJob
  /-- The dispatcher's slot arrives. -/
  | getServer
  /-- Task `i` moves; `outcome` is the answer of the server if it waits for one. -/
  | task (i : ℕ) (outcome : HttpOutcome F)
  /-- The collector moves. -/
  | collector

/-- A step of `job_dispatcher`. -/
def dispatcherStep (s : State F) : Option (State F) :=
  match s.dispatcher with
  | .top => some { s with dispatcher := .jobLocked }
  | .jobLocked =>
    if s.jobQueue.isEmpty || s.availableServers.isEmpty then
      some { s with dispatcher := .sleeping }
    else
      some { s with dispatcher := .getting none none }
  | .sleeping => some { s with dispatcher := .top }
  | .getting (some job) (some slot) =>
    some { s with
      dispatcher := .top
      tasks := s.tasks ++ [⟨job, slot, .sending⟩]
      attempts := s.attempts ++ [job.message] }
  | .getting _ _ => none
  | .stopped => none

/-- The dispatcher's `job_queue.get()` returns. -/
def getJobStep (s : State F) : Option (State F) :=
  match s.dispatcher, s.jobQueue with
  | .getting none slot, job :: jobs =>
    some { s with dispatcher := .getting (some job) slot, jobQueue := jobs }
  | _, _ => none

/-- The dispatcher's `available_servers_queue.get()` returns. -/
def getServerStep (s : State F) : Option (State F) :=
  match s.dispatcher, s.availableServers with
  | .getting job none, slot :: slots =>
    some { s with dispatcher := .getting job (some slot), availableServers := slots }
  | _, _ => none

/-- A step of `process_job_on_server` in task `i`. -/
def taskStep (s : State F) (i : ℕ) (outcome : HttpOutcome F) : Option (State F) :=
  match s.tasks[i]? with
  | none => none
  | some t =>
    let goto (pc : TaskPc F) : List (JobTask F) := s.tasks.set i { t with pc := pc }
    match t.pc with
    | .sending =>
      let (result, shouldRetry) := sendSingleMessageToOpenhands outcome
      if shouldRetry && t.job.retryCount < 2 then
        some { s with tasks := goto .retrying }
      else
        some { s with tasks := goto (.puttingResult result) }
    | .retrying =>
      if s.jobQueueLocked then none
      else
        some { s with
          tasks := goto .returning
          jobQueue := s.jobQueue ++ [{ t.job with retryCount := t.job.retryCount + 1 }]
          unfinished := s.unfinished + 1 }
    | .puttingResult result =>
      if s.resultsQueueLocked then none
      else
        some { s with
          tasks := goto .taskDone
          resultsQueue := s.resultsQueue ++ [(t.job, result)] }
    | .taskDone =>
      if s.jobQueueLocked then none
      -- `task_done` raises if the queue counts no unfinished task; the handler returns the slot.
      else if s.unfinished = 0 then some { s with tasks := goto .returning }
      else some { s with tasks := goto .returning, unfinished := s.unfinished - 1 }
    | .returning =>
      if s.availableServersLocked then none
      else
        some { s with tasks := goto .done, availableServers := s.availableServers ++ [t.slot] }
    | .done => none

/-- What the progress log reads of one answer. -/
def readProgress (response : Response F) : Except PyError Unit :=
  match response.resolved, response.finish with
  | some _, some _ => .ok ()
  | none, _ => .error (.keyError "resolved")
  | some _, none => .error (.keyError "finish")

/-- What the progress log reads of the collected answers. -/
def readAllProgress (allResponses : Responses F) : Except PyError Unit :=
  allResponses.values.forM fun trajectories => trajectories.values.forM readProgress

/-- A step of the collecting loop for the given messages. -/
def collectorStep (messages : List Message) (s : State F) : Option (State F) :=
  match s.collector with
  | .top =>
    if s.completedCount < messages.length then
      match s.resultsQueue with
      | [] => some { s with collector := .sleeping }
      | (job, result) :: results =>
        let completedCount := s.completedCount + 1
        some { s with
          resultsQueue := results
          allResponses := storeResponse s.allResponses job.message result
          completedCount := completedCount
          collector :=
            if completedCount % 10 = 0 ∨ completedCount = messages.length then .loggingJobs
            else .top }
    else
      -- The dispatcher is cancelled and awaited, and the answers are returned.
      some { s with collector := .returned, dispatcher := .stopped }
  | .sleeping => some { s with collector := .top }
  | .loggingJobs => if s.jobQueueLocked then none else some { s with collector := .loggingServers }
  | .loggingServers =>
    if s.availableServersLocked then none
    else
      match readAllProgress s.allResponses with
      | .ok _ => some { s with collector := .top }
      | .error error => some { s with collector := .raised error }
  | .returned => none
  | .raised _ => none

/-- A step of the coroutines that collect the answers to the given messages. -/
def step (messages : List Message) (s : State F) : Label F → Option (State F)
  | .dispatcher => dispatcherStep s
  | .getJob => getJobStep s
  | .getServer => getServerStep s
  | .task i outcome => taskStep s i outcome
  | .collector => collectorStep messages s

/-! ## Where messages and slots are -/

/-- The job that the dispatcher holds. -/
def DispatcherPc.job? : DispatcherPc → Option Job
  | .getting job _ => job
  | _ => none

/-- The slot that the dispatcher holds. -/
def DispatcherPc.slot? : DispatcherPc → Option Slot
  | .getting _ slot => slot
  | _ => none

/-- A task at this point still owns its job. -/
def TaskPc.ownsJob : TaskPc F → Bool
  | .sending | .retrying | .puttingResult _ => true
  | .taskDone | .returning | .done => false

/-- A task at this point still holds its slot. -/
def TaskPc.holdsSlot : TaskPc F → Bool
  | .done => false
  | _ => true

/-- How often a message is in the job queue. -/
def State.queued (s : State F) (m : Message) : ℕ := s.jobQueue.countP fun j => j.message = m

/-- How often a message is being dispatched. -/
def State.dispatching (s : State F) (m : Message) : ℕ :=
  s.dispatcher.job?.toList.countP fun j => j.message = m

/-- How often a message is in flight. -/
def State.inFlight (s : State F) (m : Message) : ℕ :=
  s.tasks.countP fun t => t.pc.ownsJob && t.job.message = m

/-- How often a message waits in the results queue. -/
def State.answered (s : State F) (m : Message) : ℕ :=
  s.resultsQueue.countP fun r => r.1.message = m

/-- A message is collected. -/
def State.collected (s : State F) (m : Message) : ℕ :=
  (lookupResponse s.allResponses m).isSome.toNat

/-- How often a slot is held by a job. -/
def State.held (s : State F) (x : Slot) : ℕ :=
  s.dispatcher.slot?.toList.count x + s.tasks.countP fun t => t.pc.holdsSlot && t.slot = x

/-- The sends that a message may still make from the job queue. -/
def Job.budget (m : Message) (j : Job) : ℕ := if j.message = m then 3 - j.retryCount else 0

/-- The sends that a message may still make from a task, the current one aside. -/
def JobTask.budget (m : Message) (t : JobTask F) : ℕ :=
  match t.pc with
  | .sending | .retrying => if t.job.message = m then 2 - t.job.retryCount else 0
  | _ => 0

/-- The sends that a message may still make. -/
def State.budget (s : State F) (m : Message) : ℕ :=
  (s.jobQueue.map (Job.budget m)).sum + (s.dispatcher.job?.toList.map (Job.budget m)).sum +
    (s.tasks.map (JobTask.budget m)).sum

/-- **The invariant**: every message is in one place for each time it was requested, every slot
is free or held, the sends made and still allowed are at most three per message, and a
dispatcher that waits for a job will get one. -/
structure Accounted (messages : List Message) (pool : List Slot) (s : State F) : Prop where
  distinct : messages.Nodup
  places : ∀ m, s.queued m + s.dispatching m + s.inFlight m + s.answered m + s.collected m
    = messages.count m
  total : s.jobQueue.length + s.dispatcher.job?.toList.length +
    s.tasks.countP (fun t => t.pc.ownsJob) + s.resultsQueue.length + s.completedCount
      = messages.length
  slots : ∀ x, s.availableServers.count x + s.held x = pool.count x
  sends : ∀ m, s.attempts.count m + s.budget m ≤ 3 * messages.count m
  queued_retries : ∀ j ∈ s.jobQueue, j.retryCount ≤ 2
  dispatching_retries : ∀ j ∈ s.dispatcher.job?, j.retryCount ≤ 2
  retrying_retries : ∀ t ∈ s.tasks, t.pc = .retrying → t.job.retryCount < 2
  getting : ∀ slot, s.dispatcher = .getting none slot → s.jobQueue ≠ []
  returned : s.collector = .returned → s.completedCount = messages.length

/-- Jobs in the queue may be sent at most three times each. -/
lemma sum_budget_le (m : Message) (jobs : List Job) :
    (jobs.map (Job.budget m)).sum ≤ 3 * jobs.countP (fun j => j.message = m) := by
  induction jobs with
  | nil => simp
  | cons j jobs ih =>
    rw [List.map_cons, List.sum_cons, List.countP_cons, Job.budget]
    by_cases hj : j.message = m
    · simp only [hj, if_true, decide_true]
      omega
    · simp only [hj, if_false, decide_false, Bool.false_eq_true]
      omega

/-- The coroutines start with every message in the queue and every slot free. -/
lemma start_accounted {openhandsUrls : List String} {numWorkers : ℕ} {messages : List Message}
    {s : State F} (hdistinct : messages.Nodup)
    (h : start openhandsUrls numWorkers messages = .ok s) :
    Accounted messages (serverSlots openhandsUrls numWorkers) s := by
  rw [start] at h
  split at h
  · cases h
  · obtain rfl := Except.ok.inj h
    have hmessages : messages.zipIdx.map Prod.fst = messages := List.zipIdx_map_fst ..
    have hcount : ∀ m, (messages.zipIdx.map fun m => (⟨m.2, m.1, 0⟩ : Job)).countP
        (fun j => j.message = m) = messages.count m := by
      intro m
      conv_rhs => rw [← hmessages]
      rw [List.count, List.countP_map, List.countP_map]
      rfl
    refine ⟨hdistinct, ?_, ?_, ?_, ?_, ?_, ?_, ?_, ?_, ?_⟩
    · intro m
      simp [State.queued, State.dispatching, State.inFlight, State.answered, State.collected,
        lookupResponse, DispatcherPc.job?, hcount]
    · simp [DispatcherPc.job?]
    · intro x
      simp [State.held, DispatcherPc.slot?]
    · intro m
      have hbudget := sum_budget_le m (messages.zipIdx.map fun m => ⟨m.2, m.1, 0⟩)
      rw [hcount] at hbudget
      simpa [State.budget, DispatcherPc.job?] using hbudget
    · intro j hj
      obtain ⟨x, -, rfl⟩ := List.mem_map.mp hj
      exact Nat.zero_le 2
    · simp [DispatcherPc.job?]
    · simp
    · simp
    · simp

/-! ## Every step keeps the account -/

section Steps

variable {messages : List Message} {pool : List Slot} {s s' : State F}

/-- What a step of the dispatcher can do. -/
lemma dispatcherStep_cases (h : dispatcherStep s = some s') :
    (s.dispatcher.job? = none ∧ s.dispatcher.slot? = none ∧
      ∃ pc, s' = { s with dispatcher := pc } ∧ pc.job? = none ∧ pc.slot? = none ∧
        (∀ slot, pc = .getting none slot → s.jobQueue ≠ [])) ∨
    ∃ job slot, s.dispatcher = .getting (some job) (some slot) ∧
      s' = { s with
        dispatcher := .top
        tasks := s.tasks ++ [⟨job, slot, .sending⟩]
        attempts := s.attempts ++ [job.message] } := by
  rw [dispatcherStep] at h
  split at h
  · next hpc =>
    obtain rfl := Option.some.inj h
    exact .inl ⟨by rw [hpc]; rfl, by rw [hpc]; rfl, _, rfl, rfl, rfl, by simp⟩
  · next hpc =>
    refine .inl ⟨by rw [hpc]; rfl, by rw [hpc]; rfl, ?_⟩
    split at h
    · obtain rfl := Option.some.inj h
      exact ⟨_, rfl, rfl, rfl, by simp⟩
    · next hne =>
      obtain rfl := Option.some.inj h
      refine ⟨_, rfl, rfl, rfl, fun _ _ hempty => hne ?_⟩
      simp [hempty]
  · next hpc =>
    obtain rfl := Option.some.inj h
    exact .inl ⟨by rw [hpc]; rfl, by rw [hpc]; rfl, _, rfl, rfl, rfl, by simp⟩
  · next job slot hpc =>
    obtain rfl := Option.some.inj h
    exact .inr ⟨job, slot, hpc, rfl⟩
  · cases h
  · cases h

/-- The dispatcher keeps the account. -/
lemma dispatcherStep_accounted (hs : Accounted messages pool s) (h : dispatcherStep s = some s') :
    Accounted messages pool s' := by
  obtain ⟨hjob, hslot, pc, rfl, hjob', hslot', hget⟩ | ⟨job, slot, hpc, rfl⟩ :=
    dispatcherStep_cases h
  · have hplaces := hs.places
    have htotal := hs.total
    have hslots := hs.slots
    have hsends := hs.sends
    simp only [State.queued, State.dispatching, State.inFlight, State.answered, State.collected,
      State.held, State.budget, hjob, hslot] at hplaces htotal hslots hsends
    refine ⟨hs.distinct, ?_, ?_, ?_, ?_, hs.queued_retries, ?_, hs.retrying_retries, hget,
      hs.returned⟩
    · simpa only [State.queued, State.dispatching, State.inFlight, State.answered, State.collected,
        hjob'] using hplaces
    · simpa only [hjob'] using htotal
    · simpa only [State.held, hslot'] using hslots
    · simpa only [State.budget, hjob'] using hsends
    · simp [hjob']
  · refine ⟨hs.distinct, fun m => ?_, ?_, fun x => ?_, fun m => ?_, hs.queued_retries, ?_, ?_, ?_,
      hs.returned⟩
    · have hplaces := hs.places m
      simp only [State.queued, State.dispatching, State.inFlight, State.answered, State.collected,
        hpc, DispatcherPc.job?, Option.toList, List.countP_append, List.countP_cons,
        List.countP_nil, TaskPc.ownsJob, Bool.true_and] at hplaces ⊢
      omega
    · have htotal := hs.total
      simp only [hpc, DispatcherPc.job?, Option.toList, List.countP_append, List.countP_cons,
        List.countP_nil, TaskPc.ownsJob, List.length_cons, List.length_nil, if_true] at htotal ⊢
      omega
    · have hslots := hs.slots x
      simp only [State.held, hpc, DispatcherPc.slot?, Option.toList, List.countP_append,
        List.countP_cons, List.countP_nil, List.count_cons, List.count_nil, TaskPc.holdsSlot,
        Bool.true_and, beq_iff_eq, decide_eq_true_eq] at hslots ⊢
      omega
    · have hsends := hs.sends m
      have hretry := hs.dispatching_retries job (by rw [hpc]; rfl)
      simp only [State.budget, hpc, DispatcherPc.job?, Option.toList, List.map_append,
        List.sum_append, List.map_cons, List.sum_cons, List.map_nil, List.sum_nil, Job.budget,
        JobTask.budget, List.count_append, List.count_cons, List.count_nil, beq_iff_eq] at hsends ⊢
      by_cases hm : job.message = m
      · simp only [hm, if_true] at hsends ⊢
        omega
      · simp only [hm, if_false] at hsends ⊢
        omega
    · simp [DispatcherPc.job?]
    · intro t ht hretrying
      rcases List.mem_append.mp ht with ht | ht
      · exact hs.retrying_retries t ht hretrying
      · obtain rfl := List.mem_singleton.mp ht
        cases hretrying
    · simp

/-- The arrival of the dispatcher's job keeps the account. -/
lemma getJobStep_accounted (hs : Accounted messages pool s) (h : getJobStep s = some s') :
    Accounted messages pool s' := by
  rw [getJobStep] at h
  split at h
  · next slot job jobs hpc hqueue =>
    obtain rfl := Option.some.inj h
    refine ⟨hs.distinct, fun m => ?_, ?_, fun x => ?_, fun m => ?_, ?_, ?_, hs.retrying_retries,
      ?_, hs.returned⟩
    · have hplaces := hs.places m
      simp only [State.queued, State.dispatching, State.inFlight, State.answered, State.collected,
        hpc, hqueue, DispatcherPc.job?, Option.toList, List.countP_cons, List.countP_nil]
        at hplaces ⊢
      omega
    · have htotal := hs.total
      simp only [hpc, hqueue, DispatcherPc.job?, Option.toList, List.length_cons, List.length_nil]
        at htotal ⊢
      omega
    · have hslots := hs.slots x
      simpa only [State.held, hpc, DispatcherPc.slot?] using hslots
    · have hsends := hs.sends m
      simp only [State.budget, hpc, hqueue, DispatcherPc.job?, Option.toList, List.map_cons,
        List.sum_cons, List.map_nil, List.sum_nil] at hsends ⊢
      omega
    · intro j hj
      exact hs.queued_retries j (by simp [hqueue, hj])
    · intro j hj
      obtain rfl : job = j := by simpa [DispatcherPc.job?] using hj
      exact hs.queued_retries job (by simp [hqueue])
    · simp
  · cases h

/-- The arrival of the dispatcher's slot keeps the account. -/
lemma getServerStep_accounted (hs : Accounted messages pool s) (h : getServerStep s = some s') :
    Accounted messages pool s' := by
  rw [getServerStep] at h
  split at h
  · next job slot slots hpc hfree =>
    obtain rfl := Option.some.inj h
    refine ⟨hs.distinct, fun m => ?_, ?_, fun x => ?_, fun m => ?_, hs.queued_retries, ?_,
      hs.retrying_retries, ?_, hs.returned⟩
    · have hplaces := hs.places m
      simpa only [State.queued, State.dispatching, State.inFlight, State.answered, State.collected,
        hpc, DispatcherPc.job?] using hplaces
    · have htotal := hs.total
      simpa only [hpc, DispatcherPc.job?] using htotal
    · have hslots := hs.slots x
      simp only [State.held, hpc, hfree, DispatcherPc.slot?, Option.toList, List.count_cons,
        List.count_nil] at hslots ⊢
      omega
    · have hsends := hs.sends m
      simpa only [State.budget, hpc, DispatcherPc.job?] using hsends
    · intro j hj
      exact hs.dispatching_retries j (by rw [hpc]; exact hj)
    · intro slot' heq
      obtain ⟨rfl, -⟩ := DispatcherPc.getting.inj heq
      exact hs.getting none hpc
  · cases h

/-- What a step of a task can do. -/
lemma taskStep_cases {i : ℕ} {outcome : HttpOutcome F} (h : taskStep s i outcome = some s') :
    ∃ t, s.tasks[i]? = some t ∧
      ((t.pc = .sending ∧ t.job.retryCount < 2 ∧
          s' = { s with tasks := s.tasks.set i { t with pc := .retrying } }) ∨
        (t.pc = .sending ∧ ∃ result,
          s' = { s with tasks := s.tasks.set i { t with pc := .puttingResult result } }) ∨
        (t.pc = .retrying ∧ s' = { s with
          tasks := s.tasks.set i { t with pc := .returning }
          jobQueue := s.jobQueue ++ [{ t.job with retryCount := t.job.retryCount + 1 }]
          unfinished := s.unfinished + 1 }) ∨
        (∃ result, t.pc = .puttingResult result ∧ s' = { s with
          tasks := s.tasks.set i { t with pc := .taskDone }
          resultsQueue := s.resultsQueue ++ [(t.job, result)] }) ∨
        (t.pc = .taskDone ∧ ∃ unfinished, s' = { s with
          tasks := s.tasks.set i { t with pc := .returning }
          unfinished := unfinished }) ∨
        (t.pc = .returning ∧ s' = { s with
          tasks := s.tasks.set i { t with pc := .done }
          availableServers := s.availableServers ++ [t.slot] })) := by
  rw [taskStep] at h
  split at h
  · cases h
  · next t ht =>
    refine ⟨t, ht, ?_⟩
    cases hpc : t.pc with
    | sending =>
      simp only [hpc] at h
      split at h
      · next hretry =>
        obtain rfl := Option.some.inj h
        simp only [Bool.and_eq_true, decide_eq_true_eq] at hretry
        exact .inl ⟨rfl, hretry.2, rfl⟩
      · obtain rfl := Option.some.inj h
        exact .inr (.inl ⟨rfl, _, rfl⟩)
    | retrying =>
      simp only [hpc] at h
      split at h
      · cases h
      · exact .inr (.inr (.inl ⟨rfl, (Option.some.inj h).symm⟩))
    | puttingResult result =>
      simp only [hpc] at h
      split at h
      · cases h
      · exact .inr (.inr (.inr (.inl ⟨result, rfl, (Option.some.inj h).symm⟩)))
    | taskDone =>
      simp only [hpc] at h
      split at h
      · cases h
      · split at h
        · exact .inr (.inr (.inr (.inr (.inl ⟨rfl, _, (Option.some.inj h).symm⟩))))
        · exact .inr (.inr (.inr (.inr (.inl ⟨rfl, _, (Option.some.inj h).symm⟩))))
    | returning =>
      simp only [hpc] at h
      split at h
      · cases h
      · exact .inr (.inr (.inr (.inr (.inr ⟨rfl, (Option.some.inj h).symm⟩))))
    | done =>
      simp only [hpc] at h
      cases h

/-- **A task moves on**: the account is kept if the queues that it changes gain what the task
gives up. -/
lemma advance_accounted (hs : Accounted messages pool s) {i : ℕ} {t : JobTask F}
    (ht : s.tasks[i]? = some t)
    {pc : TaskPc F} {jobQueue : List Job} {unfinished : ℕ} {free : List Slot}
    {results : List (Job × Option (Response F))}
    (hplaces : ∀ m, jobQueue.countP (fun j => j.message = m) +
        results.countP (fun r => r.1.message = m) + (pc.ownsJob && t.job.message = m).toNat
      = s.jobQueue.countP (fun j => j.message = m) +
        s.resultsQueue.countP (fun r => r.1.message = m) +
        (t.pc.ownsJob && t.job.message = m).toNat)
    (htotal : jobQueue.length + results.length + pc.ownsJob.toNat
      = s.jobQueue.length + s.resultsQueue.length + t.pc.ownsJob.toNat)
    (hslots : ∀ x, free.count x + (pc.holdsSlot && t.slot = x).toNat
      = s.availableServers.count x + (t.pc.holdsSlot && t.slot = x).toNat)
    (hsends : ∀ m, (jobQueue.map (Job.budget m)).sum + JobTask.budget m { t with pc := pc }
      ≤ (s.jobQueue.map (Job.budget m)).sum + JobTask.budget m t)
    (hqueued : ∀ j ∈ jobQueue, j.retryCount ≤ 2)
    (hretrying : pc = .retrying → t.job.retryCount < 2)
    (hgetting : s.jobQueue ≠ [] → jobQueue ≠ []) :
    Accounted messages pool { s with
      tasks := s.tasks.set i { t with pc := pc }
      jobQueue := jobQueue
      unfinished := unfinished
      resultsQueue := results
      availableServers := free } := by
  refine ⟨hs.distinct, fun m => ?_, ?_, fun x => ?_, fun m => ?_, hqueued,
    hs.dispatching_retries, ?_, fun slot hpc => hgetting (hs.getting slot hpc), hs.returned⟩
  · have hold := hs.places m
    have hnew := hplaces m
    have hcount := Pool.countP_set_add (fun u => u.pc.ownsJob && decide (u.job.message = m))
      { t with pc := pc } ht
    simp only [State.queued, State.dispatching, State.inFlight, State.answered, State.collected]
      at hold hcount ⊢
    omega
  · have hold := hs.total
    have hcount := Pool.countP_set_add (fun u => u.pc.ownsJob) { t with pc := pc } ht
    simp only at hcount ⊢
    omega
  · have hold := hs.slots x
    have hnew := hslots x
    have hcount := Pool.countP_set_add (fun u => u.pc.holdsSlot && decide (u.slot = x))
      { t with pc := pc } ht
    simp only [State.held] at hold hcount ⊢
    omega
  · have hold := hs.sends m
    have hnew := hsends m
    have hsum := Pool.sum_map_set_add (JobTask.budget m) { t with pc := pc } ht
    simp only [State.budget] at hold ⊢
    omega
  · intro u hu hpc
    rcases List.mem_or_eq_of_mem_set hu with hu | rfl
    · exact hs.retrying_retries u hu hpc
    · exact hretrying hpc

/-- The tasks keep the account. -/
lemma taskStep_accounted {i : ℕ} {outcome : HttpOutcome F} (hs : Accounted messages pool s)
    (h : taskStep s i outcome = some s') : Accounted messages pool s' := by
  obtain ⟨t, ht, ⟨hpc, hretry, rfl⟩ | ⟨hpc, result, rfl⟩ | ⟨hpc, rfl⟩ | ⟨result, hpc, rfl⟩ |
    ⟨hpc, unfinished, rfl⟩ | ⟨hpc, rfl⟩⟩ := taskStep_cases h
  · -- It will retry.
    refine advance_accounted hs ht ?_ ?_ ?_ ?_ hs.queued_retries (fun _ => hretry) id
    all_goals simp [hpc, TaskPc.ownsJob, TaskPc.holdsSlot, JobTask.budget]
  · -- It will hand over its result.
    refine advance_accounted hs ht ?_ ?_ ?_ ?_ hs.queued_retries (by simp) id
    all_goals simp [hpc, TaskPc.ownsJob, TaskPc.holdsSlot, JobTask.budget]
  · -- It queues its job again.
    have hretry := hs.retrying_retries t (List.mem_of_getElem? ht) hpc
    refine advance_accounted hs ht ?_ ?_ ?_ ?_ ?_ (by simp) (by simp)
    · intro m
      simp only [hpc, TaskPc.ownsJob, List.countP_append, List.countP_singleton, Bool.true_and,
        Bool.false_and, Bool.toNat, cond_false, Bool.cond_decide, decide_eq_true_eq]
      omega
    · simp only [hpc, TaskPc.ownsJob, List.length_append, List.length_singleton, Bool.toNat_true,
        Bool.toNat_false]
      omega
    · simp [hpc, TaskPc.holdsSlot]
    · intro m
      simp only [List.map_append, List.sum_append, List.map_cons, List.map_nil, List.sum_cons,
        List.sum_nil, Job.budget, JobTask.budget, hpc]
      by_cases hm : t.job.message = m
      · simp only [hm, if_true]
        omega
      · simp only [hm, if_false]
        omega
    · intro j hj
      rcases List.mem_append.mp hj with hj | hj
      · exact hs.queued_retries j hj
      · obtain rfl := List.mem_singleton.mp hj
        exact hretry
  · -- It hands over its result.
    refine advance_accounted hs ht ?_ ?_ ?_ ?_ hs.queued_retries (by simp) id
    · intro m
      simp only [hpc, TaskPc.ownsJob, List.countP_append, List.countP_singleton, Bool.true_and,
        Bool.false_and, Bool.toNat, cond_false, Bool.cond_decide, decide_eq_true_eq]
      omega
    · simp only [hpc, TaskPc.ownsJob, List.length_append, List.length_singleton, Bool.toNat_true,
        Bool.toNat_false]
      omega
    · simp [hpc, TaskPc.holdsSlot]
    · simp [hpc, JobTask.budget]
  · -- It marks its job as done.
    refine advance_accounted hs ht ?_ ?_ ?_ ?_ hs.queued_retries (by simp) id
    all_goals simp [hpc, TaskPc.ownsJob, TaskPc.holdsSlot, JobTask.budget]
  · -- It returns its slot.
    refine advance_accounted hs ht ?_ ?_ ?_ ?_ hs.queued_retries (by simp) id
    · simp [hpc, TaskPc.ownsJob]
    · simp [hpc, TaskPc.ownsJob]
    · intro x
      simp [hpc, TaskPc.holdsSlot, List.count_singleton, Bool.toNat]
    · simp [hpc, JobTask.budget]

/-- A collector that has every answer finds the dispatcher without job and slot. -/
lemma Accounted.dispatcher_idle (hs : Accounted messages pool s)
    (hcompleted : messages.length ≤ s.completedCount) :
    s.dispatcher.job? = none ∧ s.dispatcher.slot? = none := by
  have htotal := hs.total
  have hqueue : s.jobQueue = [] := List.length_eq_zero_iff.mp (by omega)
  have hjob : s.dispatcher.job? = none := by
    rw [← Option.toList_eq_nil_iff, ← List.length_eq_zero_iff]
    omega
  refine ⟨hjob, ?_⟩
  cases hpc : s.dispatcher with
  | getting job slot =>
    obtain rfl : job = none := by simpa [hpc, DispatcherPc.job?] using hjob
    exact absurd hqueue (hs.getting slot hpc)
  | _ => rfl

/-- Collecting a result keeps the account. -/
lemma collect_accounted (hs : Accounted messages pool s) {job : Job} {result : Option (Response F)}
    {results : List (Job × Option (Response F))} {pc : CollectorPc}
    (hresults : s.resultsQueue = (job, result) :: results) (hpc : pc ≠ .returned) :
    Accounted messages pool { s with
      resultsQueue := results
      allResponses := storeResponse s.allResponses job.message result
      completedCount := s.completedCount + 1
      collector := pc } := by
  refine ⟨hs.distinct, fun m => ?_, ?_, hs.slots, hs.sends, hs.queued_retries,
    hs.dispatching_retries, hs.retrying_retries, hs.getting, fun h => absurd h hpc⟩
  · have hplaces := hs.places m
    have hone := List.nodup_iff_count_le_one.mp hs.distinct m
    simp only [State.queued, State.dispatching, State.inFlight, State.answered, State.collected,
      hresults, List.countP_cons, decide_eq_true_eq, lookupResponse_store] at hplaces ⊢
    -- A message in the results queue was not collected before.
    by_cases hm : job.message = m
    · subst hm
      simp only [if_true, Option.isSome_some, Bool.toNat_true] at hplaces ⊢
      omega
    · have hm' : ¬ m = job.message := fun h => hm h.symm
      simp only [hm, hm', if_false] at hplaces ⊢
      omega
  · have htotal := hs.total
    simp only [hresults, List.length_cons] at htotal ⊢
    omega

/-- The collector keeps the account. -/
lemma collectorStep_accounted (hs : Accounted messages pool s)
    (h : collectorStep messages s = some s') : Accounted messages pool s' := by
  have hmove : ∀ pc, pc ≠ .returned →
      Accounted messages pool { s with collector := pc } := fun pc hpc =>
    ⟨hs.distinct, hs.places, hs.total, hs.slots, hs.sends, hs.queued_retries,
      hs.dispatching_retries, hs.retrying_retries, hs.getting, fun h => absurd h hpc⟩
  rw [collectorStep] at h
  split at h
  · split at h
    · split at h
      · obtain rfl := Option.some.inj h
        exact hmove _ (by simp)
      · next job result results hresults =>
        obtain rfl := Option.some.inj h
        refine collect_accounted hs hresults ?_
        split <;> simp
    · next hcompleted =>
      obtain rfl := Option.some.inj h
      obtain ⟨hjob, hslot⟩ := hs.dispatcher_idle (by omega)
      have hplaces := hs.places
      have htotal := hs.total
      have hall : s.completedCount = messages.length := by omega
      have hslots := hs.slots
      have hsends := hs.sends
      simp only [State.queued, State.dispatching, State.inFlight, State.answered, State.collected,
        State.held, State.budget, hjob, hslot] at hplaces htotal hslots hsends
      exact ⟨hs.distinct, hplaces, htotal, hslots, hsends, hs.queued_retries,
        by simp [DispatcherPc.job?], hs.retrying_retries, by simp, fun _ => hall⟩
  · obtain rfl := Option.some.inj h
    exact hmove _ (by simp)
  · split at h
    · cases h
    · obtain rfl := Option.some.inj h
      exact hmove _ (by simp)
  · split at h
    · cases h
    · split at h
      · obtain rfl := Option.some.inj h
        exact hmove _ (by simp)
      · obtain rfl := Option.some.inj h
        exact hmove _ (by simp)
  · cases h
  · cases h

/-- **Every step keeps the account.** -/
theorem step_accounted {a : Label F} (hs : Accounted messages pool s)
    (h : step messages s a = some s') : Accounted messages pool s' := by
  cases a with
  | dispatcher => exact dispatcherStep_accounted hs h
  | getJob => exact getJobStep_accounted hs h
  | getServer => exact getServerStep_accounted hs h
  | task i outcome => exact taskStep_accounted hs h
  | collector => exact collectorStep_accounted hs h

end Steps

/-- Once every answer is counted, exactly the requested messages are collected. -/
lemma Accounted.collected_eq {messages : List Message} {pool : List Slot} {s : State F}
    (hs : Accounted messages pool s) (hcompleted : s.completedCount = messages.length)
    (m : Message) : s.collected m = messages.count m := by
  have hplaces := hs.places m
  have htotal := hs.total
  have hqueued : s.queued m ≤ s.jobQueue.length := List.countP_le_length
  have hdispatching : s.dispatching m ≤ s.dispatcher.job?.toList.length := List.countP_le_length
  have hanswered : s.answered m ≤ s.resultsQueue.length := List.countP_le_length
  have hinFlight : s.inFlight m ≤ s.tasks.countP fun t => t.pc.ownsJob :=
    List.countP_mono_left fun t _ ht => (Bool.and_eq_true_iff.mp ht).1
  omega

/-- **Exactly-once collection**: for distinct messages, in every state that the coroutines reach
by any interleaving and any answers of the servers, each message is in exactly one of the job
queue, the dispatcher, a task, the results queue and the collected answers; each slot is free or
held as often as it is in the pool; no message was sent more than three times; and when the
answers are returned, they have an entry exactly for each message. -/
theorem exactly_once {openhandsUrls : List String} {numWorkers : ℕ} {messages : List Message}
    {s₀ s : State F} {labels : List (Label F)} (hdistinct : messages.Nodup)
    (hstart : start openhandsUrls numWorkers messages = .ok s₀)
    (hrun : Machine.run (step messages) s₀ labels = some s) :
    (∀ m ∈ messages,
      s.queued m + s.dispatching m + s.inFlight m + s.answered m + s.collected m = 1) ∧
    (∀ x, s.availableServers.count x + s.held x = (serverSlots openhandsUrls numWorkers).count x) ∧
    (∀ m, s.attempts.count m ≤ 3) ∧
    (s.collector = .returned →
      ∀ m, (lookupResponse s.allResponses m).isSome ↔ m ∈ messages) := by
  have hs : Accounted messages (serverSlots openhandsUrls numWorkers) s :=
    Machine.run_invariant (Accounted messages (serverSlots openhandsUrls numWorkers))
      (fun _ _ _ => step_accounted) (start_accounted hdistinct hstart) hrun
  have hone := List.nodup_iff_count_le_one.mp hdistinct
  refine ⟨fun m hm => ?_, hs.slots, fun m => ?_, fun hreturned m => ?_⟩
  · rw [hs.places m, List.count_eq_one_of_mem hdistinct hm]
  · have hsends := hs.sends m
    have hcount := hone m
    omega
  · have hcollected := hs.collected_eq (hs.returned hreturned) m
    rw [← List.count_pos_iff, ← hcollected, State.collected]
    cases (lookupResponse s.allResponses m).isSome <;> simp

/-- A message whose first request times out and whose second one is answered. -/
def retriedRun : List (Label ℤ) :=
  [.dispatcher, .dispatcher, .getJob, .getServer, .dispatcher, .task 0 .timeout, .task 0 .failure,
    .task 0 .failure, .dispatcher, .dispatcher, .getServer, .getJob, .dispatcher,
    .task 1 (.ok ⟨none, some true, [⟨.assistant, some [7], some [-1]⟩], some true, some true⟩),
    .task 1 .failure, .collector, .task 1 .failure, .collector, .task 1 .failure, .collector,
    .collector]

/-- The run of the retried message returns its answer. -/
theorem exactly_once_retriedRun :
    ∃ s₀ s : State ℤ, start ["u"] 1 [⟨"a", 0⟩] = .ok s₀ ∧
      Machine.run (step [⟨"a", 0⟩]) s₀ retriedRun = some s ∧ s.collector = .returned ∧
      s.attempts.count ⟨"a", 0⟩ = 2 ∧ s.collected ⟨"a", 0⟩ = 1 ∧
      ∀ m, (lookupResponse s.allResponses m).isSome ↔ m ∈ ([⟨"a", 0⟩] : List Message) := by
  obtain ⟨s₀, s, hstart, hrun, hreturned, hattempts, hcollected⟩ : ∃ s₀ s : State ℤ,
      start ["u"] 1 [⟨"a", 0⟩] = .ok s₀ ∧
      Machine.run (step [⟨"a", 0⟩]) s₀ retriedRun = some s ∧ s.collector = .returned ∧
      s.attempts.count ⟨"a", 0⟩ = 2 ∧ s.collected ⟨"a", 0⟩ = 1 :=
    ⟨_, _, rfl, rfl, rfl, by decide, by decide⟩
  exact ⟨s₀, s, hstart, hrun, hreturned, hattempts, hcollected,
    (exactly_once (by decide) hstart hrun).2.2.2 hreturned⟩

end Collect

end ProRLAgent.Rollout
