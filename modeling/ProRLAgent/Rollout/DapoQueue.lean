import ProRLAgent.Rollout.DapoLedger

set_option relaxedAutoImplicit false
set_option autoImplicit false

/-!
# The job queue across rounds

The job queue of `AsyncLLMServerManagerDAPO` lives on from round to round. A round that ends
leaves its undispatched jobs in the queue, and `push_remaining_train_data_to_job_queue` then
queues every remaining trajectory again, with priorities from 0 on: the jobs that were left are
in the queue twice. The queue stays clean as long as no job is left when a round ends.

## Main definitions

* `ProRLAgent.Rollout.Dapo.QueueClean` — distinct priorities, no trajectory twice in the queue or
  in flight, and no unknown instance.
* `ProRLAgent.Rollout.Dapo.Drained` — a round ends only with an empty job queue.

## Main results

* `ProRLAgent.Rollout.Dapo.queueClean_of_drained` — in rounds that end drained, the queue is clean
  in every state.
* `ProRLAgent.Rollout.Dapo.not_queueClean_leftoverRun` — a round that leaves two jobs.
-/

namespace ProRLAgent.Rollout.Dapo

open Collect

variable {F : Type} {config : Config} {s s' : State F} {bound : ℕ}

/-! ## The invariant -/

/-- **The invariant**: the trajectories of the ledger are tracked, with distinct priorities below
`bound`. -/
structure Clean (config : Config) (bound : ℕ) (s : State F) : Prop extends Tracked config s where
  priorities : (s.ledger.map Prod.fst).Nodup
  below : ∀ k ∈ s.ledger, k.1 < bound

/-- Dropping entries keeps the ledger clean. -/
lemma Clean.of_subperm (hs : Clean config bound s) (hledger : s'.ledger.Subperm s.ledger)
    (hbatch : s'.allInputBatch = s.allInputBatch) : Clean config bound s' :=
  ⟨hs.toTracked.of_subperm hledger hbatch, nodup_map_of_subperm hledger hs.priorities,
    fun k hk => hs.below k (hledger.subset hk)⟩

/-- A refill keeps the ledger clean: its priorities are behind those in use. -/
lemma Clean.of_refilled {batch : List Instance} (hs : Clean config s.dataIndex s)
    (h : Refilled config s batch s') : Clean config s'.dataIndex s' := by
  refine ⟨hs.toTracked.of_refilled h, ?_, fun k hk => ?_⟩
  · rw [h.ledger, List.map_append, map_fst_indexed, List.nodup_append]
    refine ⟨List.nodup_range', hs.priorities, ?_⟩
    intro a ha b hb hab
    obtain ⟨k, hk, rfl⟩ := List.mem_map.mp hb
    have hlt := hs.below k hk
    have hge := (List.mem_range'_1.mp ha).1
    omega
  · rw [h.dataIndex]
    rw [h.ledger, List.mem_append] at hk
    rcases hk with hk | hk
    · exact (mem_range_of_mem_indexed hk).2
    · have hlt := hs.below k hk
      omega

/-- Every step of a round keeps the ledger clean. -/
theorem roundStep_clean {a : Label F} (hs : Clean config s.dataIndex s)
    (h : roundStep config s a = some s') : Clean config s'.dataIndex s' := by
  obtain hquiet | ⟨batch, hrefill⟩ | ⟨job, result, results, -, hresults, rfl⟩ | ⟨n, -, rfl⟩ :=
    roundStep_cases h
  · rw [hquiet.dataIndex]
    exact hs.of_subperm hquiet.ledger hquiet.allInputBatch
  · exact hs.of_refilled hrefill
  · obtain ⟨hbatch, hindex⟩ := collectResult_data config s job result results
    rw [hindex]
    exact hs.of_subperm ((List.sublist_cons_self _ _).subperm.trans
      (ledger_collectResult hresults)) hbatch
  · obtain ⟨hbatch, hindex, -, -⟩ := decideStep_data config s n
    rw [hindex]
    exact hs.of_subperm (ledger_decideStep n) hbatch

/-! ## Rounds that end drained -/

/-- **The condition**: a round ends only if no job is left in the queue. -/
def Drained (s : State F) : Label F → Prop
  | .finishRound => s.jobQueue = []
  | _ => True

instance (s : State F) (a : Label F) : Decidable (Drained s a) :=
  match a with
  | .finishRound => inferInstanceAs (Decidable (s.jobQueue = []))
  | .startRound | .dispatcher | .refill _ | .getJob _ | .getServer | .orphanGet _ | .task _ _
  | .collector _ => isTrue trivial

/-- The priorities of the ledger are below the next index: that of the manager between two
rounds, that of the dispatcher in a round. -/
def State.nextIndex (s : State F) : ℕ :=
  if s.collector = .idle then s.lastDataIndex else s.dataIndex

/-- A round starts with the jobs of the queue. -/
lemma startRound_clean (hs : Clean config s.lastDataIndex s) :
    Clean config (startRound config s).dataIndex (startRound config s) := by
  refine hs.of_subperm (List.Sublist.subperm ?_) rfl
  simp only [State.ledger, startRound, DispatcherPc.job?, Option.toList, List.map_nil,
    List.filter_nil, List.append_nil]
  exact List.sublist_append_left _ _

/-- Without entries, the ledger of a part of the batch is clean. -/
lemma Clean.of_ledger_nil (hs : Clean config bound s) (hledger : s'.ledger = [])
    (hbatch : s'.allInputBatch.Sublist s.allInputBatch) (bound' : ℕ) :
    Clean config bound' s' := by
  refine ⟨⟨hs.ids.sublist (hbatch.map _), ?_, ?_⟩, ?_, ?_⟩ <;> simp [hledger]

/-- Queueing the remaining trajectories into an empty ledger keeps it clean. -/
lemma pushRemaining_clean (hs : Clean config bound s) (hledger : s.ledger = [])
    (hqueue : s.jobQueue = []) :
    Clean config (pushRemainingTrainDataToJobQueue config s).lastDataIndex
      (pushRemainingTrainDataToJobQueue config s) := by
  set messages := messagesOf config.numTrajectories s.allInputBatch with hmessages
  have hledger' : (pushRemainingTrainDataToJobQueue config s).ledger
      = (indexed 0 messages).map key := by
    have hrest := hledger
    simp only [State.ledger, hqueue, List.map_nil, List.nil_append] at hrest
    simp only [State.ledger, pushRemainingTrainDataToJobQueue, hqueue, List.nil_append, hrest,
      List.append_nil, hmessages]
  refine ⟨⟨hs.ids, ?_, fun k hk => ?_⟩, ?_, fun k hk => ?_⟩
  · rw [hledger', map_snd_indexed]
    exact nodup_messagesOf hs.ids
  · rw [hledger'] at hk
    exact mem_of_mem_indexed hk
  · rw [hledger', map_fst_indexed]
    exact List.nodup_range'
  · rw [hledger'] at hk
    have hlt := (mem_range_of_mem_indexed hk).2
    rwa [Nat.zero_add] at hlt

/-- The remaining instances are part of the batch. -/
lemma remaining_sublist {batch : List Instance} {responses : Responses F} {ids : List String}
    {r : FilteredBatch F} (h : filterUncompletedInstances config batch responses ids = .ok r) :
    r.remaining.Sublist batch := by
  obtain ⟨output, -, h⟩ := Except.bind_eq_ok.mp h
  obtain rfl := Except.ok.inj h
  exact List.filter_sublist

/-- A round that ends drained leaves the remaining trajectories once each. -/
lemma finishRound_clean (hs : Clean config bound s) (hdrained : s.jobQueue = []) :
    Clean config (finishRound config s).nextIndex (finishRound config s) := by
  rw [finishRound]
  simp only
  split
  · refine hs.of_ledger_nil ?_ (by exact List.Sublist.refl _) _
    simp [State.ledger, hdrained, DispatcherPc.job?]
  · next r hr =>
    have hsublist := remaining_sublist hr
    split
    · exact hs.of_ledger_nil (by simp [State.ledger, hdrained, DispatcherPc.job?]) hsublist _
    · refine pushRemaining_clean (hs.of_ledger_nil ?_ hsublist bound) ?_ hdrained
      · simp [State.ledger, hdrained, DispatcherPc.job?]
      · simp [State.ledger, hdrained, DispatcherPc.job?]

/-- Between two rounds no coroutine moves, and a step of a round does not end it. -/
lemma roundStep_busy {a : Label F} (hbusy : s.collector ≠ .idle)
    (h : roundStep config s a = some s') : s'.collector ≠ .idle := by
  have hdecide : ∀ (t : State F) n, (decideStep config t n).collector ≠ .idle := by
    intro t n
    rw [decideStep]
    split <;> simp
  obtain hquiet | ⟨batch, hrefill⟩ | ⟨job, result, results, -, -, rfl⟩ | ⟨n, -, rfl⟩ :=
    roundStep_cases h
  · rcases hquiet.collector with heq | ⟨-, heq⟩ | ⟨-, heq⟩ | ⟨n, -, heq⟩ | ⟨error, heq⟩
    · rw [heq]
      exact hbusy
    all_goals simp [heq]
  · rw [hrefill.collector]
    exact hbusy
  · rw [collectResult]
    split
    · simp
    · simp only
      split
      · split <;> simp
      · exact hdecide _ _
  · exact hdecide _ _

/-- Every step of drained rounds keeps the ledger clean. -/
lemma step_clean {a : Label F} (hs : Clean config s.nextIndex s)
    (h : Machine.guarded (step config) Drained s a = some s') :
    Clean config s'.nextIndex s' := by
  obtain ⟨hdrained, h⟩ := Machine.guarded_eq_some.mp h
  have hround : ∀ b, (if s.collector = .idle then none else roundStep config s b) = some s' →
      Clean config s'.nextIndex s' := by
    intro b hb
    split at hb
    · cases hb
    · next hbusy =>
      rw [State.nextIndex, if_neg hbusy] at hs
      rw [State.nextIndex, if_neg (roundStep_busy hbusy hb)]
      exact roundStep_clean hs hb
  cases a with
  | startRound =>
    simp only [step] at h
    split at h
    · next hidle =>
      obtain rfl := Option.some.inj h
      rw [State.nextIndex, if_pos hidle.1] at hs
      exact startRound_clean hs
    · cases h
  | finishRound =>
    simp only [step] at h
    split at h
    · obtain rfl := Option.some.inj h
      exact finishRound_clean hs hdrained
    · cases h
  | dispatcher => exact hround _ h
  | refill batch => exact hround _ h
  | getJob k => exact hround _ h
  | getServer => exact hround _ h
  | orphanGet k => exact hround _ h
  | task i outcome => exact hround _ h
  | collector k => exact hround _ h

/-! ## The clean queue -/

/-- **A clean job queue**: the priorities are distinct, no trajectory is twice in the queue or in
flight, and every queued message is of an instance of `all_input_batch`. -/
structure QueueClean (s : State F) : Prop where
  priorities : (s.jobQueue.map Job.messageIndex).Nodup
  once : ((s.jobQueue ++ s.dispatcher.job?.toList ++
    (s.tasks.filter fun t => t.pc.ownsJob).map JobTask.job).map Job.message).Nodup
  known : ∀ j ∈ s.jobQueue, j.message.instanceId ∈ s.allInputBatch.map Instance.instanceId

/-- A clean ledger makes a clean queue. -/
lemma Clean.queueClean (hs : Clean config bound s) : QueueClean s := by
  have hqueue : (s.jobQueue.map key).Sublist s.ledger := List.sublist_append_left _ _
  refine ⟨?_, ?_, fun j hj => ?_⟩
  · have hnodup := hs.priorities.sublist (hqueue.map Prod.fst)
    rwa [List.map_map] at hnodup
  · have hsublist : ((s.jobQueue ++ s.dispatcher.job?.toList ++
        (s.tasks.filter fun t => t.pc.ownsJob).map JobTask.job).map key).Sublist s.ledger := by
      simp only [State.ledger, List.map_append, List.map_map, ← List.append_assoc]
      exact List.sublist_append_left _ _
    have hnodup := hs.messages.sublist (hsublist.map Prod.snd)
    rwa [List.map_map] at hnodup
  · exact (mem_messagesOf.mp (hs.known (key j) (hqueue.subset (List.mem_map_of_mem hj)))).1

/-- A manager starts with an empty ledger. -/
lemma init_clean : Clean config (init : State F).nextIndex (init : State F) := by
  refine ⟨⟨?_, ?_, ?_⟩, ?_, ?_⟩ <;> simp [init, State.ledger, DispatcherPc.job?]

/-- **Drained rounds keep the queue clean**: in every state of every run whose rounds end with an
empty job queue, the job queue is clean. -/
theorem queueClean_of_drained {labels : List (Label F)}
    (hrun : Machine.run (Machine.guarded (step config) Drained) init labels = some s) :
    QueueClean s :=
  (Machine.run_invariant (fun t => Clean config t.nextIndex t) (fun _ _ _ => step_clean)
    init_clean hrun).queueClean

/-! ### A round that leaves two jobs -/

/-- The data loader yields two instances; one trajectory of the first is resolved and the other is
not, so the round ends before the second instance is dispatched. -/
def leftoverRun : List (Label ℤ) :=
  [Label.startRound, .dispatcher, .refill [⟨"a"⟩, ⟨"b"⟩]] ++ served 0 true ++ served 1 false ++
    [Label.collector 0, .collector 0, .finishRound]

/-- **The queue is not clean across rounds**: after the run above, the trajectories of the second
instance are in the queue twice. -/
theorem not_queueClean_leftoverRun :
    ∃ s : State ℤ, Machine.run (step smallConfig) init leftoverRun = some s ∧
      s.jobQueue.map key = [(2, ⟨"b", 0⟩), (3, ⟨"b", 1⟩), (0, ⟨"b", 0⟩), (1, ⟨"b", 1⟩)] ∧
      ¬ QueueClean s := by
  obtain ⟨s, hrun, hqueue⟩ : ∃ s : State ℤ,
      Machine.run (step smallConfig) init leftoverRun = some s ∧
      s.jobQueue.map key = [(2, ⟨"b", 0⟩), (3, ⟨"b", 1⟩), (0, ⟨"b", 0⟩), (1, ⟨"b", 1⟩)] :=
    ⟨_, rfl, by decide⟩
  refine ⟨s, hrun, hqueue, fun h => ?_⟩
  have hmessages : s.jobQueue.map Job.message = [⟨"b", 0⟩, ⟨"b", 1⟩, ⟨"b", 0⟩, ⟨"b", 1⟩] := by
    have hsnd := congrArg (List.map Prod.snd) hqueue
    rwa [List.map_map] at hsnd
  have hnodup := h.once
  rw [List.append_assoc, List.map_append, hmessages] at hnodup
  exact absurd hnodup.of_append_left (by decide)

/-- The same round with only one instance in the loader, followed by a second round. -/
def drainedRun : List (Label ℤ) :=
  [Label.startRound, .dispatcher, .refill [⟨"a"⟩]] ++ served 0 true ++ served 1 false ++
    [Label.collector 0, .collector 0, .finishRound, .startRound, .dispatcher, .refill [⟨"b"⟩]]

/-- The queue is clean in the second of two rounds of which the first ended drained. -/
theorem queueClean_drainedRun :
    ∃ s : State ℤ, Machine.run (Machine.guarded (step smallConfig) Drained) init drainedRun
        = some s ∧
      s.jobQueue.map key = [(0, ⟨"b", 0⟩), (1, ⟨"b", 1⟩)] ∧ QueueClean s := by
  obtain ⟨s, hrun, hqueue⟩ : ∃ s : State ℤ,
      Machine.run (Machine.guarded (step smallConfig) Drained) init drainedRun = some s ∧
      s.jobQueue.map key = [(0, ⟨"b", 0⟩), (1, ⟨"b", 1⟩)] := ⟨_, rfl, by decide⟩
  exact ⟨s, hrun, hqueue, queueClean_of_drained hrun⟩

end ProRLAgent.Rollout.Dapo
