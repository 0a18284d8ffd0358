import Mathlib.Data.List.Perm.Subperm
import Mathlib.Data.List.Range
import ProRLAgent.Rollout.Dapo

set_option relaxedAutoImplicit false
set_option autoImplicit false

/-!
# Where the trajectories of a round are

A trajectory that is neither collected nor dropped has one entry in the ledger of the round, with
its priority: in the job queue, with the dispatcher, in a task, or in the results queue. The
coroutines move the entries around; only a refill adds any.

## Main definitions

* `ProRLAgent.Rollout.Dapo.State.ledger` — the entries.
* `ProRLAgent.Rollout.Dapo.Quiet` — a step that at most moves or drops entries.
* `ProRLAgent.Rollout.Dapo.Tracked` — distinct trajectories of distinct instances.

## Main results

* `ProRLAgent.Rollout.Dapo.roundStep_cases` — a step of a round is quiet, a refill, the arrival of
  a result or the decision behind a log.
-/

namespace ProRLAgent.Rollout.Dapo

open Collect

variable {F : Type} {config : Config} {s s' : State F}

/-- The entry of a job: its priority and its message. -/
def key (job : Job) : ℕ × Message := (job.messageIndex, job.message)

/-- The entries of all trajectories that are under way. -/
def State.ledger (s : State F) : List (ℕ × Message) :=
  s.jobQueue.map key ++ (s.dispatcher.job?.toList.map key ++
    ((s.tasks.filter fun t => t.pc.ownsJob).map (fun t => key t.job) ++
      s.resultsQueue.map fun r => key r.1))

/-- An entry is counted place by place. -/
lemma count_ledger (s : State F) (k : ℕ × Message) :
    s.ledger.count k = s.jobQueue.countP (fun j => key j = k) +
      s.dispatcher.job?.toList.countP (fun j => key j = k) +
      s.tasks.countP (fun t => t.pc.ownsJob && key t.job = k) +
      s.resultsQueue.countP (fun r => key r.1 = k) := by
  have hmap : ∀ {α : Type} (f : α → ℕ × Message) (l : List α),
      (l.map f).count k = l.countP fun a => decide (f a = k) := by
    intro α f l
    rw [List.count, List.countP_map]
    exact List.countP_congr fun a _ => by simp
  rw [State.ledger, List.count_append, List.count_append, List.count_append, hmap, hmap, hmap,
    hmap, List.countP_filter]
  have hcomm : s.tasks.countP (fun t => decide (key t.job = k) && t.pc.ownsJob)
      = s.tasks.countP fun t => t.pc.ownsJob && decide (key t.job = k) :=
    List.countP_congr fun t _ => by rw [Bool.and_comm]
  omega

/-- Taking an entry of least priority out of a queue. -/
lemma perm_of_popLeast {α : Type} {priority : α → ℕ} {queue rest : List α} {k : ℕ} {a : α}
    (h : popLeast priority queue k = some (a, rest)) : queue.Perm (a :: rest) := by
  rw [popLeast] at h
  split at h
  · cases h
  · next b hb =>
    split at h
    · obtain ⟨rfl, rfl⟩ := Prod.mk.inj (Option.some.inj h)
      obtain ⟨hk, rfl⟩ := List.getElem?_eq_some_iff.mp hb
      exact (List.getElem_cons_eraseIdx_perm hk).symm
    · cases h

/-- **A quiet step** moves or drops entries of the ledger and goes on with the collecting loop,
but neither loads nor collects anything. -/
structure Quiet (s s' : State F) : Prop where
  ledger : s'.ledger.Subperm s.ledger
  allInputBatch : s'.allInputBatch = s.allInputBatch
  dataIndex : s'.dataIndex = s.dataIndex
  allResponses : s'.allResponses = s.allResponses
  filteredInstanceIds : s'.filteredInstanceIds = s.filteredInstanceIds
  completedCount : s'.completedCount = s.completedCount
  collector : s'.collector = s.collector ∨
    (s.collector = .top ∧ s'.collector = .sleeping) ∨
    (s.collector = .sleeping ∧ s'.collector = .top) ∨
    (∃ n, s.collector = .loggingJobs n ∧ s'.collector = .loggingServers n) ∨
    ∃ error, s'.collector = .failed error

/-- The ledger shrinks if no entry is counted more often than before. -/
lemma subperm_of_count_le (h : ∀ k, s'.ledger.count k ≤ s.ledger.count k) :
    s'.ledger.Subperm s.ledger :=
  List.subperm_ext_iff.mpr fun k _ => h k

/-! ## The steps, one coroutine at a time -/

/-- The dispatcher is quiet. -/
lemma dispatcherStep_quiet (h : dispatcherStep s = some s') : Quiet s s' := by
  rw [dispatcherStep] at h
  split at h
  · next hpc =>
    obtain rfl := Option.some.inj h
    refine ⟨subperm_of_count_le fun k => ?_, rfl, rfl, rfl, rfl, rfl, .inl rfl⟩
    simp only [count_ledger, hpc, DispatcherPc.job?, le_refl]
  · next hpc =>
    split at h
    · obtain rfl := Option.some.inj h
      refine ⟨subperm_of_count_le fun k => ?_, rfl, rfl, rfl, rfl, rfl, .inl rfl⟩
      simp only [count_ledger, hpc, DispatcherPc.job?, le_refl]
    · split at h
      · cases h
      · obtain rfl := Option.some.inj h
        refine ⟨subperm_of_count_le fun k => ?_, rfl, rfl, rfl, rfl, rfl, .inl rfl⟩
        simp only [count_ledger, hpc, DispatcherPc.job?, le_refl]
  · next hpc =>
    obtain rfl := Option.some.inj h
    refine ⟨subperm_of_count_le fun k => ?_, rfl, rfl, rfl, rfl, rfl, .inl rfl⟩
    simp only [count_ledger, hpc, DispatcherPc.job?, le_refl]
  · next job slot hpc =>
    obtain rfl := Option.some.inj h
    refine ⟨subperm_of_count_le fun k => ?_, rfl, rfl, rfl, rfl, rfl, .inl rfl⟩
    simp only [count_ledger, hpc, DispatcherPc.job?, Option.toList, List.countP_append,
      List.countP_cons, List.countP_nil, TaskPc.ownsJob, Bool.true_and]
    omega
  · cases h
  · cases h

/-- The arrival of the dispatcher's job is quiet. -/
lemma getJobStep_quiet {i : ℕ} (h : getJobStep s i = some s') : Quiet s s' := by
  rw [getJobStep] at h
  split at h
  · next slot job jobs hpc hpop =>
    obtain rfl := Option.some.inj h
    refine ⟨subperm_of_count_le fun k => ?_, rfl, rfl, rfl, rfl, rfl, .inl rfl⟩
    have hcount := (perm_of_popLeast hpop).countP_eq fun j => decide (key j = k)
    simp only [count_ledger, hpc, DispatcherPc.job?, Option.toList, List.countP_cons,
      List.countP_nil] at hcount ⊢
    omega
  · cases h

/-- The arrival of the dispatcher's slot is quiet. -/
lemma getServerStep_quiet (h : getServerStep s = some s') : Quiet s s' := by
  rw [getServerStep] at h
  split at h
  · next job slot slots hpc hfree =>
    obtain rfl := Option.some.inj h
    refine ⟨subperm_of_count_le fun k => ?_, rfl, rfl, rfl, rfl, rfl, .inl rfl⟩
    simp only [count_ledger, hpc, DispatcherPc.job?, le_refl]
  · cases h

/-- The `get` of a cancelled dispatcher is quiet: it drops an entry. -/
lemma orphanGetStep_quiet {i : ℕ} (h : orphanGetStep s i = some s') : Quiet s s' := by
  rw [orphanGetStep] at h
  split at h
  · split at h
    · next job jobs hpop =>
      obtain rfl := Option.some.inj h
      refine ⟨subperm_of_count_le fun k => ?_, rfl, rfl, rfl, rfl, rfl, .inl rfl⟩
      have hcount := (perm_of_popLeast hpop).countP_eq fun j => decide (key j = k)
      simp only [count_ledger, List.countP_cons] at hcount ⊢
      omega
    · cases h
  · cases h

/-- A task that moves on is quiet if the queues gain no more than it gives up. -/
lemma advance_quiet {i : ℕ} {t : JobTask F} (ht : s.tasks[i]? = some t) {pc : TaskPc F}
    {jobQueue : List Job} {free : List Slot} {results : List (Job × Option (Response F))}
    (hplaces : ∀ k, jobQueue.countP (fun j => key j = k) + results.countP (fun r => key r.1 = k) +
        (pc.ownsJob && key t.job = k).toNat
      ≤ s.jobQueue.countP (fun j => key j = k) + s.resultsQueue.countP (fun r => key r.1 = k) +
        (t.pc.ownsJob && key t.job = k).toNat) :
    Quiet s { s with
      tasks := s.tasks.set i { t with pc := pc }
      jobQueue := jobQueue
      resultsQueue := results
      availableServers := free } := by
  refine ⟨subperm_of_count_le fun k => ?_, rfl, rfl, rfl, rfl, rfl, .inl rfl⟩
  have hcount := Pool.countP_set_add (fun u => u.pc.ownsJob && decide (key u.job = k))
    { t with pc := pc } ht
  have hk := hplaces k
  simp only [count_ledger] at hcount ⊢
  omega

/-- The tasks are quiet. -/
lemma taskStep_quiet {i : ℕ} {outcome : HttpOutcome F} (h : taskStep s i outcome = some s') :
    Quiet s s' := by
  rw [taskStep] at h
  split at h
  · cases h
  · next t ht =>
    cases hpc : t.pc with
    | sending =>
      simp only [hpc] at h
      split at h
      all_goals
        obtain rfl := Option.some.inj h
        exact advance_quiet ht fun k => by simp [hpc, TaskPc.ownsJob]
    | retrying =>
      simp only [hpc] at h
      split at h
      · cases h
      · obtain rfl := Option.some.inj h
        refine advance_quiet ht fun k => ?_
        have hkey : key { t.job with retryCount := t.job.retryCount + 1 } = key t.job := rfl
        simp only [hpc, hkey, TaskPc.ownsJob, List.countP_append, List.countP_singleton,
          Bool.true_and, Bool.false_and, Bool.toNat, cond_false, Bool.cond_decide,
          decide_eq_true_eq]
        omega
    | puttingResult result =>
      simp only [hpc] at h
      split at h
      · cases h
      · obtain rfl := Option.some.inj h
        refine advance_quiet ht fun k => ?_
        simp only [hpc, TaskPc.ownsJob, List.countP_append, List.countP_singleton, Bool.true_and,
          Bool.false_and, Bool.toNat, cond_false, Bool.cond_decide, decide_eq_true_eq]
        omega
    | taskDone =>
      simp only [hpc] at h
      split at h
      · cases h
      · obtain rfl := Option.some.inj h
        exact advance_quiet ht fun k => by simp [hpc, TaskPc.ownsJob]
    | returning =>
      simp only [hpc] at h
      split at h
      · cases h
      · obtain rfl := Option.some.inj h
        exact advance_quiet ht fun k => by simp [hpc, TaskPc.ownsJob]
    | done =>
      simp only [hpc] at h
      cases h

/-- What a refill does: the new jobs join the ledger behind the priorities in use. -/
structure Refilled (config : Config) (s : State F) (batch : List Instance) (s' : State F) :
    Prop where
  fresh : Fresh s.allInputBatch batch
  queue_empty : s.jobQueue = []
  ledger : s'.ledger = (indexed s.dataIndex (messagesOf config.numTrajectories batch)).map key ++
    s.ledger
  allInputBatch : s'.allInputBatch = s.allInputBatch ++ batch
  dataIndex : s'.dataIndex = s.dataIndex + (messagesOf config.numTrajectories batch).length
  allResponses : s'.allResponses = s.allResponses
  filteredInstanceIds : s'.filteredInstanceIds = s.filteredInstanceIds
  completedCount : s'.completedCount = s.completedCount
  collector : s'.collector = s.collector

/-- The refill of the dispatcher. -/
lemma refillStep_refilled {batch : List Instance} (h : refillStep config s batch = some s') :
    Refilled config s batch s' := by
  rw [refillStep] at h
  split at h
  · next hpc =>
    split at h
    · cases h
    · split at h
      · next hempty =>
        obtain rfl := Option.some.inj h
        have hqueue : s.jobQueue = [] := List.isEmpty_iff.mp hempty.1
        refine ⟨hempty.2, hqueue, ?_, rfl, rfl, rfl, rfl, rfl, rfl⟩
        simp [State.ledger, hpc, hqueue, DispatcherPc.job?]
      · cases h
  · cases h

/-- **The steps of a round**: a step is quiet, a refill, the arrival of a result, or the decision
behind a log. -/
theorem roundStep_cases {a : Label F} (h : roundStep config s a = some s') :
    Quiet s s' ∨ (∃ batch, Refilled config s batch s') ∨
    (∃ job result results, s.collector = .top ∧ s.resultsQueue.Perm ((job, result) :: results) ∧
      s' = collectResult config s job result results) ∨
    ∃ n, s.collector = .loggingServers n ∧ s' = decideStep config s n := by
  cases a with
  | startRound => cases h
  | finishRound => cases h
  | dispatcher => exact .inl (dispatcherStep_quiet h)
  | refill batch => exact .inr (.inl ⟨batch, refillStep_refilled h⟩)
  | getJob k => exact .inl (getJobStep_quiet h)
  | getServer => exact .inl (getServerStep_quiet h)
  | orphanGet k => exact .inl (orphanGetStep_quiet h)
  | task i outcome => exact .inl (taskStep_quiet h)
  | collector k =>
    simp only [roundStep, collectorStep] at h
    split at h
    · next hpc =>
      split at h
      · obtain rfl := Option.some.inj h
        exact .inl ⟨List.Subperm.refl _, rfl, rfl, rfl, rfl, rfl, .inr (.inl ⟨hpc, rfl⟩)⟩
      · split at h
        · next job result results hpop =>
          exact .inr (.inr (.inl ⟨job, result, results, hpc, perm_of_popLeast hpop,
            (Option.some.inj h).symm⟩))
        · cases h
    · next hpc =>
      obtain rfl := Option.some.inj h
      exact .inl ⟨List.Subperm.refl _, rfl, rfl, rfl, rfl, rfl, .inr (.inr (.inl ⟨hpc, rfl⟩))⟩
    · next n hpc =>
      split at h
      · cases h
      · obtain rfl := Option.some.inj h
        exact .inl ⟨List.Subperm.refl _, rfl, rfl, rfl, rfl, rfl,
          .inr (.inr (.inr (.inl ⟨n, hpc, rfl⟩)))⟩
    · next n hpc =>
      split at h
      · cases h
      · split at h
        · exact .inr (.inr (.inr ⟨n, hpc, (Option.some.inj h).symm⟩))
        · obtain rfl := Option.some.inj h
          exact .inl ⟨List.Subperm.refl _, rfl, rfl, rfl, rfl, rfl,
            .inr (.inr (.inr (.inr ⟨_, rfl⟩)))⟩
    · cases h
    · cases h
    · cases h

/-! ## The ledger behind a result and behind a decision -/

/-- The decision at most drops entries. -/
lemma ledger_decideStep (n : ℕ) : (decideStep config s n).ledger.Subperm s.ledger := by
  rw [decideStep]
  split
  · refine subperm_of_count_le fun k => ?_
    simp only [count_ledger, DispatcherPc.job?, Option.toList, List.countP_nil]
    omega
  · exact List.Subperm.refl _

/-- The decision keeps the data of the round. -/
lemma decideStep_data (config : Config) (s : State F) (n : ℕ) :
    (decideStep config s n).allInputBatch = s.allInputBatch ∧
    (decideStep config s n).dataIndex = s.dataIndex ∧
    (decideStep config s n).allResponses = s.allResponses ∧
    (decideStep config s n).filteredInstanceIds = s.filteredInstanceIds := by
  rw [decideStep]
  split
  · exact ⟨rfl, rfl, rfl, rfl⟩
  · exact ⟨rfl, rfl, rfl, rfl⟩

/-- The arrival of a result takes its entry out of the ledger. -/
lemma ledger_collectResult {job : Job} {result : Option (Response F)}
    {results : List (Job × Option (Response F))}
    (hresults : s.resultsQueue.Perm ((job, result) :: results)) :
    (key job :: (collectResult config s job result results).ledger).Subperm s.ledger := by
  -- Whatever the pass does next, the ledger is at most that of the shorter results queue.
  have hrest : (collectResult config s job result results).ledger.Subperm
      { s with resultsQueue := results }.ledger := by
    rw [collectResult]
    split
    · exact List.Subperm.refl _
    · simp only
      split
      · split
        · exact List.Subperm.refl _
        · exact List.Subperm.refl _
      · exact ledger_decideStep _
  have htaken : (key job :: { s with resultsQueue := results }.ledger).Perm s.ledger := by
    refine List.perm_iff_count.mpr fun k => ?_
    have hcount := hresults.countP_eq fun r => decide (key r.1 = k)
    simp only [List.countP_cons, decide_eq_true_eq] at hcount
    simp only [List.count_cons, count_ledger, beq_iff_eq]
    omega
  exact ((List.subperm_cons (key job)).mpr hrest).trans htaken.subperm

/-- The arrival of a result keeps the batch. -/
lemma collectResult_data (config : Config) (s : State F) (job : Job)
    (result : Option (Response F)) (results : List (Job × Option (Response F))) :
    (collectResult config s job result results).allInputBatch = s.allInputBatch ∧
      (collectResult config s job result results).dataIndex = s.dataIndex := by
  rw [collectResult]
  split
  · exact ⟨rfl, rfl⟩
  · simp only
    split
    · split
      · exact ⟨rfl, rfl⟩
      · exact ⟨rfl, rfl⟩
    · exact ⟨(decideStep_data _ _ _).1, (decideStep_data _ _ _).2.1⟩

/-! ## Messages of a batch -/

/-- The messages of a batch are its instances with every trajectory index. -/
lemma mem_messagesOf {n : ℕ} {batch : List Instance} {m : Message} :
    m ∈ messagesOf n batch ↔ m.instanceId ∈ batch.map Instance.instanceId ∧ m.trajectoryId < n := by
  simp only [messagesOf, List.mem_flatMap, List.mem_map, List.mem_range]
  constructor
  · rintro ⟨item, hitem, j, hj, rfl⟩
    exact ⟨⟨item, hitem, rfl⟩, hj⟩
  · rintro ⟨⟨item, hitem, hid⟩, hj⟩
    exact ⟨item, hitem, m.trajectoryId, hj, by rw [hid]⟩

/-- Distinct instances have distinct messages. -/
lemma nodup_messagesOf {n : ℕ} {batch : List Instance}
    (h : (batch.map Instance.instanceId).Nodup) : (messagesOf n batch).Nodup := by
  refine List.nodup_flatMap.mpr ⟨fun item _ => ?_, ?_⟩
  · refine List.Nodup.map (fun i j hij => ?_) List.nodup_range
    exact (Message.mk.inj hij).2
  · refine (List.pairwise_map.mp h).imp fun hne => ?_
    rintro m hm hm'
    obtain ⟨i, -, rfl⟩ := List.mem_map.mp hm
    obtain ⟨j, -, hj⟩ := List.mem_map.mp hm'
    exact hne (Message.mk.inj hj).1.symm

/-- The priorities of new jobs are consecutive. -/
lemma map_fst_indexed (start : ℕ) (messages : List Message) :
    ((indexed start messages).map key).map Prod.fst = List.range' start messages.length := by
  rw [indexed, List.map_map, List.map_map, ← List.zipIdx_map_snd start messages]
  rfl

/-- The messages of new jobs. -/
lemma map_snd_indexed (start : ℕ) (messages : List Message) :
    ((indexed start messages).map key).map Prod.snd = messages := by
  rw [indexed, List.map_map, List.map_map]
  exact List.zipIdx_map_fst start messages

/-- The priority of a new job is behind the start. -/
lemma mem_range_of_mem_indexed {start : ℕ} {messages : List Message} {k : ℕ × Message}
    (h : k ∈ (indexed start messages).map key) : start ≤ k.1 ∧ k.1 < start + messages.length := by
  have hfst : k.1 ∈ List.range' start messages.length := by
    rw [← map_fst_indexed]
    exact List.mem_map_of_mem h
  exact List.mem_range'_1.mp hfst

/-- The message of a new job. -/
lemma mem_of_mem_indexed {start : ℕ} {messages : List Message} {k : ℕ × Message}
    (h : k ∈ (indexed start messages).map key) : k.2 ∈ messages := by
  have hsnd := List.mem_map_of_mem (f := Prod.snd) h
  rwa [map_snd_indexed] at hsnd

/-! ## Tracked trajectories -/

/-- **Tracked trajectories**: the instances of the batch are distinct, and the ledger has distinct
trajectories of these instances. -/
structure Tracked (config : Config) (s : State F) : Prop where
  ids : (s.allInputBatch.map Instance.instanceId).Nodup
  messages : (s.ledger.map Prod.snd).Nodup
  known : ∀ k ∈ s.ledger, k.2 ∈ messagesOf config.numTrajectories s.allInputBatch

/-- Dropping and moving elements keeps their images distinct. -/
lemma nodup_map_of_subperm {α β : Type} {f : α → β} {l l' : List α} (h : l.Subperm l')
    (hnodup : (l'.map f).Nodup) : (l.map f).Nodup := by
  obtain ⟨m, hperm, hsublist⟩ := h
  exact (hperm.map f).nodup_iff.mp (hnodup.sublist (hsublist.map f))

/-- Dropping entries keeps the trajectories tracked. -/
lemma Tracked.of_subperm (hs : Tracked config s) (hledger : s'.ledger.Subperm s.ledger)
    (hbatch : s'.allInputBatch = s.allInputBatch) : Tracked config s' := by
  refine ⟨?_, nodup_map_of_subperm hledger hs.messages, fun k hk => ?_⟩
  · rw [hbatch]
    exact hs.ids
  · rw [hbatch]
    exact hs.known k (hledger.subset hk)

/-- A refill keeps the trajectories tracked. -/
lemma Tracked.of_refilled {batch : List Instance} (hs : Tracked config s)
    (h : Refilled config s batch s') : Tracked config s' := by
  have hids : ((s.allInputBatch ++ batch).map Instance.instanceId).Nodup := h.fresh
  rw [List.map_append, List.nodup_append] at hids
  obtain ⟨-, hnew, hdisjoint⟩ := hids
  refine ⟨?_, ?_, fun k hk => ?_⟩
  · rw [h.allInputBatch]
    exact h.fresh
  · rw [h.ledger, List.map_append, map_snd_indexed, List.nodup_append]
    refine ⟨nodup_messagesOf hnew, hs.messages, ?_⟩
    rintro m hm m' hm' rfl
    obtain ⟨k, hk, rfl⟩ := List.mem_map.mp hm'
    have hold := (mem_messagesOf.1 (hs.known k hk)).1
    exact hdisjoint _ hold _ (mem_messagesOf.1 hm).1 rfl
  · rw [h.ledger, List.mem_append] at hk
    rw [h.allInputBatch, mem_messagesOf, List.map_append, List.mem_append]
    rcases hk with hk | hk
    · obtain ⟨hid, hj⟩ := mem_messagesOf.1 (mem_of_mem_indexed hk)
      exact ⟨.inr hid, hj⟩
    · obtain ⟨hid, hj⟩ := mem_messagesOf.1 (hs.known k hk)
      exact ⟨.inl hid, hj⟩

end ProRLAgent.Rollout.Dapo
