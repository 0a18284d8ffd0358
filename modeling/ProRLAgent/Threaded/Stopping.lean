import Mathlib.Data.List.Basic
import Mathlib.Data.Bool.Basic
import ProRLAgent.Lib.Machine
import ProRLAgent.Lib.Pool
import ProRLAgent.Threaded.Server
import ProRLAgent.Threaded.NoJobLost
import ProRLAgent.Threaded.Cancellation

set_option relaxedAutoImplicit false
set_option autoImplicit false

/-!
# Stopping the server

`stop` takes a snapshot of the active sets, sets the completion events of these jobs, and then
clears `_job_details` and the queues. A `process` call whose job is on a queue at that moment, or
between two workers, is not in the snapshot: its entry and its id are cleared away and it waits
forever.

`StopCovers` is the condition that every call that waited when `stop` was called, and still waits
at the snapshot, is in an active set. Along runs that meet it a `stop` that has returned has
released every waiter. The invariant follows a waiter through the signalling loop: its event is
set, or its id is still to be signalled and leads to its own job (`State.Owned`). An entry of
`_job_details` can be deleted in between only by a cancellation, which has set the event first;
that needs the exclusion of `_job_details_lock`.

## Main definitions

* `ThreadedServer.State.WaitersReleased` — every stop that has returned has released its waiters.
* `ThreadedServer.StopCovers` — the condition on a step.
* `ThreadedServer.Releasing` — the invariant.

## Main results

* `ThreadedServer.step_releasing` — a step that meets the condition keeps the invariant.
* `ThreadedServer.waitersReleased_of_stopCovers` — along runs that meet the condition no waiter is
  left behind.
* `ThreadedServer.not_waitersReleased_stoppedQueued` — a call whose job is on a queue is left
  behind.
-/

namespace ProRLAgent.ThreadedServer

/-! ## The property and the condition -/

/-- The completion event of the job of call `i` is set. -/
def State.EventSet (s : State) (i : ℕ) : Prop := ∃ c, s.calls[i]? = some c ∧ c.job.event = true

/-- The `stop` call has returned. -/
def StopPc.isDone : StopPc → Bool
  | .done => true
  | _ => false

/-- **Every waiter is released**: when a `stop` call has returned, the event of every call that
waited when it was called is set. -/
def State.WaitersReleased (s : State) : Prop :=
  ∀ t ∈ s.stops, t.pc.isDone = true → ∀ i ∈ t.waiters, s.EventSet i

/-- The `stop` call is at its snapshot of the active sets. -/
def StopPc.isSnapshot : StopPc → Bool
  | .snapshot => true
  | _ => false

/-- Every call that waited when `stop` was called, and whose event is still unset, has its id in an
active set and its entry in `_job_details`. -/
def State.Covered (s : State) (waiters : List ℕ) : Prop :=
  ∀ i ∈ waiters, ∀ c ∈ s.calls[i]?, c.job.event = false →
    c.id ∈ s.active .init ++ s.active .run ++ s.active .eval ∧ s.details c.id = some i

/-- **The condition on a step**: the waiters of a `stop` call are covered at its snapshot; no two
`stop` calls overlap, and a stopped server is stopped again only when no call waits for an unset
event; no job is inserted under an id whose entry another call still has. -/
def StopCovers (s : State) : Label → Prop
  | .call i _ => ∀ c ∈ s.calls[i]?, c.pc.isInsert → ∀ d ∈ s.calls, d.id = c.id →
      d.pc.registered = false
  | .stopBegin =>
    (s.running → ∀ t ∈ s.stops, t.pc.isDone) ∧
      (s.running = false → ∀ i ∈ s.waiters, ∀ c ∈ s.calls[i]?, c.job.event)
  | .stop k _ => ∀ t ∈ s.stops[k]?, t.pc.isSnapshot → s.Covered t.waiters
  | _ => True

instance (s : State) (waiters : List ℕ) : Decidable (s.Covered waiters) := by
  unfold State.Covered; infer_instance

instance (s : State) (l : Label) : Decidable (StopCovers s l) :=
  match l with
  | .call i _ =>
    inferInstanceAs (Decidable (∀ c ∈ s.calls[i]?, c.pc.isInsert → ∀ d ∈ s.calls,
      d.id = c.id → d.pc.registered = false))
  | .stopBegin =>
    inferInstanceAs (Decidable ((s.running → ∀ t ∈ s.stops, t.pc.isDone) ∧
      (s.running = false → ∀ i ∈ s.waiters, ∀ c ∈ s.calls[i]?, c.job.event)))
  | .stop k _ =>
    inferInstanceAs (Decidable (∀ t ∈ s.stops[k]?, t.pc.isSnapshot → s.Covered t.waiters))
  | .submit _ _ | .worker _ _ | .cancelBegin _ | .cancel _ | .start =>
    inferInstanceAs (Decidable True)

/-! ## The invariant -/

/-- The cancellation holds `_job_details_lock`. -/
def CancelPc.holdsLock : CancelPc → Bool
  | .flag _ | .signal _ | .cleanup _ _ | .delete => true
  | _ => false

/-- The `stop` call holds `_job_details_lock`. -/
def StopPc.holdsLock : StopPc → Bool
  | .flagJob _ _ | .setJob _ _ | .cleanup _ _ _ => true
  | _ => false

/-- How many threads hold `_job_details_lock`. -/
def State.holders (s : State) : ℕ :=
  s.cancels.countP (fun d => d.pc.holdsLock) + s.stops.countP fun t => t.pc.holdsLock

/-- Call `i` waits for its event. -/
def State.Waiting (s : State) (i : ℕ) : Prop := ∃ c, s.calls[i]? = some c ∧ c.pc = .waiting

/-- Call `i` waits under the id `j`, and the entry of that id is its own. -/
def State.Owned (s : State) (i : ℕ) (j : String) : Prop :=
  ∃ c, s.calls[i]? = some c ∧ c.pc = .waiting ∧ c.id = j ∧ s.details j = some i

/-- What a cancellation that holds the lock knows about the entry of its id: it is the job that it
has found, and later the event of that job is set. -/
def CancelOk (s : State) (j : String) : CancelPc → Prop
  | .flag r | .signal r => ∀ r', s.details j = some r' → r' = r
  | .cleanup _ _ | .delete => ∀ r', s.details j = some r' → s.EventSet r'
  | _ => True

/-- Where the waiters of a `stop` call are: released, or still to be signalled. -/
def StopOk (s : State) (waiters : List ℕ) : StopPc → Prop
  | .flag | .snapshot => ∀ i ∈ waiters, s.EventSet i ∨ s.Waiting i
  | .signal pending | .cleanup _ _ pending =>
    ∀ i ∈ waiters, s.EventSet i ∨ ∃ j ∈ pending, s.Owned i j
  | .flagJob r pending | .setJob r pending =>
    ∀ i ∈ waiters, s.EventSet i ∨ (r = i ∧ s.Waiting i) ∨ ∃ j ∈ pending, s.Owned i j
  | _ => ∀ i ∈ waiters, s.EventSet i

/-- **The invariant.** -/
structure Releasing (s : State) : Prop where
  lock : s.holders = s.detailsLocked.toNat
  valid : ∀ j r, s.details j = some r → r < s.calls.length
  unique : ∀ (i k : ℕ) (c d : Call), s.calls[i]? = some c → s.calls[k]? = some d →
    c.pc.registered = true → d.pc.registered = true → c.id = d.id → i = k
  cancels : ∀ d ∈ s.cancels, CancelOk s d.id d.pc
  oneStop : ∀ (k l : ℕ) (t u : Stop), s.stops[k]? = some t → s.stops[l]? = some u →
    t.pc.isDone = false → u.pc.isDone = false → k = l
  stops : ∀ t ∈ s.stops, StopOk s t.waiters t.pc

/-- The invariant gives that every waiter is released. -/
lemma Releasing.waitersReleased {s : State} (h : Releasing s) : s.WaitersReleased := by
  intro t ht hdone
  have hok := h.stops t ht
  cases hpc : t.pc <;> simp only [hpc, StopPc.isDone, Bool.false_eq_true] at hdone hok
  exact hok

/-! ## Frames -/

section Frames

variable {s s' : State}

/-- The step loses no waiter: events stay set, and a waiter stays where it is or is released. -/
structure Steady (s s' : State) : Prop where
  set : ∀ i, s.EventSet i → s'.EventSet i
  waiting : ∀ i, s.Waiting i → s'.EventSet i ∨ s'.Waiting i
  owned : ∀ i j, s.Owned i j → s'.EventSet i ∨ s'.Owned i j

/-- A step that loses no waiter keeps what is known about a `stop` call. -/
lemma StopOk.steady (hs : Steady s s') {waiters : List ℕ} {pc : StopPc}
    (h : StopOk s waiters pc) : StopOk s' waiters pc := by
  have hpend : ∀ {i : ℕ} {pending : List String},
      (s.EventSet i ∨ ∃ j ∈ pending, s.Owned i j) →
      s'.EventSet i ∨ ∃ j ∈ pending, s'.Owned i j := by
    rintro i pending (hi | ⟨j, hj, hi⟩)
    · exact .inl (hs.set i hi)
    · rcases hs.owned i j hi with hi | hi
      · exact .inl hi
      · exact .inr ⟨j, hj, hi⟩
  cases pc <;> simp only [StopOk] at h ⊢ <;> intro i hi
  case flag => exact (h i hi).elim (fun hi => .inl (hs.set i hi)) (hs.waiting i)
  case snapshot => exact (h i hi).elim (fun hi => .inl (hs.set i hi)) (hs.waiting i)
  case signal => exact hpend (h i hi)
  case cleanup => exact hpend (h i hi)
  case putStops => exact hs.set i (h i hi)
  case clearSets => exact hs.set i (h i hi)
  case clearDetails => exact hs.set i (h i hi)
  case clearQueue => exact hs.set i (h i hi)
  case done => exact hs.set i (h i hi)
  all_goals
    rcases h i hi with hset | ⟨hr, hw⟩ | hown
    · exact .inl (hs.set i hset)
    · rcases hs.waiting i hw with hset | hw
      · exact .inl hset
      · exact .inr (.inl ⟨hr, hw⟩)
    · rcases hpend (.inr hown) with hset | hown
      · exact .inl hset
      · exact .inr (.inr hown)

/-- The step changes nothing but the data of jobs, clears no event and does not concern the locks
and the entries. -/
structure JobsOnly (s s' : State) : Prop where
  details : s'.details = s.details
  locked : s'.detailsLocked = s.detailsLocked
  cancels : s'.cancels = s.cancels
  stops : s'.stops = s.stops
  length : s'.calls.length = s.calls.length
  call : ∀ (i : ℕ) (c : Call), s.calls[i]? = some c → ∃ c' : Call, s'.calls[i]? = some c' ∧
    c'.id = c.id ∧ c'.pc = c.pc ∧ (c.job.event = true → c'.job.event = true)

lemma JobsOnly.refl (s : State) : JobsOnly s s :=
  ⟨rfl, rfl, rfl, rfl, rfl, fun _ c hc => ⟨c, hc, rfl, rfl, id⟩⟩

/-- A change of a job's data that does not clear its event is such a step. -/
lemma jobsOnly_modifyJob (s : State) (r : ℕ) (f : JobDetails → JobDetails)
    (hf : ∀ job, job.event = true → (f job).event = true) : JobsOnly s (s.modifyJob r f) := by
  refine ⟨rfl, rfl, rfl, rfl, by simp [State.modifyJob], fun i c hc => ?_⟩
  refine ⟨_, by rw [getElem?_modifyJob, hc]; rfl, ?_⟩
  split
  · exact ⟨rfl, rfl, hf _⟩
  · exact ⟨rfl, rfl, id⟩

/-- Closing a runtime is such a step. -/
lemma jobsOnly_closeRuntime (s : State) (r : ℕ) (stage : CloseStage) :
    JobsOnly s (s.closeRuntime r stage).1 := by
  rcases closeRuntime_cases s r stage with h | h | h <;> rw [h]
  · exact .refl s
  · exact ⟨rfl, rfl, rfl, rfl, rfl, fun _ c hc => ⟨c, hc, rfl, rfl, id⟩⟩
  · exact jobsOnly_modifyJob s r _ fun _ h => h

/-- Such a step loses no waiter. -/
lemma JobsOnly.steady (h : JobsOnly s s') : Steady s s' := by
  refine ⟨fun i hi => ?_, fun i hi => ?_, fun i j hi => ?_⟩
  · obtain ⟨c, hc, he⟩ := hi
    obtain ⟨c', hc', -, -, hev⟩ := h.call i c hc
    exact ⟨c', hc', hev he⟩
  · obtain ⟨c, hc, hpc⟩ := hi
    obtain ⟨c', hc', -, hpc', -⟩ := h.call i c hc
    exact .inr ⟨c', hc', hpc'.trans hpc⟩
  · obtain ⟨c, hc, hpc, hid, hd⟩ := hi
    obtain ⟨c', hc', hid', hpc', -⟩ := h.call i c hc
    exact .inr ⟨c', hc', hpc'.trans hpc, hid'.trans hid, h.details ▸ hd⟩

/-- The old version of a call. -/
lemma JobsOnly.back (h : JobsOnly s s') {i : ℕ} {c' : Call} (hc' : s'.calls[i]? = some c') :
    ∃ c, s.calls[i]? = some c ∧ c'.id = c.id ∧ c'.pc = c.pc := by
  have hlt : i < s.calls.length := h.length ▸ (List.getElem?_eq_some_iff.mp hc').1
  have hc : s.calls[i]? = some s.calls[i] := List.getElem?_eq_getElem hlt
  obtain ⟨d, hd, hid, hpc, -⟩ := h.call i _ hc
  obtain rfl := Option.some.inj (hd.symm.trans hc')
  exact ⟨_, hc, hid, hpc⟩

/-- What a cancellation knows survives a step that deletes entries and sets events. -/
lemma CancelOk.mono {j : String} {pc : CancelPc} (h : CancelOk s j pc)
    (hdet : ∀ r, s'.details j = some r → s.details j = some r)
    (hset : ∀ i, s.EventSet i → s'.EventSet i) : CancelOk s' j pc := by
  cases pc <;> simp only [CancelOk] at h ⊢
  case flag => exact fun r' hr' => h r' (hdet r' hr')
  case signal => exact fun r' hr' => h r' (hdet r' hr')
  case cleanup => exact fun r' hr' => hset r' (h r' (hdet r' hr'))
  case delete => exact fun r' hr' => hset r' (h r' (hdet r' hr'))

/-- A step that concerns only the data of jobs keeps the invariant. -/
lemma Releasing.of_jobsOnly (h : Releasing s) (hj : JobsOnly s s') : Releasing s' where
  lock := by
    unfold State.holders
    rw [hj.cancels, hj.stops, hj.locked]
    exact h.lock
  valid j r hr := by
    rw [hj.length]
    exact h.valid j r (hj.details ▸ hr)
  unique i k c d hc hd hcr hdr hid := by
    obtain ⟨c₀, hc₀, hcid, hcpc⟩ := hj.back hc
    obtain ⟨d₀, hd₀, hdid, hdpc⟩ := hj.back hd
    exact h.unique i k c₀ d₀ hc₀ hd₀ (hcpc ▸ hcr) (hdpc ▸ hdr) (by rw [← hcid, ← hdid, hid])
  cancels d hd := (h.cancels d (hj.cancels ▸ hd)).mono (fun r hr => hj.details ▸ hr) hj.steady.set
  oneStop := hj.stops ▸ h.oneStop
  stops t ht := (h.stops t (hj.stops ▸ ht)).steady hj.steady

end Frames

/-! ## Workers -/

section Workers

variable {s s' : State} {w : ℕ} {k : JobType}

/-- The end of a handler concerns only the worker. -/
lemma jobsOnly_handlerStep {j : String} {r : ℕ} {o : HandlerOutcome}
    (hstep : handlerStep s w k j r o = some s') : JobsOnly s s' := by
  have hcall := (JobsOnly.refl s).call
  cases o with
  | initialized =>
    simp only [handlerStep, Option.ite_none_right_eq_some, Option.some.injEq] at hstep
    obtain ⟨-, rfl⟩ := hstep
    exact ⟨rfl, rfl, rfl, rfl, rfl, hcall⟩
  | ran results =>
    simp only [handlerStep, Option.ite_none_right_eq_some, Option.some.injEq] at hstep
    obtain ⟨-, rfl⟩ := hstep
    exact ⟨rfl, rfl, rfl, rfl, rfl, hcall⟩
  | evaluated report =>
    simp only [handlerStep, Option.ite_none_right_eq_some, Option.some.injEq] at hstep
    obtain ⟨-, rfl⟩ := hstep
    exact ⟨rfl, rfl, rfl, rfl, rfl, hcall⟩
  | timeout =>
    obtain rfl := Option.some.inj hstep
    exact ⟨rfl, rfl, rfl, rfl, rfl, hcall⟩
  | failed =>
    obtain rfl := Option.some.inj hstep
    exact ⟨rfl, rfl, rfl, rfl, rfl, hcall⟩

/-- What a worker does after a change of a job's data. -/
lemma JobsOnly.setWorker (h : JobsOnly s s') (w : ℕ) (k : JobType) (pc : WorkerPc) :
    JobsOnly s (s'.setWorker w k pc) :=
  ⟨h.details, h.locked, h.cancels, h.stops, h.length, h.call⟩

/-- **A worker deletes no entry and clears no event.** -/
lemma jobsOnly_workerStep {pc : WorkerPc} {a : WorkerAct}
    (hstep : workerStep s w k pc a = some s') : JobsOnly s s' := by
  have hcall := (JobsOnly.refl s).call
  cases pc <;> cases a <;> simp only [workerStep, reduceCtorEq] at hstep
  case waiting.go =>
    split at hstep
    · cases hstep
    · obtain rfl := Option.some.inj hstep
      exact ⟨rfl, rfl, rfl, rfl, rfl, hcall⟩
  case got.go j =>
    split at hstep
    · cases hstep
    · split at hstep <;> obtain rfl := Option.some.inj hstep <;>
        exact ⟨rfl, rfl, rfl, rfl, rfl, hcall⟩
  case found.go j r =>
    split at hstep <;> obtain rfl := Option.some.inj hstep <;>
      exact ⟨rfl, rfl, rfl, rfl, rfl, hcall⟩
  case active.handler j r o => exact jobsOnly_handlerStep hstep
  case produced.go j r x =>
    obtain rfl := Option.some.inj hstep
    apply JobsOnly.setWorker
    exact jobsOnly_modifyJob s r _ fun _ h => h
  case produced.handler j r x o =>
    cases o <;> simp only [reduceCtorEq] at hstep
    obtain rfl := Option.some.inj hstep
    exact (JobsOnly.refl s).setWorker w k _
  case ran.go j r results =>
    obtain rfl := Option.some.inj hstep
    apply JobsOnly.setWorker
    exact jobsOnly_modifyJob s r _ fun _ h => h
  case evaluated.go j r report =>
    obtain rfl := Option.some.inj hstep
    apply JobsOnly.setWorker
    exact jobsOnly_modifyJob s r _ fun _ h => h
  case timedOut.go j r =>
    obtain rfl := Option.some.inj hstep
    apply JobsOnly.setWorker
    exact jobsOnly_modifyJob s r _ fun _ h => h
  case cleanup.go j r stage success =>
    split at hstep <;> obtain rfl := Option.some.inj hstep <;>
      exact (jobsOnly_closeRuntime s r stage).setWorker w k _
  case handling.handled j r res =>
    cases res with
    | error e =>
      obtain rfl := Option.some.inj hstep
      exact (JobsOnly.refl s).setWorker w k _
    | ok results =>
      obtain rfl := Option.some.inj hstep
      apply JobsOnly.setWorker
      exact jobsOnly_modifyJob s r _ fun _ h => h
  case putting.go j r =>
    obtain rfl := Option.some.inj hstep
    exact ⟨rfl, rfl, rfl, rfl, rfl, hcall⟩
  case setting.go j r =>
    obtain rfl := Option.some.inj hstep
    apply JobsOnly.setWorker
    exact jobsOnly_modifyJob s r _ fun _ _ => rfl
  case leaving.go j =>
    obtain rfl := Option.some.inj hstep
    exact ⟨rfl, rfl, rfl, rfl, rfl, hcall⟩
  case crashing.go j =>
    obtain rfl := Option.some.inj hstep
    exact ⟨rfl, rfl, rfl, rfl, rfl, hcall⟩

end Workers

/-! ## Calls -/

section Calls

variable {s s' : State} {i : ℕ} {c : Call}

/-- A step of a call loses no waiter if the call itself does not leave its wait before the event
and the entries of waiters stay. -/
lemma steady_setCall (hi : s.calls[i]? = some c) (pc : CallPc)
    (hpc : c.pc = .waiting → c.job.event = true) {details : String → Option ℕ}
    (hdet : ∀ k j, s.Owned k j → details j = s.details j) :
    Steady s { s.setCall i { c with pc := pc } with details := details } := by
  have hlt : i < s.calls.length := (List.getElem?_eq_some_iff.mp hi).1
  have hset : ∀ k, s.EventSet k →
      State.EventSet { s.setCall i { c with pc := pc } with details := details } k := by
    rintro k ⟨d, hd, he⟩
    by_cases hik : i = k
    · subst hik
      obtain rfl := Option.some.inj (hi.symm.trans hd)
      exact ⟨{ c with pc := pc }, by simp [State.setCall, hlt], he⟩
    · exact ⟨d, by simpa [State.setCall, List.getElem?_set_ne hik] using hd, he⟩
  refine ⟨hset, fun k hk => ?_, fun k j hk => ?_⟩
  · obtain ⟨d, hd, hdpc⟩ := hk
    by_cases hik : i = k
    · subst hik
      obtain rfl := Option.some.inj (hi.symm.trans hd)
      exact .inl (hset i ⟨c, hi, hpc hdpc⟩)
    · exact .inr ⟨d, by simpa [State.setCall, List.getElem?_set_ne hik] using hd, hdpc⟩
  · have hentry := hdet k j hk
    obtain ⟨d, hd, hdpc, hdid, hdj⟩ := hk
    by_cases hik : i = k
    · subst hik
      obtain rfl := Option.some.inj (hi.symm.trans hd)
      exact .inl (hset i ⟨c, hi, hpc hdpc⟩)
    · exact .inr ⟨d, by simpa [State.setCall, List.getElem?_set_ne hik] using hd, hdpc, hdid,
        hentry.trans hdj⟩

/-- Two registered calls have different ids also after a step of one of them that was registered
before. -/
lemma unique_setCall (h : Releasing s) (hi : s.calls[i]? = some c) {pc : CallPc}
    (hreg : pc.registered = true → c.pc.registered = true) (k l : ℕ) (d e : Call)
    (hd : (s.setCall i { c with pc := pc }).calls[k]? = some d)
    (he : (s.setCall i { c with pc := pc }).calls[l]? = some e)
    (hdr : d.pc.registered = true) (her : e.pc.registered = true) (hid : d.id = e.id) : k = l := by
  have hold : ∀ {m : ℕ} {f : Call}, (s.setCall i { c with pc := pc }).calls[m]? = some f →
      f.pc.registered = true →
      ∃ f₀, s.calls[m]? = some f₀ ∧ f₀.pc.registered = true ∧ f₀.id = f.id := by
    intro m f hf hfr
    by_cases him : i = m
    · subst him
      have hlt : i < s.calls.length := (List.getElem?_eq_some_iff.mp hi).1
      obtain rfl : { c with pc := pc } = f := by simpa [State.setCall, hlt] using hf
      exact ⟨c, hi, hreg hfr, rfl⟩
    · exact ⟨f, by simpa [State.setCall, List.getElem?_set_ne him] using hf, hfr, rfl⟩
  obtain ⟨d₀, hd₀, hdr₀, hdid⟩ := hold hd hdr
  obtain ⟨e₀, he₀, her₀, heid⟩ := hold he her
  exact h.unique k l d₀ e₀ hd₀ he₀ hdr₀ her₀ (by rw [hdid, heid, hid])

/-- A step of a call that was registered before. -/
lemma Releasing.setCall (h : Releasing s) (hi : s.calls[i]? = some c) {pc : CallPc}
    (hreg : pc.registered = true → c.pc.registered = true)
    (hpc : c.pc = .waiting → c.job.event = true) {details : String → Option ℕ}
    (hdet : ∀ k j, s.Owned k j → details j = s.details j)
    (hsub : ∀ j r, details j = some r → s.details j = some r) :
    Releasing { s.setCall i { c with pc := pc } with details := details } := by
  have hsteady := steady_setCall hi pc hpc hdet
  exact {
    lock := h.lock
    valid := fun j r hr => by
      simpa [State.setCall] using h.valid j r (hsub j r hr)
    unique := unique_setCall h hi hreg
    cancels := fun d hd => (h.cancels d hd).mono (hsub d.id) hsteady.set
    oneStop := h.oneStop
    stops := fun t ht => (h.stops t ht).steady hsteady }

/-- A cancellation without the lock knows nothing. -/
lemma cancelOk_of_not_holdsLock {j : String} {pc : CancelPc} (h : pc.holdsLock = false) :
    CancelOk s j pc := by
  cases pc <;> simp [CancelPc.holdsLock, CancelOk] at h ⊢

/-- Nobody holds a free lock. -/
lemma Releasing.not_holdsLock (h : Releasing s) (hfree : s.detailsLocked = false) :
    ∀ d ∈ s.cancels, d.pc.holdsLock = false := by
  have hzero : s.cancels.countP (fun d => d.pc.holdsLock) = 0 := by
    have hlock := h.lock
    simp only [State.holders, hfree, Bool.toNat_false] at hlock
    omega
  intro d hd
  simpa using List.countP_eq_zero.mp hzero d hd

/-- The insertion of a job under an id that no other call has. -/
lemma Releasing.insert (h : Releasing s) (hi : s.calls[i]? = some c) (hc : c.pc = .insert)
    (hlock : s.detailsLocked = false)
    (hfree : ∀ d ∈ s.calls, d.id = c.id → d.pc.registered = false) :
    Releasing { s.setCall i { c with pc := .put } with
      details := Function.update s.details c.id (some i) } := by
  have hlt : i < s.calls.length := (List.getElem?_eq_some_iff.mp hi).1
  have hsteady : Steady s { s.setCall i { c with pc := .put } with
      details := Function.update s.details c.id (some i) } := by
    refine steady_setCall hi .put (fun hw => ?_) fun k j hk => ?_
    · rw [hc] at hw
      cases hw
    · -- The owner of the entry is registered, so its id is another one.
      obtain ⟨d, hd, hdpc, rfl, -⟩ := hk
      have hne : d.id ≠ c.id := by
        intro hid
        have := hfree d (List.mem_of_getElem? hd) hid
        rw [hdpc] at this
        cases this
      exact Function.update_of_ne hne _ _
  have hnew : ∀ {m : ℕ} {f : Call}, (s.calls.set i { c with pc := .put })[m]? = some f →
      f.pc.registered = true → f.id = c.id → m = i := by
    intro m f hf hreg hid
    by_contra hne
    rw [List.getElem?_set_ne (Ne.symm hne)] at hf
    rw [hfree f (List.mem_of_getElem? hf) hid] at hreg
    cases hreg
  exact {
    lock := h.lock
    valid := fun j r hr => by
      simp only [State.setCall, List.length_set]
      by_cases hj : j = c.id
      · subst hj
        simp only [Function.update_self, Option.some.injEq] at hr
        exact hr ▸ hlt
      · simp only [Function.update_of_ne hj] at hr
        exact h.valid j r hr
    unique := fun k l d e hd he hdr her hid => by
      by_cases hdc : d.id = c.id
      · rw [hnew hd hdr hdc, hnew he her (hid ▸ hdc)]
      · have hki : i ≠ k := by
          rintro rfl
          obtain rfl : { c with pc := .put } = d := by simpa [State.setCall, hlt] using hd
          exact hdc rfl
        have hli : i ≠ l := by
          rintro rfl
          obtain rfl : { c with pc := .put } = e := by simpa [State.setCall, hlt] using he
          exact hdc hid
        simp only [State.setCall, List.getElem?_set_ne hki] at hd
        simp only [State.setCall, List.getElem?_set_ne hli] at he
        exact h.unique k l d e hd he hdr her hid
    cancels := fun d hd => cancelOk_of_not_holdsLock (h.not_holdsLock hlock d hd)
    oneStop := h.oneStop
    stops := fun t ht => (h.stops t ht).steady hsteady }

/-- **A step of a call keeps the invariant.** -/
lemma callStep_releasing (h : Releasing s) (hi : s.calls[i]? = some c)
    {p : Except PyError PartialResult}
    (hcond : c.pc.isInsert → ∀ d ∈ s.calls, d.id = c.id → d.pc.registered = false)
    (hstep : callStep s i c p c.pc = some s') : Releasing s' := by
  have hgo : ∀ (s₁ : State) {pc : CallPc}, Releasing s₁ → s₁.calls = s.calls →
      (pc.registered = true → c.pc.registered = true) →
      (c.pc = .waiting → c.job.event = true) → Releasing (s₁.setCall i { c with pc := pc }) :=
    fun _ _ h₁ hcalls hreg hpc =>
      h₁.setCall (hcalls ▸ hi) hreg hpc (fun _ _ _ => rfl) fun _ _ hr => hr
  cases hc : c.pc <;> rw [hc] at hstep <;> simp only [callStep, reduceCtorEq] at hstep
  case insert =>
    split at hstep
    · cases hstep
    · next hlock =>
      obtain rfl := Option.some.inj hstep
      exact h.insert hi hc (by simpa using hlock) (hcond (by simp [hc, CallPc.isInsert]))
  case put =>
    obtain rfl := Option.some.inj hstep
    exact hgo (s.enqueue .init c.id) { h with } rfl (by simp [hc, CallPc.registered])
      (by simp [hc])
  case waiting =>
    split at hstep
    · next hevent =>
      split at hstep <;> obtain rfl := Option.some.inj hstep
      · exact hgo s h rfl (by simp [hc, CallPc.registered]) fun _ => hevent
      · exact hgo s h rfl (by simp [hc, CallPc.registered]) fun _ => hevent
    · cases hstep
  case check result =>
    obtain rfl := Option.some.inj hstep
    exact hgo s h rfl (by simp [hc, CallPc.registered]) (by simp [hc])
  case close result =>
    obtain rfl := Option.some.inj hstep
    exact hgo { s with closed := s.closed ++ c.job.runtime.toList } { h with } rfl
      (by simp [hc, CallPc.registered]) (by simp [hc])
  case delete result =>
    split at hstep
    · cases hstep
    · split at hstep <;> obtain rfl := Option.some.inj hstep
      · exact hgo s h rfl (by simp [hc, CallPc.registered]) (by simp [hc])
      · refine h.setCall hi (by simp [CallPc.registered]) (by simp [hc]) (fun k j hk => ?_)
          fun j r hr => ?_
        · -- A waiter under the same id would be registered beside this call.
          obtain ⟨d, hd, hdpc, rfl, -⟩ := hk
          have hne : d.id ≠ c.id := by
            intro hid
            have hik := h.unique k i d c hd hi (by simp [hdpc, CallPc.registered])
              (by simp [hc, CallPc.registered]) hid
            subst hik
            obtain rfl := Option.some.inj (hi.symm.trans hd)
            rw [hc] at hdpc
            cases hdpc
          exact Function.update_of_ne hne _ _
        · by_cases hj : j = c.id
          · subst hj
            simp at hr
          · simpa [Function.update_of_ne hj] using hr

end Calls

/-! ## Cancellations -/

section Cancels

variable {s s' : State} {k : ℕ} {d : Cancel}

/-- A step of a cancellation, which may take or release the lock. -/
lemma Releasing.setCancel (h : Releasing s) (hk : s.cancels[k]? = some d) {d' : Cancel} {b : Bool}
    (hok : CancelOk s d'.id d'.pc)
    (hlock : b.toNat + d.pc.holdsLock.toNat = s.detailsLocked.toNat + d'.pc.holdsLock.toNat) :
    Releasing { s.setCancel k d' with detailsLocked := b } where
  lock := by
    have hcount := Pool.countP_set_add (fun d : Cancel => d.pc.holdsLock) d' hk
    have hold := h.lock
    simp only [State.holders, State.setCancel] at hold hcount ⊢
    omega
  valid := h.valid
  unique := h.unique
  cancels e he := by
    rcases List.mem_or_eq_of_mem_set he with he | rfl
    · exact h.cancels e he
    · exact hok
  oneStop := h.oneStop
  stops := h.stops

/-- The lock of a cancellation that holds it is taken. -/
lemma Releasing.locked_of_cancel (h : Releasing s) (hd : d ∈ s.cancels)
    (hl : d.pc.holdsLock = true) : s.detailsLocked = true := by
  have hpos : 0 < s.cancels.countP fun d => d.pc.holdsLock := List.countP_pos_iff.mpr ⟨d, hd, hl⟩
  have hlock := h.lock
  cases hb : s.detailsLocked with
  | true => rfl
  | false =>
    simp only [State.holders, hb, Bool.toNat_false] at hlock
    omega

/-- The event of a job that exists is set by the assignment. -/
lemma eventSet_modifyJob {r : ℕ} (hr : r < s.calls.length) :
    (s.modifyJob r fun job => { job with event := true }).EventSet r :=
  ⟨_, by rw [getElem?_modifyJob, List.getElem?_eq_getElem hr]; rfl, by simp⟩

/-- The deletion of an entry whose event is set. -/
lemma Releasing.deleteEntry (h : Releasing s) {j : String}
    (hset : ∀ r, s.details j = some r → s.EventSet r) :
    Releasing { s with details := Function.update s.details j none } := by
  have hsub : ∀ j' r, Function.update s.details j none j' = some r → s.details j' = some r := by
    intro j' r hr
    by_cases hj : j' = j
    · subst hj
      simp at hr
    · simpa [Function.update_of_ne hj] using hr
  have hsteady : Steady s { s with details := Function.update s.details j none } := by
    refine ⟨fun i hi => hi, fun i hi => .inr hi, fun i j' hi => ?_⟩
    obtain ⟨c, hc, hpc, hid, hd⟩ := hi
    by_cases hj : j' = j
    · subst hj
      exact .inl (hset i hd)
    · exact .inr ⟨c, hc, hpc, hid, by simpa [Function.update_of_ne hj] using hd⟩
  exact {
    lock := h.lock
    valid := fun j' r hr => h.valid j' r (hsub j' r hr)
    unique := h.unique
    cancels := fun d hd => (h.cancels d hd).mono (hsub d.id) hsteady.set
    oneStop := h.oneStop
    stops := fun t ht => (h.stops t ht).steady hsteady }

/-- **A step of a cancellation keeps the invariant.** -/
lemma cancelStep_releasing (h : Releasing s) (hk : s.cancels[k]? = some d)
    (hstep : cancelStep s k d d.pc = some s') : Releasing s' := by
  have hok := h.cancels d (List.mem_of_getElem? hk)
  have hgo : ∀ {s₁ : State} (d' : Cancel), JobsOnly s s₁ → CancelOk s₁ d'.id d'.pc →
      d.pc.holdsLock = d'.pc.holdsLock → Releasing (s₁.setCancel k d') := by
    intro s₁ d' hj hok hlock
    exact (h.of_jobsOnly hj).setCancel (b := s₁.detailsLocked) (hj.cancels ▸ hk) hok
      (by rw [hlock])
  cases hd : d.pc <;> rw [hd] at hstep hok <;> simp only [cancelStep, reduceCtorEq] at hstep
  case check =>
    split at hstep
    · split at hstep <;> obtain rfl := Option.some.inj hstep <;>
        exact hgo _ (.refl s) trivial (by rw [hd]; rfl)
    · obtain rfl := Option.some.inj hstep
      exact hgo _ (.refl s) trivial (by rw [hd]; rfl)
  case lock =>
    split at hstep
    · cases hstep
    · next hfree =>
      obtain rfl := Option.some.inj hstep
      have hfree : s.detailsLocked = false := by simpa using hfree
      cases hentry : s.details d.id with
      | none =>
        exact h.setCancel hk (fun r hr => by rw [hentry] at hr; cases hr)
          (by rw [hd, hfree]; rfl)
      | some r =>
        exact h.setCancel hk
          (fun r' hr' => Option.some.inj (hr'.symm.trans hentry))
          (by rw [hd, hfree]; rfl)
  case flag r =>
    obtain rfl := Option.some.inj hstep
    exact hgo _ (jobsOnly_modifyJob s r _ fun _ h => h) hok (by rw [hd]; rfl)
  case signal r =>
    obtain rfl := Option.some.inj hstep
    refine hgo _ (jobsOnly_modifyJob s r _ fun _ _ => rfl) (fun r' hr' => ?_) (by rw [hd]; rfl)
    obtain rfl : r' = r := hok r' hr'
    exact eventSet_modifyJob (h.valid _ _ hr')
  case cleanup r stage =>
    have hj := jobsOnly_closeRuntime s r stage
    have hok' : ∀ r', (s.closeRuntime r stage).1.details d.id = some r' →
        (s.closeRuntime r stage).1.EventSet r' :=
      fun r' hr' => hj.steady.set r' (hok r' (hj.details ▸ hr'))
    split at hstep <;> obtain rfl := Option.some.inj hstep
    · exact hgo _ hj hok' (by rw [hd]; rfl)
    · exact hgo _ hj hok' (by rw [hd]; rfl)
  case delete =>
    have hlocked := h.locked_of_cancel (List.mem_of_getElem? hk) (by rw [hd]; rfl)
    split at hstep <;> obtain rfl := Option.some.inj hstep
    · exact (h.deleteEntry hok).setCancel hk trivial (by rw [hd, hlocked]; rfl)
    · exact h.setCancel hk trivial (by rw [hd, hlocked]; rfl)
  case discard =>
    obtain rfl := Option.some.inj hstep
    exact { hgo { d with pc := .done } (.refl s) trivial (by rw [hd]; rfl) with }

end Cancels

/-! ## Stops -/

section Stops

variable {s s' : State} {k : ℕ} {t : Stop}

/-- The lock of a `stop` call that holds it is taken. -/
lemma Releasing.locked_of_stop (h : Releasing s) (ht : t ∈ s.stops)
    (hl : t.pc.holdsLock = true) : s.detailsLocked = true := by
  have hpos : 0 < s.stops.countP fun t => t.pc.holdsLock := List.countP_pos_iff.mpr ⟨t, ht, hl⟩
  have hlock := h.lock
  cases hb : s.detailsLocked with
  | true => rfl
  | false =>
    simp only [State.holders, hb, Bool.toNat_false] at hlock
    omega

/-- A step of a `stop` call, which may take or release the lock. -/
lemma Releasing.setStop (h : Releasing s) (hk : s.stops[k]? = some t)
    (hdone : t.pc.isDone = false) {t' : Stop} {b : Bool} (hok : StopOk s t'.waiters t'.pc)
    (hlock : b.toNat + t.pc.holdsLock.toNat = s.detailsLocked.toNat + t'.pc.holdsLock.toNat) :
    Releasing { s.setStop k t' with detailsLocked := b } where
  lock := by
    have hcount := Pool.countP_set_add (fun t : Stop => t.pc.holdsLock) t' hk
    have hold := h.lock
    simp only [State.holders, State.setStop] at hold hcount ⊢
    omega
  valid := h.valid
  unique := h.unique
  cancels := h.cancels
  oneStop l m u v hu hv hud hvd := by
    -- A stop that is not done was not done before.
    have hold : ∀ {n : ℕ} {x : Stop}, (s.stops.set k t')[n]? = some x → x.pc.isDone = false →
        ∃ x₀, s.stops[n]? = some x₀ ∧ x₀.pc.isDone = false := by
      intro n x hx hxd
      by_cases hkn : k = n
      · exact ⟨t, hkn ▸ hk, hdone⟩
      · exact ⟨x, by rwa [List.getElem?_set_ne hkn] at hx, hxd⟩
    obtain ⟨u₀, hu₀, hud₀⟩ := hold hu hud
    obtain ⟨v₀, hv₀, hvd₀⟩ := hold hv hvd
    exact h.oneStop l m u₀ v₀ hu₀ hv₀ hud₀ hvd₀
  stops u hu := by
    rcases List.mem_or_eq_of_mem_set hu with hu | rfl
    · exact h.stops u hu
    · exact hok

/-- Released waiters are where they should be, wherever the `stop` call stands. -/
lemma stopOk_of_eventSet {waiters : List ℕ} {pc : StopPc} (h : ∀ i ∈ waiters, s.EventSet i) :
    StopOk s waiters pc := by
  cases pc <;> simp only [StopOk] <;> intro i hi
  case flag => exact .inl (h i hi)
  case snapshot => exact .inl (h i hi)
  case signal => exact .inl (h i hi)
  case flagJob => exact .inl (h i hi)
  case setJob => exact .inl (h i hi)
  case cleanup => exact .inl (h i hi)
  all_goals exact h i hi

/-- A `stop` call that has returned has released its waiters. -/
lemma eventSet_of_isDone {waiters : List ℕ} {pc : StopPc} (h : StopOk s waiters pc)
    (hdone : pc.isDone = true) : ∀ i ∈ waiters, s.EventSet i := by
  cases pc <;> simp only [StopPc.isDone, Bool.false_eq_true] at hdone
  exact h

/-- `_job_details.clear()` when all waiters are released. -/
lemma Releasing.clearDetails (h : Releasing s)
    (hset : ∀ t ∈ s.stops, ∀ i ∈ t.waiters, s.EventSet i) :
    Releasing { s with details := fun _ => none } where
  lock := h.lock
  valid j r hr := by cases hr
  unique := h.unique
  cancels d hd := (h.cancels d hd).mono (fun r hr => by cases hr) fun i hi => hi
  oneStop := h.oneStop
  stops t ht := stopOk_of_eventSet fun i hi => hset t ht i hi

/-- The pick of one id of the snapshot. -/
lemma mem_eraseIdx_or_eq {js : List String} {n : ℕ} {j j' : String} (hj : j ∈ js)
    (hn : js[n]? = some j') : j = j' ∨ j ∈ js.eraseIdx n := by
  obtain ⟨m, hm⟩ := List.mem_iff_getElem?.mp hj
  by_cases hmn : m = n
  · subst hmn
    exact .inl (Option.some.inj (hm.symm.trans hn))
  · exact .inr (List.mem_eraseIdx_iff_getElem?.mpr ⟨m, hmn, hm⟩)

/-- The snapshot of the active sets covers the waiters that are not released. -/
lemma stopOk_snapshot {waiters : List ℕ} (h : StopOk s waiters .snapshot)
    (hcov : s.Covered waiters) :
    StopOk s waiters (.signal (s.active .init ++ s.active .run ++ s.active .eval)) := by
  intro i hi
  rcases h i hi with hset | ⟨c, hc, hpc⟩
  · exact .inl hset
  · cases hevent : c.job.event with
    | true => exact .inl ⟨c, hc, hevent⟩
    | false =>
      obtain ⟨hmem, hentry⟩ := hcov i hi c hc hevent
      exact .inr ⟨c.id, hmem, c, hc, hpc, rfl, hentry⟩

/-- The pick of the next id: its waiter is the job that the entry leads to. -/
lemma stopOk_pick {waiters : List ℕ} {js : List String} {n : ℕ} {j : String}
    (h : StopOk s waiters (.signal js)) (hn : js[n]? = some j) :
    match s.details j with
    | some r => StopOk s waiters (.flagJob r (js.eraseIdx n))
    | none => StopOk s waiters (.signal (js.eraseIdx n)) := by
  have hpick : ∀ i ∈ waiters, s.EventSet i ∨ (s.details j = some i ∧ s.Waiting i) ∨
      ∃ j' ∈ js.eraseIdx n, s.Owned i j' := by
    intro i hi
    rcases h i hi with hset | ⟨j', hj', hown⟩
    · exact .inl hset
    · rcases mem_eraseIdx_or_eq hj' hn with rfl | hrest
      · obtain ⟨c, hc, hpc, -, hd⟩ := hown
        exact .inr (.inl ⟨hd, c, hc, hpc⟩)
      · exact .inr (.inr ⟨j', hrest, hown⟩)
  split
  · next r hr =>
    intro i hi
    rcases hpick i hi with hset | ⟨hd, hw⟩ | hown
    · exact .inl hset
    · exact .inr (.inl ⟨Option.some.inj (hr.symm.trans hd), hw⟩)
    · exact .inr (.inr hown)
  · next hr =>
    intro i hi
    rcases hpick i hi with hset | ⟨hd, -⟩ | hown
    · exact .inl hset
    · rw [hr] at hd
      cases hd
    · exact .inr hown

/-- Setting the event of the job that was found releases its waiter. -/
lemma stopOk_setJob {waiters : List ℕ} {r : ℕ} {pending : List String}
    (h : StopOk s waiters (.setJob r pending)) :
    StopOk (s.modifyJob r fun job => { job with event := true }) waiters
      (.cleanup r .check pending) := by
  have hsteady := (jobsOnly_modifyJob s r (fun job => { job with event := true })
    fun _ _ => rfl).steady
  intro i hi
  rcases h i hi with hset | ⟨rfl, c, hc, -⟩ | ⟨j, hj, hown⟩
  · exact .inl (hsteady.set i hset)
  · exact .inl (eventSet_modifyJob (List.getElem?_eq_some_iff.mp hc).1)
  · rcases hsteady.owned i j hown with hset | hown
    · exact .inl hset
    · exact .inr ⟨j, hj, hown⟩

/-- **A step of a `stop` call keeps the invariant** if its snapshot covers its waiters. -/
lemma stopStep_releasing {max : JobType → ℕ} {n : ℕ} (h : Releasing s) (hk : s.stops[k]? = some t)
    (hcond : t.pc.isSnapshot → s.Covered t.waiters)
    (hstep : stopStep max s k t n t.pc = some s') : Releasing s' := by
  have hok := h.stops t (List.mem_of_getElem? hk)
  have hgo : ∀ {s₁ : State} (t' : Stop), JobsOnly s s₁ → t.pc.isDone = false →
      StopOk s₁ t'.waiters t'.pc → t.pc.holdsLock = t'.pc.holdsLock →
      Releasing (s₁.setStop k t') := by
    intro s₁ t' hj hdone hok hlock
    exact (h.of_jobsOnly hj).setStop (b := s₁.detailsLocked) (hj.stops ▸ hk) hdone hok
      (by rw [hlock])
  have hset : ∀ pc : StopPc, t.pc.isDone = false → t.pc.holdsLock = pc.holdsLock →
      StopOk s t.waiters pc → Releasing (s.setStop k { t with pc := pc }) :=
    fun _ hdone hlock hok => hgo _ (.refl s) hdone hok hlock
  cases ht : t.pc <;> rw [ht] at hstep hok <;> simp only [ht] at hset hgo
  case flag =>
    obtain rfl := Option.some.inj hstep
    exact { hset .snapshot rfl rfl hok with }
  case snapshot =>
    obtain rfl := Option.some.inj hstep
    exact hset _ rfl rfl (stopOk_snapshot hok (hcond (by rw [ht]; rfl)))
  case signal pending =>
    cases pending with
    | nil =>
      obtain rfl := Option.some.inj hstep
      refine hset _ rfl rfl fun i hi => ?_
      rcases hok i hi with hi | ⟨j, hj, -⟩
      · exact hi
      · cases hj
    | cons j js =>
      simp only [stopStep] at hstep
      split at hstep
      · cases hstep
      · next hfree =>
        have hfree : s.detailsLocked = false := by simpa using hfree
        split at hstep
        · cases hstep
        · next j' hj' =>
          have hpick := stopOk_pick hok hj'
          split at hstep <;> obtain rfl := Option.some.inj hstep
          · next r hr =>
            rw [hr] at hpick
            exact h.setStop hk (by rw [ht]; rfl) hpick (by rw [ht, hfree]; rfl)
          · next hr =>
            rw [hr] at hpick
            exact hset _ rfl rfl hpick
  case flagJob r pending =>
    obtain rfl := Option.some.inj hstep
    have hj := jobsOnly_modifyJob s r (fun job => { job with timeoutError := true }) fun _ h => h
    exact hgo { t with pc := .setJob r pending } hj rfl (StopOk.steady hj.steady hok) rfl
  case setJob r pending =>
    obtain rfl := Option.some.inj hstep
    exact hgo _ (jobsOnly_modifyJob s r _ fun _ _ => rfl) rfl (stopOk_setJob hok) rfl
  case cleanup r stage pending =>
    have hj := jobsOnly_closeRuntime s r stage
    have hok' : StopOk (s.closeRuntime r stage).1 t.waiters (.signal pending) :=
      StopOk.steady hj.steady hok
    have hlocked := h.locked_of_stop (List.mem_of_getElem? hk) (by rw [ht]; rfl)
    simp only [stopStep] at hstep
    split at hstep <;> obtain rfl := Option.some.inj hstep
    · exact hgo _ hj rfl hok' rfl
    · exact (h.of_jobsOnly hj).setStop (hj.stops ▸ hk) (by rw [ht]; rfl) hok'
        (by rw [ht, hj.locked, hlocked]; rfl)
  case putStops kind m =>
    cases m with
    | zero =>
      simp only [stopStep] at hstep
      split at hstep <;> obtain rfl := Option.some.inj hstep <;> exact hset _ rfl rfl hok
    | succ m =>
      obtain rfl := Option.some.inj hstep
      exact { hset (.putStops kind m) rfl rfl hok with }
  case clearSets =>
    obtain rfl := Option.some.inj hstep
    exact { hset .clearDetails rfl rfl hok with }
  case clearDetails =>
    simp only [stopStep] at hstep
    split at hstep
    · cases hstep
    · obtain rfl := Option.some.inj hstep
      have hall : ∀ u ∈ s.stops, ∀ i ∈ u.waiters, s.EventSet i := by
        intro u hu
        cases hdone : u.pc.isDone with
        | true => exact eventSet_of_isDone (h.stops u hu) hdone
        | false =>
          -- This is the only call that has not returned.
          obtain ⟨l, hl⟩ := List.mem_iff_getElem?.mp hu
          obtain rfl := h.oneStop k l t u hk hl (by rw [ht]; rfl) hdone
          obtain rfl := Option.some.inj (hk.symm.trans hl)
          exact hok
      exact (h.clearDetails hall).setStop (b := s.detailsLocked) hk (by rw [ht]; rfl) hok
        (by rw [ht]; rfl)
  case clearQueue kind =>
    simp only [stopStep] at hstep
    split at hstep
    · obtain rfl := Option.some.inj hstep
      exact { h with }
    · split at hstep <;> obtain rfl := Option.some.inj hstep <;> exact hset _ rfl rfl hok
  case done => cases hstep

end Stops

/-! ## Runs -/

section Runs

variable {max : JobType → ℕ} {s s' : State}

/-- The begin of a `process` call. -/
lemma Releasing.submit (h : Releasing s) (j : String) (inst : ResultDict) :
    Releasing { s with calls := s.calls ++ [newCall s j inst] } := by
  have hold : ∀ {i : ℕ} {c : Call}, s.calls[i]? = some c →
      (s.calls ++ [newCall s j inst])[i]? = some c := by
    intro i c hc
    rwa [List.getElem?_append_left (List.getElem?_eq_some_iff.mp hc).1]
  have hback : ∀ {i : ℕ} {c : Call}, (s.calls ++ [newCall s j inst])[i]? = some c →
      c.pc.registered = true → s.calls[i]? = some c := by
    intro i c hc hreg
    by_cases hi : i < s.calls.length
    · rwa [List.getElem?_append_left hi] at hc
    · rw [List.getElem?_append_right (by omega)] at hc
      obtain rfl := List.mem_singleton.mp (List.mem_of_getElem? hc)
      simp only [newCall] at hreg
      split at hreg <;> cases hreg
  have hsteady : Steady s { s with calls := s.calls ++ [newCall s j inst] } := by
    refine ⟨fun i hi => ?_, fun i hi => .inr ?_, fun i j' hi => .inr ?_⟩
    · obtain ⟨c, hc, he⟩ := hi
      exact ⟨c, hold hc, he⟩
    · obtain ⟨c, hc, hpc⟩ := hi
      exact ⟨c, hold hc, hpc⟩
    · obtain ⟨c, hc, hrest⟩ := hi
      exact ⟨c, hold hc, hrest⟩
  exact {
    lock := h.lock
    valid := fun j' r hr => by
      have := h.valid j' r hr
      simp only [List.length_append]
      omega
    unique := fun i k c d hc hd hcr hdr hid =>
      h.unique i k c d (hback hc hcr) (hback hd hdr) hcr hdr hid
    cancels := fun d hd => (h.cancels d hd).mono (fun _ hr => hr) hsteady.set
    oneStop := h.oneStop
    stops := fun t ht => (h.stops t ht).steady hsteady }

/-- The calls that `stop` finds waiting do wait. -/
lemma waiting_of_mem_waiters {i : ℕ} (hi : i ∈ s.waiters) : s.Waiting i := by
  obtain ⟨-, hany⟩ := List.mem_filter.mp hi
  cases hc : s.calls[i]? with
  | none => simp [hc] at hany
  | some c =>
    refine ⟨c, hc, ?_⟩
    cases hcp : c.pc <;> simp [hc, hcp] at hany
    rfl

/-- A `stop` call that begins, or returns at once. -/
lemma Releasing.addStop (h : Releasing s) (t : Stop) (hlock : t.pc.holdsLock = false)
    (hdone : t.pc.isDone = false → ∀ u ∈ s.stops, u.pc.isDone = true)
    (hok : StopOk s t.waiters t.pc) : Releasing { s with stops := s.stops ++ [t] } where
  lock := by
    have hold := h.lock
    simp only [State.holders, List.countP_append, List.countP_singleton, hlock] at hold ⊢
    exact hold
  valid := h.valid
  unique := h.unique
  cancels := h.cancels
  oneStop k l u v hu hv hud hvd := by
    -- An old one is not done only if the new one is.
    have hpos : ∀ {n : ℕ} {x : Stop}, (s.stops ++ [t])[n]? = some x → x.pc.isDone = false →
        n = s.stops.length ∧ t.pc.isDone = false ∨ s.stops[n]? = some x := by
      intro n x hx hxd
      by_cases hn : n < s.stops.length
      · exact .inr (by rwa [List.getElem?_append_left hn] at hx)
      · have hlt := (List.getElem?_eq_some_iff.mp hx).1
        rw [List.length_append, List.length_singleton] at hlt
        rw [List.getElem?_append_right (by omega)] at hx
        obtain rfl := List.mem_singleton.mp (List.mem_of_getElem? hx)
        exact .inl ⟨by omega, hxd⟩
    have hclash : ∀ {n : ℕ} {x : Stop}, s.stops[n]? = some x → x.pc.isDone = false →
        t.pc.isDone = true := by
      intro n x hx hxd
      by_contra htd
      rw [hdone (by simpa using htd) x (List.mem_of_getElem? hx)] at hxd
      cases hxd
    rcases hpos hu hud with ⟨hk, htd⟩ | hu <;> rcases hpos hv hvd with ⟨hl, htd'⟩ | hv
    · rw [hk, hl]
    · rw [hclash hv hvd] at htd
      cases htd
    · rw [hclash hu hud] at htd'
      cases htd'
    · exact h.oneStop k l u v hu hv hud hvd
  stops u hu := by
    rcases List.mem_append.mp hu with hu | hu
    · exact h.stops u hu
    · obtain rfl := List.mem_singleton.mp hu
      exact hok

/-- The begin of a `cancel_job` call. -/
lemma Releasing.cancelBegin (h : Releasing s) (j : String) :
    Releasing { s with cancels := s.cancels ++ [⟨j, .check, none⟩] } where
  lock := by
    have hlock := h.lock
    simp only [State.holders, List.countP_append] at hlock ⊢
    exact hlock
  valid := h.valid
  unique := h.unique
  cancels d hd := by
    rcases List.mem_append.mp hd with hd | hd
    · exact h.cancels d hd
    · obtain rfl := List.mem_singleton.mp hd
      trivial
  oneStop := h.oneStop
  stops := h.stops

/-- **A step that meets the condition keeps the invariant.** -/
theorem step_releasing {l : Label} (h : Releasing s) (hcond : StopCovers s l)
    (hstep : step max s l = some s') : Releasing s' := by
  cases l with
  | submit j inst =>
    obtain rfl := Option.some.inj hstep
    exact h.submit j inst
  | call i p =>
    obtain ⟨c, hc, hstep⟩ := Option.bind_eq_some_iff.mp hstep
    exact callStep_releasing h hc (hcond c hc) hstep
  | worker w a =>
    obtain ⟨x, -, hstep⟩ := Option.bind_eq_some_iff.mp hstep
    exact h.of_jobsOnly (jobsOnly_workerStep hstep)
  | cancelBegin j =>
    obtain rfl := Option.some.inj hstep
    exact h.cancelBegin j
  | cancel k =>
    obtain ⟨d, hd, hstep⟩ := Option.bind_eq_some_iff.mp hstep
    exact cancelStep_releasing h hd hstep
  | stopBegin =>
    simp only [step] at hstep
    by_cases hr : s.running = true
    · rw [if_pos hr] at hstep
      obtain rfl := Option.some.inj hstep
      exact h.addStop ⟨.flag, s.waiters⟩ rfl (fun _ => hcond.1 hr)
        fun i hi => .inr (waiting_of_mem_waiters hi)
    · rw [if_neg hr] at hstep
      obtain rfl := Option.some.inj hstep
      refine h.addStop ⟨.done, s.waiters⟩ rfl (fun hd => by cases hd) fun i hi => ?_
      obtain ⟨c, hc, -⟩ := waiting_of_mem_waiters hi
      exact ⟨c, hc, hcond.2 (by simpa using hr) i hi c hc⟩
  | stop k n =>
    obtain ⟨t, ht, hstep⟩ := Option.bind_eq_some_iff.mp hstep
    exact stopStep_releasing h ht (hcond t ht) hstep
  | start =>
    simp only [step] at hstep
    split at hstep
    · cases hstep
    · obtain rfl := Option.some.inj hstep
      exact { h with }

/-- The invariant holds after the start of the server. -/
lemma releasing_initState (max : JobType → ℕ) : Releasing (initState max) where
  lock := rfl
  valid j r hr := by cases hr
  unique i k c d hc := by simp [initState] at hc
  cancels d hd := by cases hd
  oneStop k l t u ht := by simp [initState] at ht
  stops t ht := by cases ht

/-- **Stopping releases every waiter**: in every run whose steps all meet the condition, over any
interleaving of `process`, `cancel_job`, `stop`, `start` and the workers, every `stop` call that has
returned has set the event of every call that waited when it was called. -/
theorem waitersReleased_of_stopCovers (max : JobType → ℕ) (ls : List Label) (s : State)
    (hrun : Machine.run (Machine.guarded (step max) StopCovers) (initState max) ls = some s) :
    s.WaitersReleased := by
  have hinv : Releasing s := by
    refine Machine.run_invariant Releasing (fun s l s' h hstep => ?_) (releasing_initState max) hrun
    obtain ⟨hcond, hstep⟩ := Machine.guarded_eq_some.mp hstep
    exact step_releasing h hcond hstep
  exact hinv.waitersReleased

end Runs

/-! ## A job that is active and a job that is on a queue -/

/-- A whole `stop` call of a server with one worker of each kind: `m` steps signal the active jobs
and `q` steps take entries off the queues. -/
def stopServer (m q : ℕ) : List Label :=
  .stopBegin :: List.replicate (2 + m + 1 + 6 + 2 + (q + 3)) (.stop 0 0)

/-- The server is stopped while a worker is busy with the job. -/
def stoppedActive : List Label :=
  submitJob 0 ++ [Label.worker 0 .go, .worker 0 .go, .worker 0 .go] ++ stopServer 4 3

theorem waitersReleased_stoppedActive :
    ∃ s, Machine.run (Machine.guarded (step oneWorker) StopCovers) (initState oneWorker)
        stoppedActive = some s ∧
      s.WaitersReleased ∧ ∃ t ∈ s.stops, t.pc.isDone = true ∧ t.waiters = [0] := by
  obtain ⟨s, hrun, hstop⟩ : ∃ s, Machine.run (Machine.guarded (step oneWorker) StopCovers)
      (initState oneWorker) stoppedActive = some s ∧
      ∃ t ∈ s.stops, t.pc.isDone = true ∧ t.waiters = [0] :=
    ⟨_, rfl, _, List.mem_singleton.mpr rfl, rfl, rfl⟩
  exact ⟨s, hrun, waitersReleased_of_stopCovers oneWorker stoppedActive s hrun, hstop⟩

/-- The server is stopped while the job is on the first queue. -/
def stoppedQueued : List Label := submitJob 0 ++ stopServer 0 4

/-- The call of a job that is on a queue when the server is stopped waits forever: the `stop` call
has returned, the event is unset, and the entry and the id are gone. -/
theorem not_waitersReleased_stoppedQueued :
    ∃ s, Machine.run (step oneWorker) (initState oneWorker) stoppedQueued = some s ∧
      s.Waiting 0 ∧ s.unset 0 ∧ s.details "a" = none ∧ (∀ k, s.queue k = []) ∧
      ¬ s.WaitersReleased := by
  obtain ⟨s, hrun, hw, hu, hd, hq, t, ht, hdone, hwait⟩ : ∃ s, Machine.run (step oneWorker)
      (initState oneWorker) stoppedQueued = some s ∧ s.Waiting 0 ∧ s.unset 0 ∧
      s.details "a" = none ∧ (∀ k, s.queue k = []) ∧
      ∃ t ∈ s.stops, t.pc.isDone = true ∧ t.waiters = [0] :=
    ⟨_, rfl, ⟨_, rfl, rfl⟩, ⟨_, rfl, rfl⟩, rfl, fun k => by cases k <;> rfl,
      _, List.mem_singleton.mpr rfl, rfl, rfl⟩
  refine ⟨s, hrun, hw, hu, hd, hq, fun hreleased => ?_⟩
  obtain ⟨c, hc, hset⟩ := hreleased t ht hdone 0 (by simp [hwait])
  obtain ⟨c', hc', hunset⟩ := hu
  obtain rfl := Option.some.inj (hc.symm.trans hc')
  rw [hunset] at hset
  cases hset

end ProRLAgent.ThreadedServer
