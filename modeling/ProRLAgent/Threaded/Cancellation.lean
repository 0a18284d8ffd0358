import Mathlib.Data.List.Basic
import Mathlib.Algebra.BigOperators.Group.List.Basic
import ProRLAgent.Lib.Machine
import ProRLAgent.Lib.Pool
import ProRLAgent.Jobs.FinalResult
import ProRLAgent.Threaded.Server
import ProRLAgent.Threaded.NoJobLost

set_option relaxedAutoImplicit false
set_option autoImplicit false

/-!
# Cancellation and completion

One `process` call, any number of `cancel_job` calls and the workers. The call should return a
result, a cancellation should return or raise `not found`, and in the end nothing of the job should
be left behind.

`process` and `cancel_job` both delete the entry of `_job_details`, and the second one raises
`KeyError`: as soon as a cancellation passes its existence check, either it or the `process` call
fails, and the id stays marked as discarded. `CancelMisses` is the condition that no cancellation
finds the entry, together with well-formed outcomes of the handlers. Under it the server is calm
(`Calm`): nothing raises, nothing stays behind, and the call can always be brought to its return.
The last part is a measure argument: as long as the call has not returned some thread can move,
and with suitable outcomes of the handlers every move leaves less to do.

## Main definitions

* `ThreadedServer.State.Agrees` — cancellation and completion agree.
* `ThreadedServer.State.CanReturn` — the call can be brought to its return.
* `ThreadedServer.CancelMisses` — the condition on a step.
* `ThreadedServer.Calm` — the invariant.

## Main results

* `ThreadedServer.step_calm` — a step that meets the condition keeps the invariant.
* `ThreadedServer.exists_step_down` — some thread can move, and leaves less to do.
* `ThreadedServer.agrees_of_cancelMisses` — along runs that meet the condition cancellation and
  completion agree.
* `ThreadedServer.not_agrees_cancelledRun` — a cancelled job's `process` call raises.
-/

namespace ProRLAgent.ThreadedServer

/-! ## The property and the condition -/

/-- The exception of a cancellation that finds no job. -/
def notFound (j : String) : PyError := .valueError ("Job " ++ j ++ " not found")

/-- The id that a worker is busy with, up to the end of its `finally` block. -/
def WorkerPc.id : WorkerPc → Option String
  | .leaving j | .crashing j => some j
  | pc => pc.held

/-- The id that a worker has put into its active set. -/
def WorkerPc.inActive : WorkerPc → Option String
  | .waiting | .got _ | .found _ _ | .crashed | .stopped => none
  | pc => pc.id

/-- **Cancellation and completion agree**: no `process` call raises, a cancellation raises nothing
but `not found`, a job that was cancelled before its event was set returns `timeout`, and nothing
of a job stays behind when its call has returned and no worker is busy with it. -/
structure State.Agrees (s : State) : Prop where
  returns : ∀ c ∈ s.calls, ∀ e, c.pc ≠ .raised e
  cancels : ∀ d ∈ s.cancels, ∀ e, d.pc = .raised e → e = notFound d.id
  timeout : ∀ d ∈ s.cancels, ∀ r c result, d.early = some r → s.calls[r]? = some c →
    c.pc = .returned result → result.get? "critical_error" = some (.str "timeout")
  cleared : ∀ c ∈ s.calls, ∀ result, c.pc = .returned result →
    (∀ x ∈ s.workers, x.pc.id ≠ some c.id) →
    s.details c.id = none ∧ (∀ k, c.id ∉ s.active k) ∧ c.id ∉ s.discarded

/-- A step of a `process` call or of a worker. -/
def Label.isServing : Label → Bool
  | .call _ _ | .worker _ _ => true
  | _ => false

/-- **The call can be brought to its return** by steps of the call and the workers alone. -/
def State.CanReturn (max : JobType → ℕ) (s : State) (i : ℕ) : Prop :=
  ∃ ls s', (∀ l ∈ ls, l.isServing = true) ∧ Machine.run (step max) s ls = some s' ∧
    ∃ c result, s'.calls[i]? = some c ∧ c.pc = .returned result

/-- The cancellation is at its existence check. -/
def CancelPc.isCheck : CancelPc → Bool
  | .check => true
  | _ => false

/-- **The condition on a step**: there is one `process` call; no cancellation finds the entry at
its existence check; the results of the handlers and of the exception functions can be read, no
exception function raises, and a partial result that is needed can be read. The steps are those of
`process`, `cancel_job` and the workers. -/
def CancelMisses (s : State) : Label → Prop
  | .submit j _ => s.calls = [] ∧ j ≠ stopSentinel
  | .call i p =>
    ∀ c ∈ s.calls[i]?, p.toOption.isSome ∨ c.job.results.isSome ∨ c.job.runResults.isSome
  | .worker _ (.handler (.ran results)) => errorReadable results
  | .worker _ (.handler (.evaluated report)) => report.unwrap.hasResolved
  | .worker _ (.handled (.ok results)) => hasCriticalError results ∨ errorReadable results
  | .worker _ (.handled (.error _)) => False
  | .cancel k => ∀ d ∈ s.cancels[k]?, d.pc.isCheck → s.details d.id = none
  | .stopBegin | .stop _ _ | .start => False
  | _ => True

instance (s : State) (l : Label) : Decidable (CancelMisses s l) :=
  match l with
  | .submit j _ => inferInstanceAs (Decidable (s.calls = [] ∧ j ≠ stopSentinel))
  | .call i p =>
    inferInstanceAs (Decidable (∀ c ∈ s.calls[i]?,
      p.toOption.isSome ∨ c.job.results.isSome ∨ c.job.runResults.isSome))
  | .worker _ (.handler (.ran results)) => inferInstanceAs (Decidable (errorReadable results))
  | .worker _ (.handler (.evaluated report)) =>
    inferInstanceAs (Decidable report.unwrap.hasResolved)
  | .worker _ (.handled (.ok results)) =>
    inferInstanceAs (Decidable (hasCriticalError results ∨ errorReadable results))
  | .cancel k =>
    inferInstanceAs (Decidable (∀ d ∈ s.cancels[k]?, d.pc.isCheck → s.details d.id = none))
  | .worker _ (.handled (.error _)) | .stopBegin | .stop _ _ | .start =>
    inferInstanceAs (Decidable False)
  | .worker _ .go | .worker _ (.handler .initialized) | .worker _ (.handler .timeout)
  | .worker _ (.handler .failed) | .cancelBegin _ => inferInstanceAs (Decidable True)

/-! ## The invariant -/

/-- The data of a job can be turned into a result, whatever the flags say. -/
structure SoundJob (job : JobDetails) : Prop where
  run : ∀ d, job.runResults = some d → errorReadable d
  eval : job.evalResults.hasResolved
  results : ∀ d, job.results = some d → hasCriticalError d ∨ errorReadable d

/-- The entry of the job is in `_job_details`. -/
def CallPc.registered : CallPc → Bool
  | .put | .waiting | .check _ | .close _ | .delete _ => true
  | .insert | .returned _ | .raised _ => false

/-- The job of this id has been inserted. -/
def Known (calls : List Call) (j : String) : Prop :=
  ∃ c, calls[0]? = some c ∧ c.id = j ∧ c.pc.isInsert = false

/-- What holds of the call. -/
structure CalmCall (details : String → Option ℕ) (c : Call) : Prop where
  id : c.id ≠ stopSentinel
  job : SoundJob c.job
  pc : ∀ e, c.pc ≠ .raised e
  entry : details c.id = if c.pc.registered then some 0 else none

/-- A worker is where workers of its kind get to, and what it carries can be read. -/
def WorkerPc.Sound (k : JobType) : WorkerPc → Prop
  | .produced _ _ _ => k ≠ .eval
  | .ran _ _ results => errorReadable results ∧ k ≠ .eval
  | .evaluated _ _ report => report.unwrap.hasResolved
  | .cleanup _ _ _ success => success → k ≠ .eval
  | .putting _ _ => k ≠ .eval
  | .crashing _ | .crashed | .stopped => False
  | _ => True

/-- What holds of a worker. -/
structure CalmWorker (calls : List Call) (k : JobType) (pc : WorkerPc) : Prop where
  id : ∀ j, pc.id = some j → Known calls j
  ref : ∀ j r, pc.ref = some (j, r) → r = 0
  sound : pc.Sound k

/-- **The invariant**: no cancellation has had an effect, nothing has raised, and every id that is
around is that of the call. -/
structure Calm (max : JobType → ℕ) (s : State) : Prop where
  running : s.running = true
  unlocked : s.detailsLocked = false
  discarded : s.discarded = []
  cancels : ∀ d ∈ s.cancels, d.early = none ∧ (d.pc = .check ∨ d.pc = .raised (notFound d.id))
  single : s.calls.length ≤ 1
  call : ∀ c, s.calls[0]? = some c → CalmCall s.details c
  entries : ∀ j r, s.details j = some r → Known s.calls j
  queues : ∀ k, ∀ j ∈ s.queue k, Known s.calls j
  workers : ∀ x ∈ s.workers, CalmWorker s.calls x.kind x.pc
  active : ∀ k, ∀ j ∈ s.active k, ∃ x ∈ s.workers, x.kind = k ∧ x.pc.inActive = some j
  staffed : ∀ k, 0 < max k → ∃ x ∈ s.workers, x.kind = k

section Consequences

variable {max : JobType → ℕ} {s : State} {c : Call} {i : ℕ}

/-- There is at most one call. -/
lemma Calm.index (h : Calm max s) (hi : s.calls[i]? = some c) : i = 0 := by
  have := (List.getElem?_eq_some_iff.mp hi).1
  have := h.single
  omega

/-- Sound data give a final result, if a partial result that is needed can be read. -/
lemma SoundJob.readable {job : JobDetails} {p : Except PyError PartialResult} (h : SoundJob job)
    (hp : p.toOption.isSome ∨ job.results.isSome ∨ job.runResults.isSome) : job.Readable p := by
  unfold JobDetails.Readable
  split
  · exact .inr (h.results _ ‹_›)
  · exact ⟨h.eval, .inr (h.run _ ‹_›)⟩
  · rename_i hres hrun
    exact ⟨h.eval, by simpa [hres, hrun] using hp⟩

/-- An id in an active set is the id of a busy worker. -/
lemma WorkerPc.id_of_inActive {pc : WorkerPc} {j : String} (h : pc.inActive = some j) :
    pc.id = some j := by
  cases pc <;> simp only [WorkerPc.inActive, reduceCtorEq] at h <;> exact h

/-- The invariant gives that cancellation and completion agree. -/
lemma Calm.agrees (h : Calm max s) : s.Agrees where
  returns c hc := by
    obtain ⟨i, hi⟩ := List.mem_iff_getElem?.mp hc
    obtain rfl := h.index hi
    exact (h.call c hi).pc
  cancels d hd e he := by
    rcases (h.cancels d hd).2 with hpc | hpc
    · rw [hpc] at he
      cases he
    · rw [hpc] at he
      exact (CancelPc.raised.inj he).symm
  timeout d hd r c result hearly := by
    rw [(h.cancels d hd).1] at hearly
    cases hearly
  cleared c hc result hpc hidle := by
    obtain ⟨i, hi⟩ := List.mem_iff_getElem?.mp hc
    obtain rfl := h.index hi
    refine ⟨?_, fun k hk => ?_, ?_⟩
    · rw [(h.call c hi).entry, hpc]
      rfl
    · obtain ⟨x, hx, -, hact⟩ := h.active k c.id hk
      exact hidle x hx (WorkerPc.id_of_inActive hact)
    · rw [h.discarded]
      exact List.not_mem_nil

end Consequences

/-! ## Steps of a worker -/

section Worker

variable {max : JobType → ℕ} {s s' : State} {w : ℕ} {x : Worker}

/-- A worker without a job is calm. -/
lemma calmWorker_waiting (calls : List Call) (k : JobType) : CalmWorker calls k .waiting := by
  refine ⟨fun j hj => ?_, fun j r hr => ?_, trivial⟩
  · cases hj
  · cases hr

/-- What is known stays known under a change of a job's data. -/
lemma known_modifyJob {r : ℕ} {f : JobDetails → JobDetails} {j : String} (h : Known s.calls j) :
    Known (s.modifyJob r f).calls j := by
  obtain ⟨c, hc, hid, hpc⟩ := h
  refine ⟨_, by rw [getElem?_modifyJob, hc]; rfl, ?_, ?_⟩
  · split <;> exact hid
  · split <;> exact hpc

/-- A change of a job's data that keeps them sound keeps the invariant. -/
lemma Calm.modifyJob (h : Calm max s) (r : ℕ) {f : JobDetails → JobDetails}
    (hf : ∀ job, SoundJob job → SoundJob (f job)) : Calm max (s.modifyJob r f) :=
  { h with
    single := by simpa [State.modifyJob] using h.single
    call := by
      intro c hc
      rw [getElem?_modifyJob] at hc
      obtain ⟨d, hd, rfl⟩ := Option.map_eq_some_iff.mp hc
      obtain ⟨hid, hjob, hpc, hentry⟩ := h.call d hd
      split
      · exact ⟨hid, hf _ hjob, hpc, hentry⟩
      · exact ⟨hid, hjob, hpc, hentry⟩
    entries := fun j r hd => known_modifyJob (h.entries j r hd)
    queues := fun k j hj => known_modifyJob (h.queues k j hj)
    workers := fun x hx => ⟨fun j hj => known_modifyJob ((h.workers x hx).id j hj),
      (h.workers x hx).ref, (h.workers x hx).sound⟩ }

/-- The logs play no part. -/
lemma Calm.setLogs (h : Calm max s) (created closed : List ℕ) :
    Calm max { s with created := created, closed := closed } :=
  { h with }

/-- Closing a runtime keeps the invariant. -/
lemma Calm.closeRuntime (h : Calm max s) (r : ℕ) (stage : CloseStage) :
    Calm max (s.closeRuntime r stage).1 := by
  rcases closeRuntime_cases s r stage with hs | hs | hs <;> rw [hs]
  · exact h
  · exact h.setLogs s.created _
  · exact h.modifyJob r fun job hj => ⟨hj.run, hj.eval, hj.results⟩

/-- Smaller active sets keep the invariant. -/
lemma Calm.setActive (h : Calm max s) (a : JobType → List String)
    (ha : ∀ k, ∀ j ∈ a k, j ∈ s.active k) : Calm max { s with active := a } :=
  { h with active := fun k j hj => h.active k j (ha k j hj) }

/-- Queues of known ids keep the invariant. -/
lemma Calm.setQueue (h : Calm max s) (q : JobType → List String)
    (hq : ∀ k, ∀ j ∈ q k, Known s.calls j) : Calm max { s with queue := q } :=
  { h with queues := hq }

/-- **A worker that goes on** keeps the invariant, if it stays in its active set or its id is no
longer there. -/
lemma Calm.setWorker (h : Calm max s) (hw : s.workers[w]? = some x) (pc : WorkerPc)
    (hpc : CalmWorker s.calls x.kind pc)
    (hact : ∀ j, x.pc.inActive = some j → pc.inActive = some j ∨ j ∉ s.active x.kind) :
    Calm max (s.setWorker w x.kind pc) := by
  have hlt : w < s.workers.length := (List.getElem?_eq_some_iff.mp hw).1
  have hmem : (⟨x.kind, pc⟩ : Worker) ∈ (s.setWorker w x.kind pc).workers :=
    List.mem_of_getElem? (i := w) (by simp [State.setWorker, hlt])
  have hother : ∀ (v : ℕ) (y : Worker), s.workers[v]? = some y → v ≠ w →
      y ∈ (s.setWorker w x.kind pc).workers := by
    intro v y hv hvw
    refine List.mem_of_getElem? (i := v) ?_
    simpa [State.setWorker, List.getElem?_set_ne (Ne.symm hvw)] using hv
  refine { h with
    workers := fun y hy => ?_
    active := fun k j hj => ?_
    staffed := fun k hk => ?_ }
  · rcases List.mem_or_eq_of_mem_set hy with hy | rfl
    · exact h.workers y hy
    · exact hpc
  · obtain ⟨y, hy, rfl, hyact⟩ := h.active k j hj
    obtain ⟨v, hv⟩ := List.mem_iff_getElem?.mp hy
    by_cases hvw : v = w
    · subst hvw
      obtain rfl : x = y := Option.some.inj (hw.symm.trans hv)
      rcases hact j hyact with hnew | hnot
      · exact ⟨⟨x.kind, pc⟩, hmem, rfl, hnew⟩
      · exact absurd hj hnot
    · exact ⟨y, hother v y hv hvw, rfl, hyact⟩
  · obtain ⟨y, hy, rfl⟩ := h.staffed k hk
    obtain ⟨v, hv⟩ := List.mem_iff_getElem?.mp hy
    by_cases hvw : v = w
    · subst hvw
      obtain rfl : x = y := Option.some.inj (hw.symm.trans hv)
      exact ⟨⟨x.kind, pc⟩, hmem, rfl⟩
    · exact ⟨y, hother v y hv hvw, rfl⟩

/-- A worker that has found its job enters its active set. -/
lemma Calm.enterActive (h : Calm max s) (hw : s.workers[w]? = some x) {j : String} {r : ℕ}
    (hx : x.pc = .found j r) :
    Calm max { s.setWorker w x.kind (.active j r) with
      active := Function.update s.active x.kind (addTo (s.active x.kind) j) } := by
  have hxc := h.workers x (List.mem_of_getElem? hw)
  have hlt : w < s.workers.length := (List.getElem?_eq_some_iff.mp hw).1
  have hset : Calm max (s.setWorker w x.kind (.active j r)) := by
    refine h.setWorker hw _ ⟨fun i hi => hxc.id i ?_, fun i q hq => hxc.ref i q ?_, trivial⟩
      fun i hi => ?_
    · rw [hx]
      exact hi
    · rw [hx]
      exact hq
    · rw [hx] at hi
      cases hi
  have hmem : (⟨x.kind, .active j r⟩ : Worker) ∈ s.workers.set w ⟨x.kind, .active j r⟩ :=
    List.mem_of_getElem? (i := w) (by simp [hlt])
  refine { hset with active := fun k i hi => ?_ }
  by_cases hk : k = x.kind
  · subst hk
    have hi' : i ∈ s.active x.kind ∨ i = j := by
      have : i ∈ addTo (s.active x.kind) j := by simpa using hi
      unfold addTo at this
      split at this
      · exact .inl this
      · simpa using this
    rcases hi' with hi' | rfl
    · exact hset.active x.kind i hi'
    · exact ⟨_, hmem, rfl, rfl⟩
  · have hold : i ∈ s.active k := by simpa [Function.update_of_ne hk] using hi
    exact hset.active k i hold

/-- **A step of a worker** that meets the condition keeps the invariant. -/
lemma workerStep_calm (h : Calm max s) (hw : s.workers[w]? = some x) {a : WorkerAct}
    (hcond : CancelMisses s (.worker w a)) (hstep : workerStep s w x.kind x.pc a = some s') :
    Calm max s' := by
  have hxc := h.workers x (List.mem_of_getElem? hw)
  generalize hx : x.pc = pc at hstep hxc
  -- A worker that stays busy with its job, in a state with the same workers and ids.
  have hgo : ∀ {s₁ : State} (pc' : WorkerPc), Calm max s₁ → s₁.workers = s.workers →
      (∀ j, Known s.calls j → Known s₁.calls j) → pc'.id = pc.id → pc'.inActive = pc.inActive →
      (∀ j r, pc'.ref = some (j, r) → pc.ref = some (j, r)) → pc'.Sound x.kind →
      Calm max (s₁.setWorker w x.kind pc') := by
    intro s₁ pc' h₁ hws hknown hid hact href hsound
    refine h₁.setWorker (hws ▸ hw) pc' ⟨fun j hj => ?_, fun j r hr => hxc.ref j r (href j r hr),
      hsound⟩ fun j hj => .inl ?_
    · exact hknown j (hxc.id j (hid ▸ hj))
    · rw [hact, ← hx]
      exact hj
  have hmod : ∀ {r : ℕ} {f : JobDetails → JobDetails} (pc' : WorkerPc),
      (∀ job, SoundJob job → SoundJob (f job)) → pc'.id = pc.id → pc'.inActive = pc.inActive →
      (∀ j r, pc'.ref = some (j, r) → pc.ref = some (j, r)) → pc'.Sound x.kind →
      Calm max ((s.modifyJob r f).setWorker w x.kind pc') :=
    fun pc' hf => hgo pc' (h.modifyJob _ hf) rfl fun _ => known_modifyJob
  cases pc <;> cases a <;> simp only [workerStep, reduceCtorEq] at hstep
  case waiting.go =>
    split at hstep
    · cases hstep
    · rename_i j q hq
      obtain rfl := Option.some.inj hstep
      have hj : Known s.calls j := h.queues x.kind j (by simp [hq])
      have hne : j ≠ stopSentinel := by
        obtain ⟨c, hc, rfl, -⟩ := hj
        exact (h.call c hc).id
      rw [if_neg hne]
      refine (h.setQueue (Function.update s.queue x.kind q) fun k i hi => ?_).setWorker hw (.got j)
        ⟨fun i hi => ?_, fun i r hr => ?_, trivial⟩ fun i hi => ?_
      · exact h.queues k i (mem_queue_dequeue hq hi)
      · obtain rfl : j = i := Option.some.inj hi
        exact hj
      · cases hr
      · rw [hx] at hi
        cases hi
  case got.go j =>
    split at hstep
    · cases hstep
    · split at hstep
      · obtain rfl := Option.some.inj hstep
        refine h.setWorker hw .waiting (calmWorker_waiting _ _) fun i hi => ?_
        rw [hx] at hi
        cases hi
      · rename_i r hd
        obtain rfl := Option.some.inj hstep
        refine h.setWorker hw (.found j r) ⟨fun i hi => hxc.id i hi, fun i r' hr => ?_, trivial⟩
          fun i hi => by rw [hx] at hi; cases hi
        obtain ⟨-, rfl⟩ : j = i ∧ r = r' := by simpa [WorkerPc.ref] using hr
        -- The only entry is that of the call.
        obtain ⟨c, hc, hid, -⟩ := h.entries j r hd
        have hentry := (h.call c hc).entry
        rw [hid, hd] at hentry
        split at hentry
        · exact Option.some.inj hentry
        · cases hentry
  case found.go j r =>
    split at hstep
    · rename_i hj
      rw [h.discarded] at hj
      cases hj
    · obtain rfl := Option.some.inj hstep
      exact h.enterActive hw hx
  case active.handler j r o =>
    cases o <;> simp only [handlerStep] at hstep
    case initialized =>
      split at hstep
      · rename_i hk
        obtain rfl := Option.some.inj hstep
        exact hgo (.produced j r s.created.length) (h.setLogs (s.created ++ [r]) s.closed) rfl
          (fun _ hk => hk) rfl rfl (fun _ _ hr => hr) (show x.kind ≠ .eval by simp [hk])
      · cases hstep
    case ran results =>
      split at hstep
      · rename_i hk
        obtain rfl := Option.some.inj hstep
        exact hgo _ h rfl (fun _ hk => hk) rfl rfl (fun _ _ hr => hr)
          ⟨hcond, show x.kind ≠ .eval by simp [hk]⟩
      · cases hstep
    case evaluated report =>
      split at hstep
      · obtain rfl := Option.some.inj hstep
        exact hgo _ h rfl (fun _ hk => hk) rfl rfl (fun _ _ hr => hr) hcond
      · cases hstep
    case timeout =>
      obtain rfl := Option.some.inj hstep
      exact hgo _ h rfl (fun _ hk => hk) rfl rfl (fun _ _ hr => hr) trivial
    case failed =>
      obtain rfl := Option.some.inj hstep
      refine hgo _ h rfl (fun _ hk => hk) ?_ ?_ ?_ ?_ <;> cases x.kind <;>
        simp [afterException, WorkerPc.id, WorkerPc.held, WorkerPc.inActive, WorkerPc.ref,
          WorkerPc.Sound]
  case produced.go j r rt =>
    obtain rfl := Option.some.inj hstep
    refine hmod _ (fun job hj => ⟨hj.run, hj.eval, hj.results⟩) rfl rfl (fun _ _ hr => hr) ?_
    exact hxc.sound
  case produced.handler j r rt o =>
    cases o <;> simp only [reduceCtorEq] at hstep
    obtain rfl := Option.some.inj hstep
    exact hgo _ h rfl (fun _ hk => hk) rfl rfl (fun _ _ hr => hr) trivial
  case ran.go j r results =>
    obtain rfl := Option.some.inj hstep
    refine hmod _ (fun job hj => ⟨fun d hd => ?_, hj.eval, hj.results⟩) rfl rfl
      (fun _ _ hr => hr) ?_
    · obtain rfl := Option.some.inj hd
      exact hxc.sound.1
    · exact fun _ => hxc.sound.2
  case evaluated.go j r report =>
    obtain rfl := Option.some.inj hstep
    exact hmod _ (fun job hj => ⟨hj.run, hxc.sound, hj.results⟩) rfl rfl (fun _ _ hr => hr)
      trivial
  case timedOut.go j r =>
    obtain rfl := Option.some.inj hstep
    refine hmod _ (fun job hj => ⟨hj.run, hj.eval, hj.results⟩) ?_ ?_ ?_ ?_ <;> cases x.kind <;>
      simp [afterException, WorkerPc.id, WorkerPc.held, WorkerPc.inActive, WorkerPc.ref,
        WorkerPc.Sound]
  case cleanup.go j r stage success =>
    have h₁ := h.closeRuntime r stage
    have hws : (s.closeRuntime r stage).1.workers = s.workers := by cases stage <;> rfl
    have hknown : ∀ i, Known s.calls i → Known (s.closeRuntime r stage).1.calls i := by
      intro i hi
      cases stage
      · exact hi
      · exact hi
      · exact known_modifyJob hi
    split at hstep
    · obtain rfl := Option.some.inj hstep
      exact hgo _ h₁ hws hknown rfl rfl (fun _ _ hr => hr) hxc.sound
    · obtain rfl := Option.some.inj hstep
      cases success
      · exact hgo _ h₁ hws hknown rfl rfl (fun _ _ hr => hr) trivial
      · exact hgo _ h₁ hws hknown rfl rfl (fun _ _ hr => hr) (hxc.sound rfl)
  case handling.handled j r res =>
    cases res with
    | ok results =>
      obtain rfl := Option.some.inj hstep
      refine hmod _ (fun job hj => ⟨hj.run, hj.eval, fun d hd => ?_⟩) rfl rfl
        (fun _ _ hr => hr) trivial
      obtain rfl := Option.some.inj hd
      exact hcond
    | error e => exact hcond.elim
  case putting.go j r =>
    obtain rfl := Option.some.inj hstep
    have hj : Known s.calls j := hxc.id j rfl
    refine hgo (.leaving j) (h.setQueue _ fun k i hi => ?_) rfl (fun _ hk => hk) rfl rfl
      (fun _ _ hr => by cases hr) trivial
    rcases mem_queue_enqueue hi with hi | rfl
    · exact h.queues k i hi
    · exact hj
  case setting.go j r =>
    obtain rfl := Option.some.inj hstep
    exact hmod _ (fun job hj => ⟨hj.run, hj.eval, hj.results⟩) rfl rfl
      (fun _ _ hr => by cases hr) trivial
  case leaving.go j =>
    obtain rfl := Option.some.inj hstep
    refine (h.setActive (Function.update s.active x.kind (discardFrom (s.active x.kind) j))
      fun k i hi => ?_).setWorker hw .waiting (calmWorker_waiting _ _) fun i hi => .inr ?_
    · by_cases hk : k = x.kind
      · subst hk
        exact List.mem_of_mem_filter (by simpa using hi :
          i ∈ discardFrom (s.active x.kind) j)
      · simpa [Function.update_of_ne hk] using hi
    · obtain rfl : j = i := by
        rw [hx] at hi
        exact Option.some.inj hi
      simp [discardFrom]
  case crashing.go j => exact hxc.sound.elim

end Worker

/-! ## Steps of the calls -/

section Calls

variable {max : JobType → ℕ} {s s' : State} {c : Call}

/-- What is known stays known when the call goes on. -/
lemma known_setCall (hi : s.calls[0]? = some c) {pc : CallPc} (hpc : pc.isInsert = false)
    {j : String} (h : Known s.calls j) : Known (s.setCall 0 { c with pc := pc }).calls j := by
  have hlt : 0 < s.calls.length := (List.getElem?_eq_some_iff.mp hi).1
  obtain ⟨d, hd, hid, -⟩ := h
  obtain rfl := Option.some.inj (hi.symm.trans hd)
  exact ⟨{ c with pc := pc }, by simp [State.setCall, hlt], hid, hpc⟩

/-- **A call that goes on** keeps the invariant, if the entry of its job is as it should be. -/
lemma Calm.setCall (h : Calm max s) (hi : s.calls[0]? = some c) (pc : CallPc)
    (hins : pc.isInsert = false) (hraise : ∀ e, pc ≠ .raised e)
    {details : String → Option ℕ} (hdet : ∀ j, j ≠ c.id → details j = s.details j)
    (hentry : details c.id = if pc.registered then some 0 else none) :
    Calm max { s.setCall 0 { c with pc := pc } with details := details } := by
  have hlt : 0 < s.calls.length := (List.getElem?_eq_some_iff.mp hi).1
  have hget : (s.setCall 0 { c with pc := pc }).calls[0]? = some { c with pc := pc } := by
    simp [State.setCall, hlt]
  have hknown : ∀ j, Known s.calls j → Known (s.setCall 0 { c with pc := pc }).calls j :=
    fun j => known_setCall hi hins
  have hc := h.call c hi
  refine { h with
    single := by simpa [State.setCall] using h.single
    call := fun d hd => ?_
    entries := fun j r hj => ?_
    queues := fun k j hj => hknown j (h.queues k j hj)
    workers := fun x hx => ⟨fun j hj => hknown j ((h.workers x hx).id j hj),
      (h.workers x hx).ref, (h.workers x hx).sound⟩ }
  · obtain rfl := Option.some.inj (hget.symm.trans hd)
    exact ⟨hc.id, hc.job, hraise, hentry⟩
  · by_cases hjc : j = c.id
    · exact ⟨_, hget, hjc.symm, hins⟩
    · exact hknown j (h.entries j r ((hdet j hjc).symm.trans hj))

/-- A call that goes on without touching its entry keeps the invariant. -/
lemma Calm.setPc (h : Calm max s) (hi : s.calls[0]? = some c) (pc : CallPc)
    (hins : pc.isInsert = false) (hraise : ∀ e, pc ≠ .raised e)
    (hreg : pc.registered = c.pc.registered) : Calm max (s.setCall 0 { c with pc := pc }) :=
  h.setCall hi pc hins hraise (fun _ _ => rfl) (by rw [hreg, (h.call c hi).entry])

/-- **A step of the `process` call** that meets the condition keeps the invariant. -/
lemma callStep_calm (h : Calm max s) (hi : s.calls[0]? = some c)
    {p : Except PyError PartialResult}
    (hp : p.toOption.isSome ∨ c.job.results.isSome ∨ c.job.runResults.isSome)
    (hstep : callStep s 0 c p c.pc = some s') : Calm max s' := by
  have hc := h.call c hi
  generalize hpc : c.pc = pc at hstep
  cases pc with
  | insert =>
    simp only [callStep] at hstep
    split at hstep
    · cases hstep
    · obtain rfl := Option.some.inj hstep
      exact h.setCall hi .put rfl (fun e he => by cases he)
        (fun j hj => Function.update_of_ne hj _ _) (by simp [CallPc.registered])
  | put =>
    obtain rfl := Option.some.inj hstep
    have h₁ := h.setPc hi .waiting rfl (fun e he => by cases he) (by rw [hpc]; rfl)
    refine h₁.setQueue _ fun k j hj => ?_
    have hcid : Known (s.setCall 0 { c with pc := .waiting }).calls c.id :=
      known_setCall hi rfl ⟨c, hi, rfl, by rw [hpc]; rfl⟩
    rcases mem_queue_enqueue hj with hj | rfl
    · exact h₁.queues k j hj
    · exact hcid
  | waiting =>
    simp only [callStep] at hstep
    split at hstep
    · obtain ⟨result, hresult⟩ := exists_finalResult (hc.job.readable hp)
      rw [hresult] at hstep
      obtain rfl := Option.some.inj hstep
      exact h.setPc hi (.check result) rfl (fun e he => by cases he) (by rw [hpc]; rfl)
    · cases hstep
  | check result =>
    obtain rfl := Option.some.inj hstep
    refine h.setPc hi _ ?_ (fun e => ?_) ?_
    · split <;> rfl
    · split <;> exact fun he => by cases he
    · rw [hpc]
      split <;> rfl
  | close result =>
    obtain rfl := Option.some.inj hstep
    have h₁ := h.setPc hi (.delete result) rfl (fun e he => by cases he) (by rw [hpc]; rfl)
    exact h₁.setLogs s.created _
  | delete result =>
    have hentry : s.details c.id = some 0 := by
      rw [hc.entry, hpc]
      rfl
    simp only [callStep, h.unlocked, hentry, Bool.false_eq_true, if_false] at hstep
    obtain rfl := Option.some.inj hstep
    exact h.setCall hi (.returned result) rfl (fun e he => by cases he)
      (fun j hj => Function.update_of_ne hj _ _) (by simp [CallPc.registered])
  | returned result => cases hstep
  | raised e => exact absurd hpc (hc.pc e)

/-- A cancellation that finds no entry keeps the invariant. -/
lemma cancelStep_calm (h : Calm max s) {k : ℕ} {d : Cancel} (hk : s.cancels[k]? = some d)
    (hmiss : d.pc.isCheck = true → s.details d.id = none)
    (hstep : cancelStep s k d d.pc = some s') : Calm max s' := by
  obtain ⟨hearly, hpc | hpc⟩ := h.cancels d (List.mem_of_getElem? hk)
  · have hnone := hmiss (by rw [hpc]; rfl)
    rw [hpc] at hstep
    simp only [cancelStep, h.running, hnone, if_true] at hstep
    obtain rfl := Option.some.inj hstep
    refine { h with cancels := fun e he => ?_ }
    rcases List.mem_or_eq_of_mem_set he with he | rfl
    · exact h.cancels e he
    · exact ⟨hearly, .inr rfl⟩
  · rw [hpc] at hstep
    cases hstep

/-- The begin of the call keeps the invariant. -/
lemma Calm.submit (h : Calm max s) (hnone : s.calls = []) {j : String} (hj : j ≠ stopSentinel)
    (inst : ResultDict) : Calm max { s with calls := s.calls ++ [newCall s j inst] } := by
  have hfresh : ∀ i, ¬ Known s.calls i := by
    rintro i ⟨c, hc, -⟩
    rw [hnone] at hc
    cases hc
  have hempty : ∀ i, s.details i = none := by
    intro i
    cases hd : s.details i with
    | none => rfl
    | some r => exact absurd (h.entries i r hd) (hfresh i)
  refine { h with
    single := by simp [hnone]
    call := fun c hc => ?_
    entries := fun i r hd => absurd (h.entries i r hd) (hfresh i)
    queues := fun k i hi => absurd (h.queues k i hi) (hfresh i)
    workers := fun x hx => ⟨fun i hi => absurd ((h.workers x hx).id i hi) (hfresh i),
      (h.workers x hx).ref, (h.workers x hx).sound⟩ }
  obtain rfl : newCall s j inst = c := by simpa [hnone] using hc
  have hpc : (newCall s j inst).pc = .insert := by simp [newCall, h.running]
  refine ⟨hj, ⟨fun d hd => ?_, rfl, fun d hd => ?_⟩, fun e he => ?_, ?_⟩
  · cases hd
  · cases hd
  · rw [hpc] at he
    cases he
  · rw [hpc, hempty]
    rfl

/-- **The step lemma**: a step that meets the condition keeps the invariant. -/
theorem step_calm {l : Label} (h : Calm max s) (hcond : CancelMisses s l)
    (hstep : step max s l = some s') : Calm max s' := by
  cases l with
  | submit j inst =>
    obtain rfl := Option.some.inj hstep
    exact h.submit hcond.1 hcond.2 inst
  | call i p =>
    obtain ⟨c, hc, hstep⟩ := Option.bind_eq_some_iff.mp hstep
    obtain rfl := h.index hc
    exact callStep_calm h hc (hcond c hc) hstep
  | worker w a =>
    obtain ⟨x, hx, hstep⟩ := Option.bind_eq_some_iff.mp hstep
    exact workerStep_calm h hx hcond hstep
  | cancelBegin j =>
    obtain rfl := Option.some.inj hstep
    refine { h with cancels := fun d hd => ?_ }
    rcases List.mem_append.mp hd with hd | hd
    · exact h.cancels d hd
    · obtain rfl := List.mem_singleton.mp hd
      exact ⟨rfl, .inl rfl⟩
  | cancel k =>
    obtain ⟨d, hd, hstep⟩ := Option.bind_eq_some_iff.mp hstep
    exact cancelStep_calm h hd (hcond d hd) hstep
  | stopBegin => exact hcond.elim
  | stop k n => exact hcond.elim
  | start => exact hcond.elim

/-- The invariant holds after the start of the server. -/
lemma calm_initState (max : JobType → ℕ) : Calm max (initState max) where
  running := rfl
  unlocked := rfl
  discarded := rfl
  cancels d hd := by cases hd
  single := by simp [initState]
  call c hc := by cases hc
  entries j r hd := by cases hd
  queues k j hj := by cases hj
  workers x hx := by
    simp only [initState, newWorkers, List.mem_append, List.mem_replicate] at hx
    rcases hx with (⟨-, rfl⟩ | ⟨-, rfl⟩) | ⟨-, rfl⟩ <;> exact calmWorker_waiting _ _
  active k j hj := by cases hj
  staffed k hk := by
    refine ⟨⟨k, .waiting⟩, ?_, rfl⟩
    simp only [initState, newWorkers, List.mem_append, List.mem_replicate]
    cases k
    · exact .inl (.inl ⟨by omega, rfl⟩)
    · exact .inl (.inr ⟨by omega, rfl⟩)
    · exact .inr ⟨by omega, rfl⟩

/-- A calm server loses no job: its only call inserts its job under an id without traces. -/
lemma keepsJobs_of_calm {l : Label} (h : Calm max s) (hcond : CancelMisses s l) :
    KeepsJobs s l := by
  cases l with
  | call i p =>
    intro c hc hpc
    obtain rfl := h.index hc
    have hfresh : ∀ j, ¬ Known s.calls j := by
      rintro j ⟨d, hd, -, hins⟩
      obtain rfl := Option.some.inj (Eq.trans (Eq.symm hc) hd)
      rw [hins] at hpc
      exact Bool.false_ne_true hpc
    have hqueue : ∀ k, (s.queue k).count c.id = 0 := by
      intro k
      rw [List.count_eq_zero]
      exact fun hj => hfresh c.id (h.queues k c.id hj)
    have hheld : s.workers.countP (fun x => x.pc.held = some c.id) = 0 := by
      rw [List.countP_eq_zero]
      intro x hx hh
      refine hfresh c.id ((h.workers x hx).id c.id ?_)
      cases hxp : x.pc <;> simp_all [WorkerPc.id, WorkerPc.held]
    refine ⟨(h.call c hc).id, by simp [h.discarded], ?_, ?_, fun d hd _ => ?_⟩
    · simp [State.places, hqueue, hheld]
    · unfold State.inserting
      rw [List.countP_eq_zero]
      intro d hd
      obtain ⟨i, hi⟩ := List.mem_iff_getElem?.mp hd
      obtain rfl := h.index hi
      obtain rfl := Option.some.inj (Eq.trans (Eq.symm hc) hi)
      cases hcp : c.pc <;> simp_all [CallPc.isInsert, CallPc.isPut]
    · rcases (h.cancels d hd).2 with hdp | hdp <;> rw [hdp] <;> rfl
  | worker w a =>
    cases a with
    | handled r =>
      cases r with
      | ok results => trivial
      | error e => exact hcond.elim
    | _ => trivial
  | stopBegin => exact hcond.elim
  | stop k n => exact hcond.elim
  | start => exact hcond.elim
  | _ => trivial

end Calls

/-! ## The call can always return -/

/-- What an id on a queue still costs. -/
def queueWeight : JobType → ℕ
  | .init => 60
  | .run => 40
  | .eval => 20

/-- What a worker has still to do with its job. -/
def workerWeight (k : JobType) : WorkerPc → ℕ
  | .waiting | .crashed | .stopped => 0
  | .leaving _ | .crashing _ => 1
  | .got _ => queueWeight k - 1
  | .found _ _ => queueWeight k - 2
  | .active _ _ => queueWeight k - 3
  | .produced _ _ _ | .ran _ _ _ | .evaluated _ _ _ | .timedOut _ _ => queueWeight k - 4
  | .cleanup _ _ .check _ => queueWeight k - 5
  | .cleanup _ _ .close _ => queueWeight k - 6
  | .cleanup _ _ .clear _ => queueWeight k - 7
  | .handling _ _ => queueWeight k - 8
  | .putting _ _ => queueWeight k - 9
  | .setting _ _ => queueWeight k - 10

/-- What a call has still to do. -/
def callWeight : CallPc → ℕ
  | .insert => 67
  | .put => 66
  | .waiting => 5
  | .check _ => 4
  | .close _ => 3
  | .delete _ => 2
  | .returned _ | .raised _ => 0

/-- What is left to do in the server. -/
def State.work (s : State) : ℕ :=
  (s.calls.map fun c => callWeight c.pc).sum +
    ((s.queue .init).length * queueWeight .init + (s.queue .run).length * queueWeight .run +
      (s.queue .eval).length * queueWeight .eval) +
    (s.workers.map fun x => workerWeight x.kind x.pc).sum

/-- The second state has less to do, with the same calls. -/
structure Down (s s' : State) : Prop where
  work : s'.work < s.work
  calls : s'.calls.length = s.calls.length

section Work

variable {max : JobType → ℕ} {s s' : State} {w : ℕ} {x : Worker} {c : Call}

/-- How a step of a worker changes what is left to do. -/
lemma work_setWorker (hw : s.workers[w]? = some x) (pc : WorkerPc) :
    (s.setWorker w x.kind pc).work + workerWeight x.kind x.pc =
      s.work + workerWeight x.kind pc := by
  have hsum := Pool.sum_map_set_add (fun x : Worker => workerWeight x.kind x.pc) ⟨x.kind, pc⟩ hw
  unfold State.work State.setWorker
  dsimp only at hsum ⊢
  omega

/-- A step of a call changes what is left to do by its own part. -/
lemma work_setCall {i : ℕ} (hi : s.calls[i]? = some c) (pc : CallPc) :
    (s.setCall i { c with pc := pc }).work + callWeight c.pc = s.work + callWeight pc := by
  have hsum := Pool.sum_map_set_add (fun c : Call => callWeight c.pc) { c with pc := pc } hi
  unfold State.work State.setCall
  dsimp only at hsum ⊢
  omega

/-- A change of a job's data leaves as much to do. -/
lemma work_modifyJob (s : State) (r : ℕ) (f : JobDetails → JobDetails) :
    (s.modifyJob r f).work = s.work := by
  have hmap : ((s.modifyJob r f).calls.map fun c => callWeight c.pc) =
      s.calls.map fun c => callWeight c.pc := by
    apply List.ext_getElem?
    intro i
    rw [List.getElem?_map, getElem?_modifyJob, List.getElem?_map]
    cases s.calls[i]? with
    | none => rfl
    | some c => by_cases hri : r = i <;> simp [hri]
  unfold State.work
  rw [hmap]
  rfl

/-- Closing a runtime leaves as much to do. -/
lemma work_closeRuntime (s : State) (r : ℕ) (stage : CloseStage) :
    (s.closeRuntime r stage).1.work = s.work := by
  rcases closeRuntime_cases s r stage with h | h | h <;> rw [h]
  · rfl
  · exact work_modifyJob s r _

/-- A `put` adds the weight of its queue. -/
lemma work_enqueue (s : State) (k : JobType) (j : String) :
    (s.enqueue k j).work = s.work + queueWeight k := by
  unfold State.work State.enqueue
  cases k <;> simp [Function.update_of_ne, queueWeight] <;> omega

/-- A `get` takes the weight of its queue away. -/
lemma work_dequeue {k : JobType} {j : String} {q : List String} (hq : s.queue k = j :: q) :
    ({ s with queue := Function.update s.queue k q } : State).work + queueWeight k = s.work := by
  unfold State.work
  cases k <;> simp [hq, Function.update_of_ne, queueWeight] <;> omega

/-- **A worker that gets on with its job** leaves less to do. -/
lemma Down.worker {s₁ : State} (hw : s.workers[w]? = some x) (hwork : s₁.work = s.work)
    (hcalls : s₁.calls.length = s.calls.length) (hws : s₁.workers = s.workers) (pc : WorkerPc)
    (hlt : workerWeight x.kind pc < workerWeight x.kind x.pc) :
    Down s (s₁.setWorker w x.kind pc) := by
  have hw₁ : s₁.workers[w]? = some x := hws ▸ hw
  refine ⟨?_, hcalls⟩
  have := work_setWorker hw₁ pc
  omega

/-- The outcome with which a handler of each kind succeeds. -/
def success : JobType → HandlerOutcome
  | .init => .initialized
  | .run => .ran Dict.empty
  | .eval => .evaluated (.plain (.value .none))

/-- **A busy worker can move** and leaves less to do. -/
lemma exists_workerStep_down (h : Calm max s) (hw : s.workers[w]? = some x)
    (hx : x.pc.id.isSome = true) :
    ∃ a s', CancelMisses s (.worker w a) ∧ workerStep s w x.kind x.pc a = some s' ∧ Down s s' := by
  have hxc := h.workers x (List.mem_of_getElem? hw)
  have hmod : ∀ {r : ℕ} {f : JobDetails → JobDetails} (pc : WorkerPc),
      workerWeight x.kind pc < workerWeight x.kind x.pc →
      Down s ((s.modifyJob r f).setWorker w x.kind pc) :=
    fun pc => Down.worker hw (work_modifyJob s _ _) (by simp [State.modifyJob]) rfl pc
  have hgo : ∀ pc : WorkerPc, workerWeight x.kind pc < workerWeight x.kind x.pc →
      Down s (s.setWorker w x.kind pc) := fun pc => Down.worker hw rfl rfl rfl pc
  have hq : ∀ n ≤ 19, 0 < queueWeight x.kind - n := by
    intro n hn
    cases x.kind <;> simp only [queueWeight] <;> omega
  cases hpc : x.pc with
  | waiting => simp [hpc, WorkerPc.id, WorkerPc.held] at hx
  | got j =>
    rw [hpc] at hgo
    cases hd : s.details j with
    | none =>
      exact ⟨.go, _, trivial, by simp [workerStep, h.unlocked, hd], hgo .waiting (hq 1 (by omega))⟩
    | some r =>
      refine ⟨.go, _, trivial, by simp [workerStep, h.unlocked, hd], hgo (.found j r) ?_⟩
      have := hq 1 (by omega)
      simp only [workerWeight]
      omega
  | found j r =>
    have hdown := hgo (.active j r) (by
      have := hq 2 (by omega)
      rw [hpc]
      simp only [workerWeight]
      omega)
    exact ⟨.go, _, trivial, if_neg (by simp [h.discarded]), hdown.work, hdown.calls⟩
  | active j r =>
    have hlt : queueWeight x.kind - 4 < queueWeight x.kind - 3 := by
      have := hq 3 (by omega)
      omega
    refine ⟨.handler (success x.kind), ?_⟩
    cases hk : x.kind
    · have hdown := hgo (.produced j r s.created.length) (by rw [hpc]; exact hlt)
      rw [hk] at hdown
      exact ⟨_, trivial, rfl, hdown.work, hdown.calls⟩
    · have hdown := hgo (.ran j r Dict.empty) (by rw [hpc]; exact hlt)
      rw [hk] at hdown
      exact ⟨_, show errorReadable Dict.empty = true from rfl, rfl, hdown⟩
    · have hdown := hgo (.evaluated j r (.plain (.value .none))) (by rw [hpc]; exact hlt)
      rw [hk] at hdown
      exact ⟨_, rfl, rfl, hdown⟩
  | produced j r rt =>
    refine ⟨.go, _, trivial, rfl, hmod (.putting j r) ?_⟩
    have := hq 4 (by omega)
    rw [hpc]
    simp only [workerWeight]
    omega
  | ran j r results =>
    refine ⟨.go, _, trivial, rfl, hmod (.cleanup j r .check true) ?_⟩
    have := hq 4 (by omega)
    rw [hpc]
    simp only [workerWeight]
    omega
  | evaluated j r report =>
    refine ⟨.go, _, trivial, rfl, hmod (.setting j r) ?_⟩
    have := hq 4 (by omega)
    rw [hpc]
    simp only [workerWeight]
    omega
  | timedOut j r =>
    refine ⟨.go, _, trivial, rfl, hmod (afterException x.kind j r) ?_⟩
    rw [hpc]
    cases x.kind <;> simp [afterException, workerWeight, queueWeight]
  | cleanup j r stage success =>
    have hdown : ∀ pc : WorkerPc, workerWeight x.kind pc < workerWeight x.kind x.pc →
        Down s ((s.closeRuntime r stage).1.setWorker w x.kind pc) := fun pc =>
      Down.worker hw (work_closeRuntime s r stage)
        (by cases stage <;> simp [State.closeRuntime, State.modifyJob])
        (by cases stage <;> rfl) pc
    have hend : workerWeight x.kind (if success then .putting j r else .handling j r) <
        queueWeight x.kind - 7 := by
      have := hq 9 (by omega)
      cases success <;> simp only [workerWeight, if_true, Bool.false_eq_true, if_false] <;> omega
    rw [hpc] at hdown
    cases stage with
    | check =>
      have := hq 7 (by omega)
      cases hr : (s.runtimeOf r).isSome with
      | true =>
        refine ⟨.go, _, trivial, by simp [workerStep, State.closeRuntime, hr],
          hdown (.cleanup j r .close success) ?_⟩
        simp only [workerWeight]
        omega
      | false =>
        refine ⟨.go, _, trivial, by simp [workerStep, State.closeRuntime, hr],
          hdown (if success then .putting j r else .handling j r) (hend.trans ?_)⟩
        simp only [workerWeight]
        omega
    | close =>
      have := hq 7 (by omega)
      refine ⟨.go, _, trivial, rfl, hdown (.cleanup j r .clear success) ?_⟩
      simp only [workerWeight]
      omega
    | clear => exact ⟨.go, _, trivial, rfl, hdown _ hend⟩
  | handling j r =>
    refine ⟨.handled (.ok Dict.empty), _, .inr rfl, rfl, hmod (.setting j r) ?_⟩
    have := hq 8 (by omega)
    rw [hpc]
    simp only [workerWeight]
    omega
  | putting j r =>
    have hset := work_setWorker (s := s.enqueue (nextQueue x.kind) j) hw (.leaving j)
    have henq := work_enqueue s (nextQueue x.kind) j
    have hpass : queueWeight (nextQueue x.kind) + workerWeight x.kind (.leaving j) <
        workerWeight x.kind x.pc := by
      rw [hpc] at hxc ⊢
      cases hk : x.kind with
      | init => simp [workerWeight, queueWeight, nextQueue]
      | run => simp [workerWeight, queueWeight, nextQueue]
      | eval => exact absurd hk hxc.sound
    exact ⟨.go, _, trivial, rfl, by omega, rfl⟩
  | setting j r =>
    refine ⟨.go, _, trivial, rfl, hmod (.leaving j) ?_⟩
    have := hq 11 (by omega)
    rw [hpc]
    simp only [workerWeight]
    omega
  | leaving j =>
    have hdown := hgo .waiting (by rw [hpc]; exact Nat.one_pos)
    exact ⟨.go, _, trivial, rfl, hdown.work, hdown.calls⟩
  | crashing j => exact (hpc ▸ hxc.sound).elim
  | crashed => exact (hpc ▸ hxc.sound).elim
  | stopped => exact (hpc ▸ hxc.sound).elim

/-- A worker that waits takes the first id of its queue, and leaves less to do. -/
lemma exists_get_down (h : Calm max s) (hw : s.workers[w]? = some x) (hx : x.pc = .waiting)
    (hq : s.queue x.kind ≠ []) :
    ∃ s', workerStep s w x.kind x.pc .go = some s' ∧ Down s s' := by
  obtain ⟨j, q, hjq⟩ := List.exists_cons_of_ne_nil hq
  have hne : j ≠ stopSentinel := by
    obtain ⟨c, hc, rfl, -⟩ := h.queues x.kind j (by simp [hjq])
    exact (h.call c hc).id
  set s₁ : State := { s with queue := Function.update s.queue x.kind q } with hs₁
  have hdeq : s₁.work + queueWeight x.kind = s.work := work_dequeue hjq
  have hset := work_setWorker (s := s₁) hw (.got j)
  have hlt : workerWeight x.kind (.got j) < queueWeight x.kind := by
    cases x.kind <;> simp [workerWeight, queueWeight]
  refine ⟨s₁.setWorker w x.kind (.got j), ?_, by omega, rfl⟩
  rw [hx]
  simp only [workerStep, hjq, if_neg hne]
  rfl

/-- **The call can move** unless it waits for its event, and leaves less to do. -/
lemma exists_callStep_down (h : Calm max s) (hi : s.calls[0]? = some c)
    (hevent : c.pc = .waiting → c.job.event = true)
    (hpc : ∀ result, c.pc ≠ .returned result) (p : PartialResult) :
    ∃ s', callStep s 0 c (.ok p) c.pc = some s' ∧ Down s s' := by
  have hc := h.call c hi
  have hgo : ∀ pc : CallPc, callWeight pc < callWeight c.pc →
      Down s (s.setCall 0 { c with pc := pc }) := by
    intro pc hlt
    have := work_setCall hi pc
    exact ⟨by omega, by simp [State.setCall]⟩
  generalize hcp : c.pc = pc at hgo hevent
  cases pc with
  | insert =>
    have hdown := hgo .put (by decide)
    exact ⟨_, if_neg (by simp [h.unlocked]), hdown.work, hdown.calls⟩
  | put =>
    have hset := work_setCall (s := s.enqueue .init c.id) hi .waiting
    have henq := work_enqueue s .init c.id
    rw [hcp] at hset
    simp only [callWeight] at hset
    simp only [queueWeight] at henq
    exact ⟨_, rfl, by omega, by simp [State.setCall, State.enqueue]⟩
  | waiting =>
    obtain ⟨result, hresult⟩ := exists_finalResult (hc.job.readable (p := .ok p) (.inl rfl))
    refine ⟨_, ?_, hgo (.check result) (by simp [callWeight])⟩
    simp [callStep, hevent rfl, hresult]
  | check result =>
    refine ⟨_, rfl, hgo _ ?_⟩
    split <;> simp [callWeight]
  | close result =>
    have hdown := hgo (.delete result) (by simp [callWeight])
    exact ⟨_, rfl, hdown.work, hdown.calls⟩
  | delete result =>
    have hentry : s.details c.id = some 0 := by
      rw [hc.entry, hcp]
      rfl
    have hdown := hgo (.returned result) (by simp [callWeight])
    refine ⟨{ s.setCall 0 { c with pc := .returned result } with
      details := Function.update s.details c.id none }, ?_, hdown.work, hdown.calls⟩
    simp [callStep, h.unlocked, hentry]
  | returned result => exact absurd hcp (hpc result)
  | raised e => exact absurd hcp (hc.pc e)

/-- **Some thread can move** as long as the call has not returned, and leaves less to do: a worker
that is busy, a worker whose queue is not empty, or else the call, whose event is then set. -/
theorem exists_step_down (h : Calm max s) (hkept : Kept s)
    (hmax : ∀ k, 0 < max k) (hi : s.calls[0]? = some c)
    (hpc : ∀ result, c.pc ≠ .returned result) :
    ∃ l s', l.isServing = true ∧ CancelMisses s l ∧ step max s l = some s' ∧ Down s s' := by
  by_cases hbusy : ∃ x ∈ s.workers, x.pc.id.isSome = true
  · obtain ⟨x, hx, hid⟩ := hbusy
    obtain ⟨w, hw⟩ := List.mem_iff_getElem?.mp hx
    obtain ⟨a, s', hcond, hstep, hdown⟩ := exists_workerStep_down h hw hid
    exact ⟨.worker w a, s', rfl, hcond, by simp [step, hw, hstep], hdown⟩
  have hidle : ∀ x ∈ s.workers, x.pc = .waiting := by
    intro x hx
    have hnone : ¬ x.pc.id.isSome = true := fun hid => hbusy ⟨x, hx, hid⟩
    have hsound := (h.workers x hx).sound
    cases hxp : x.pc <;> simp [hxp, WorkerPc.id, WorkerPc.held, WorkerPc.Sound] at hnone hsound
    rfl
  by_cases hqueue : ∃ k, s.queue k ≠ []
  · obtain ⟨k, hk⟩ := hqueue
    obtain ⟨x, hx, rfl⟩ := h.staffed k (hmax k)
    obtain ⟨w, hw⟩ := List.mem_iff_getElem?.mp hx
    obtain ⟨s', hstep, hdown⟩ := exists_get_down h hw (hidle x hx) hk
    exact ⟨.worker w .go, s', rfl, trivial, by simp [step, hw, hstep], hdown⟩
  -- The id is nowhere, so an unset event is impossible.
  have hevent : c.pc = .waiting → c.job.event = true := by
    intro hcp
    by_contra hne
    have hentry : s.details c.id = some 0 := by
      rw [(h.call c hi).entry, hcp]
      rfl
    have hpos := hkept.kept c.id 0 hentry ⟨c, hi, by simpa using hne⟩
    have hplaces : s.places c.id = 0 := by
      have hq : ∀ k, s.queue k = [] := fun k => by
        by_contra hk
        exact hqueue ⟨k, hk⟩
      have hheld : s.workers.countP (fun x => x.pc.held = some c.id) = 0 := by
        rw [List.countP_eq_zero]
        intro x hx
        simp [hidle x hx, WorkerPc.held]
      simp [State.places, hq, hheld]
    have hins : s.inserting c.id = 0 := by
      unfold State.inserting
      rw [List.countP_eq_zero]
      intro d hd
      obtain ⟨i, hdi⟩ := List.mem_iff_getElem?.mp hd
      obtain rfl := h.index hdi
      obtain rfl := Option.some.inj (hi.symm.trans hdi)
      simp [hcp, CallPc.isPut]
    omega
  obtain ⟨s', hstep, hdown⟩ :=
    exists_callStep_down h hi hevent hpc ⟨.list [], .list [], .bool true⟩
  exact ⟨.call 0 (.ok ⟨.list [], .list [], .bool true⟩), s', rfl, fun _ _ => .inl rfl,
    by simp [step, hi, hstep], hdown⟩

/-- From a calm state the call can be brought to its return. -/
theorem Calm.canReturn (h : Calm max s) (hkept : Kept s)
    (hmax : ∀ k, 0 < max k) (hcall : 0 < s.calls.length) :
    s.CanReturn max 0 := by
  -- Induction on what is left to do.
  induction hn : s.work using Nat.strong_induction_on generalizing s with
  | _ n ih =>
    subst hn
    obtain ⟨c, hi⟩ : ∃ c, s.calls[0]? = some c := ⟨_, List.getElem?_eq_getElem hcall⟩
    by_cases hret : ∃ result, c.pc = .returned result
    · obtain ⟨result, hret⟩ := hret
      exact ⟨[], s, fun l hl => absurd hl List.not_mem_nil, rfl, c, result, hi, hret⟩
    · obtain ⟨l, s', hserv, hcond, hstep, hdown⟩ := exists_step_down h hkept hmax hi
        fun result hr => hret ⟨result, hr⟩
      obtain ⟨ls, t, hls, hrun, hend⟩ := ih s'.work hdown.work (step_calm h hcond hstep)
        (step_kept hkept (keepsJobs_of_calm h hcond) hstep) (hdown.calls ▸ hcall) rfl
      refine ⟨l :: ls, t, ?_, Machine.run_cons.mpr ⟨s', hstep, hrun⟩, hend⟩
      intro l' hl'
      rcases List.mem_cons.mp hl' with rfl | hl'
      · exact hserv
      · exact hls l' hl'

end Work

/-! ## Runs -/

/-- **Cancellation and completion agree**: in every run of one `process` call, any number of
`cancel_job` calls and the workers whose steps all meet the condition, cancellation and completion
agree in every state that is reached, and if the server has workers of every kind the call can be
brought to its return from there. -/
theorem agrees_of_cancelMisses (max : JobType → ℕ) (ls : List Label) (s : State)
    (hrun : Machine.run (Machine.guarded (step max) CancelMisses) (initState max) ls = some s) :
    s.Agrees ∧ ((∀ k, 0 < max k) → 0 < s.calls.length → s.CanReturn max 0) := by
  have hinv : Calm max s ∧ Kept s := by
    refine Machine.run_invariant (fun s => Calm max s ∧ Kept s) (fun s l s' h hstep => ?_)
      ⟨calm_initState max, kept_initState max⟩ hrun
    obtain ⟨hcond, hstep⟩ := Machine.guarded_eq_some.mp hstep
    exact ⟨step_calm h.1 hcond hstep, step_kept h.2 (keepsJobs_of_calm h.1 hcond) hstep⟩
  exact ⟨hinv.1.agrees, fun hmax hcall => hinv.1.canReturn hinv.2 hmax hcall⟩

/-- A cancellation that comes before the job, then the job, which a worker has found. -/
def cancelledEarly : List Label :=
  [Label.cancelBegin "a", .cancel 0] ++ submitJob 0 ++ [Label.worker 0 .go, .worker 0 .go]

theorem agrees_cancelledEarly :
    ∃ s, Machine.run (Machine.guarded (step oneWorker) CancelMisses) (initState oneWorker)
        cancelledEarly = some s ∧
      s.Agrees ∧ s.CanReturn oneWorker 0 := by
  obtain ⟨s, hrun, hcall⟩ : ∃ s, Machine.run (Machine.guarded (step oneWorker) CancelMisses)
      (initState oneWorker) cancelledEarly = some s ∧ 0 < s.calls.length :=
    ⟨_, rfl, by decide⟩
  obtain ⟨hagrees, hreturn⟩ := agrees_of_cancelMisses oneWorker cancelledEarly s hrun
  exact ⟨s, hrun, hagrees, hreturn (fun _ => Nat.one_pos) hcall⟩

/-- A job is cancelled while it is on the first queue, and its call goes on. -/
def cancelledRun : List Label :=
  submitJob 0 ++ cancelJob 0 ++ [callGo 0, callGo 0, callGo 0]

/-- The call of a cancelled job raises `KeyError`, because the cancellation has deleted the entry,
and the id stays marked as discarded. -/
theorem not_agrees_cancelledRun :
    ∃ s, Machine.run (step oneWorker) (initState oneWorker) cancelledRun = some s ∧
      (∃ c ∈ s.calls, c.pc = .raised (.keyError "a")) ∧ "a" ∈ s.discarded ∧ ¬ s.Agrees := by
  obtain ⟨s, hrun, ⟨c, hc, hpc⟩, hd⟩ : ∃ s, Machine.run (step oneWorker) (initState oneWorker)
      cancelledRun = some s ∧ (∃ c ∈ s.calls, c.pc = .raised (.keyError "a")) ∧
      "a" ∈ s.discarded := ⟨_, rfl, ⟨_, List.mem_singleton.mpr rfl, rfl⟩, by decide⟩
  exact ⟨s, hrun, ⟨c, hc, hpc⟩, hd, fun hagrees => hagrees.returns c hc _ hpc⟩

end ProRLAgent.ThreadedServer
