import Mathlib.Logic.Function.Basic
import Mathlib.Data.List.Basic
import ProRLAgent.Lib.Machine
import ProRLAgent.Lib.Pool
import ProRLAgent.Lib.Handles
import ProRLAgent.Threaded.Server
import ProRLAgent.Threaded.NoJobLost
import ProRLAgent.Threaded.Cancellation
import ProRLAgent.Threaded.Stopping

set_option relaxedAutoImplicit false
set_option autoImplicit false

/-!
# Runtimes are closed once

An init worker assigns the runtime that its handler has returned; a run worker, `cancel_job`,
`stop` and the `process` call close it. All but the `process` call check the field, close what it
holds and clear it; the `process` call is the last closer and does not clear the field. None of
these accesses is guarded. A runtime that is assigned after the `process` call has checked the
field is never closed, and a runtime that two places close at the same time is closed twice.

The server is an instance of the accounts of `ProRLAgent.Lib.Handles`: the jobs are the owners, the
workers the makers, and the runtime fields the slots. `ClosesApart` is the condition under which
the rules of such an account apply to every step.

## Main definitions

* `ThreadedServer.State.ClosedOnce` — the property.
* `ThreadedServer.ClosesApart` — the condition on a step.
* `ThreadedServer.State.book` — the account of the runtimes.

## Main results

* `ThreadedServer.step_accounted` — a step that meets the condition keeps the account balanced.
* `ThreadedServer.closedOnce_of_closesApart` — along runs that meet the condition runtimes are
  closed exactly once.
* `ThreadedServer.not_closedOnce_stopped` — a runtime that leaks and one that is closed twice.
-/

namespace ProRLAgent.ThreadedServer

/-! ## The property and the condition -/

/-- Call `r` has returned. -/
def State.Returned (s : State) (r : ℕ) : Prop :=
  ∃ c result, s.calls[r]? = some c ∧ c.pc = .returned result

/-- **Runtimes are closed once**: never twice, and exactly once when the job's call has returned
and no worker holds the job. -/
def State.ClosedOnce (s : State) : Prop :=
  ∀ (x r : ℕ), s.created[x]? = some r → s.closed.count x ≤ 1 ∧
    (s.Returned r → (∀ y ∈ s.workers, ∀ j, y.pc.ref ≠ some (j, r)) → s.closed.count x = 1)

/-- The runtime that the worker has received from the init handler and not yet assigned, with its
job. -/
def WorkerPc.hand : WorkerPc → Option (ℕ × ℕ)
  | .produced _ r x => some (r, x)
  | _ => none

/-- The job whose runtime is closed in this stage. -/
def CloseStage.closing (r : ℕ) : CloseStage → Option ℕ
  | .close => some r
  | _ => none

/-- The job whose runtime field is cleared in this stage. -/
def CloseStage.clearing (r : ℕ) : CloseStage → Option ℕ
  | .clear => some r
  | _ => none

/-- The job whose runtime the worker is about to close. -/
def WorkerPc.closing : WorkerPc → Option ℕ
  | .cleanup _ r stage _ => stage.closing r
  | _ => none

/-- The job whose runtime field the worker is about to clear. -/
def WorkerPc.clearing : WorkerPc → Option ℕ
  | .cleanup _ r stage _ => stage.clearing r
  | _ => none

def CancelPc.closing : CancelPc → Option ℕ
  | .cleanup r stage => stage.closing r
  | _ => none

def CancelPc.clearing : CancelPc → Option ℕ
  | .cleanup r stage => stage.clearing r
  | _ => none

def StopPc.closing : StopPc → Option ℕ
  | .cleanup r stage _ => stage.closing r
  | _ => none

def StopPc.clearing : StopPc → Option ℕ
  | .cleanup r stage _ => stage.clearing r
  | _ => none

/-- The call is at the close of its runtime. -/
def CallPc.isClose : CallPc → Bool
  | .close _ => true
  | _ => false

/-- The call is past its check of the runtime, or will not make it. -/
def CallPc.past : CallPc → Bool
  | .delete _ | .returned _ | .raised _ => true
  | _ => false

/-- The call has made its check of the runtime and goes on to return. -/
def CallPc.settled : CallPc → Bool
  | .delete _ | .returned _ => true
  | _ => false

/-- Call `r` is past its check of the runtime. -/
def State.past (s : State) (r : ℕ) : Bool := (s.calls[r]?).any fun c => c.pc.past

/-- Call `r` has made its check of the runtime and goes on to return. -/
def State.settled (s : State) (r : ℕ) : Bool := (s.calls[r]?).any fun c => c.pc.settled

/-- Some worker, cancellation or stop stands between its close of the runtime of job `r` and the
clearing of the field. -/
def State.Clearing (s : State) (r : ℕ) : Prop :=
  (∃ x ∈ s.workers, x.pc.clearing = some r) ∨ (∃ d ∈ s.cancels, d.pc.clearing = some r) ∨
    ∃ t ∈ s.stops, t.pc.clearing = some r

instance (s : State) (r : ℕ) : Decidable (s.Clearing r) := by
  unfold State.Clearing; infer_instance

/-- The runtime of job `r`, if there is one, is closed by nobody else. -/
def State.MayClose (s : State) (r : ℕ) : Prop :=
  s.runtimeOf r ≠ none → ¬ s.Clearing r ∧ s.past r = false

/-- A runtime that is assigned to job `r` now is closed later. -/
def State.MayAssign (s : State) (r : ℕ) : Prop :=
  s.runtimeOf r = none ∧ ¬ s.Clearing r ∧ s.past r = false

instance (s : State) (r : ℕ) : Decidable (s.MayClose r) := by
  unfold State.MayClose; infer_instance

instance (s : State) (r : ℕ) : Decidable (s.MayAssign r) := by
  unfold State.MayAssign; infer_instance

/-- The worker goes on by itself. -/
def WorkerAct.isGo : WorkerAct → Bool
  | .go => true
  | _ => false

/-- **The condition on a step**: a place that closes a runtime does so when no other place is
between its close and its clearing and the `process` call is not past its own check; a runtime is
assigned, and not dropped by a timeout, when the job has none, no place is about to clear the field
and the `process` call is not past its check. -/
def ClosesApart (s : State) : Label → Prop
  | .worker w a => ∀ x ∈ s.workers[w]?, (∀ r ∈ x.pc.closing, s.MayClose r) ∧
      ∀ p ∈ x.pc.hand, a.isGo = true ∧ s.MayAssign p.1
  | .call i _ => ∀ c ∈ s.calls[i]?, c.pc.isClose = true → s.MayClose i
  | .cancel k => ∀ d ∈ s.cancels[k]?, ∀ r ∈ d.pc.closing, s.MayClose r
  | .stop k _ => ∀ t ∈ s.stops[k]?, ∀ r ∈ t.pc.closing, s.MayClose r
  | _ => True

instance (s : State) (l : Label) : Decidable (ClosesApart s l) :=
  match l with
  | .worker w a =>
    inferInstanceAs (Decidable (∀ x ∈ s.workers[w]?, (∀ r ∈ x.pc.closing, s.MayClose r) ∧
      ∀ p ∈ x.pc.hand, a.isGo = true ∧ s.MayAssign p.1))
  | .call i _ =>
    inferInstanceAs (Decidable (∀ c ∈ s.calls[i]?, c.pc.isClose = true → s.MayClose i))
  | .cancel k =>
    inferInstanceAs (Decidable (∀ d ∈ s.cancels[k]?, ∀ r ∈ d.pc.closing, s.MayClose r))
  | .stop k _ =>
    inferInstanceAs (Decidable (∀ t ∈ s.stops[k]?, ∀ r ∈ t.pc.closing, s.MayClose r))
  | .submit _ _ | .cancelBegin _ | .stopBegin | .start => inferInstanceAs (Decidable True)

/-! ## The account of the runtimes -/

/-- **The account of the runtimes.** -/
def State.book (s : State) : Handles.Book ℕ ℕ where
  made := s.created
  closed := s.closed
  slot := s.runtimeOf
  hand := fun w => (s.workers[w]?).bind fun x => x.pc.hand
  clearing := s.Clearing
  past := fun r => s.past r = true
  settled := fun r => s.settled r = true

/-- **The invariant**: the account is balanced, and the entries and the workers know jobs that
exist. -/
structure Accounted (s : State) : Prop where
  balanced : Handles.Balanced s.book
  entries : ∀ j r, s.details j = some r → r < s.calls.length
  refs : ∀ x ∈ s.workers, ∀ j r, x.pc.ref = some (j, r) → r < s.calls.length

/-- A worker that has a runtime in hand holds its job. -/
lemma WorkerPc.ref_of_hand {pc : WorkerPc} {r x : ℕ} (h : pc.hand = some (r, x)) :
    ∃ j, pc.ref = some (j, r) := by
  cases pc <;> simp only [WorkerPc.hand, reduceCtorEq, Option.some.injEq, Prod.mk.injEq] at h
  obtain ⟨rfl, -⟩ := h
  exact ⟨_, rfl⟩

/-- The invariant gives that runtimes are closed once. -/
lemma Accounted.closedOnce {s : State} (h : Accounted s) : s.ClosedOnce := by
  intro x r hx
  refine ⟨List.nodup_iff_count_le_one.mp h.balanced.once x, fun hret hfree => ?_⟩
  refine h.balanced.count_eq_one hx ?_ fun w y hw => ?_
  · obtain ⟨c, result, hc, hpc⟩ := hret
    simp [State.book, State.settled, hc, hpc, CallPc.settled]
  · obtain ⟨z, hz, hhand⟩ := Option.bind_eq_some_iff.mp hw
    obtain ⟨j, hj⟩ := WorkerPc.ref_of_hand hhand
    exact hfree z (List.mem_of_getElem? hz) j hj

/-! ## Frames -/

section Frames

variable {s s₁ s' : State}

/-- What a step does to the threads that close runtimes: one of them leaves the clearing of the job
`leave`, or comes to the clearing of the job `enter`. -/
structure Clearings (s s' : State) (leave enter : Option ℕ) : Prop where
  leaves : ∀ r, s.Clearing r → s'.Clearing r ∨ leave = some r
  enters : ∀ r, s'.Clearing r → s.Clearing r ∨ enter = some r
  left : ∀ r, leave = some r → s.Clearing r
  entered : ∀ r, enter = some r → s'.Clearing r

/-- A step that leaves and enters nothing, or the same. -/
lemma Clearings.iff {o : Option ℕ} (h : Clearings s s' o o) (r : ℕ) :
    s'.Clearing r ↔ s.Clearing r :=
  ⟨fun hr => (h.enters r hr).elim id (h.left r), fun hr => (h.leaves r hr).elim id (h.entered r)⟩

/-- The same for a step that also leaves the hands of the workers alone. -/
structure Threads (s s' : State) (leave enter : Option ℕ) : Prop extends
    Clearings s s' leave enter where
  hand : s'.book.hand = s.book.hand

/-- The step does not change the threads that close runtimes. -/
structure SameThreads (s s' : State) : Prop where
  workers : s'.workers = s.workers
  cancels : s'.cancels = s.cancels
  stops : s'.stops = s.stops

lemma SameThreads.clearing (h : SameThreads s s') (r : ℕ) : s'.Clearing r ↔ s.Clearing r := by
  unfold State.Clearing
  rw [h.workers, h.cancels, h.stops]

lemma SameThreads.threads (h : SameThreads s s') : Threads s s' none none where
  hand := by simp only [State.book, h.workers]
  leaves r hr := .inl ((h.clearing r).mpr hr)
  enters r hr := .inl ((h.clearing r).mp hr)
  left r hr := by cases hr
  entered r hr := by cases hr

/-- The hands after a step of worker `w`. -/
lemma hand_setWorker {w : ℕ} {x : Worker} (hw : s.workers[w]? = some x) (k : JobType)
    (pc : WorkerPc) :
    (s.setWorker w k pc).book.hand = Function.update s.book.hand w pc.hand := by
  have hlt : w < s.workers.length := (List.getElem?_eq_some_iff.mp hw).1
  funext v
  by_cases hv : w = v
  · subst hv
    simp [State.book, State.setWorker, hlt]
  · rw [Function.update_of_ne (Ne.symm hv)]
    simp [State.book, State.setWorker, List.getElem?_set_ne hv]

/-- A step of a worker. -/
lemma clearings_setWorker (hs : SameThreads s s₁) {w : ℕ} {x : Worker}
    (hw : s.workers[w]? = some x) (k : JobType) (pc : WorkerPc) :
    Clearings s (s₁.setWorker w k pc) x.pc.clearing pc.clearing where
  leaves r hr := by
    rcases (hs.clearing r).mpr hr with hr | hr | hr
    · have hw₁ : s₁.workers[w]? = some x := hs.workers ▸ hw
      exact (Pool.exists_set_of_exists hw₁ (⟨k, pc⟩ : Worker) hr).imp_left .inl
    · exact .inl (.inr (.inl hr))
    · exact .inl (.inr (.inr hr))
  enters r hr := by
    rw [← hs.clearing]
    rcases hr with hr | hr | hr
    · exact (Pool.exists_of_exists_set hr).imp_left .inl
    · exact .inl (.inr (.inl hr))
    · exact .inl (.inr (.inr hr))
  left r hr := .inl ⟨x, List.mem_of_getElem? hw, hr⟩
  entered r hr := .inl ⟨⟨k, pc⟩, Pool.mem_set_of_getElem? (hs.workers ▸ hw) _, hr⟩

/-- A step of a worker that keeps what it has in hand. -/
lemma threads_setWorker (hs : SameThreads s s₁) {w : ℕ} {x : Worker} (hw : s.workers[w]? = some x)
    (k : JobType) (pc : WorkerPc) (hhand : pc.hand = x.pc.hand) :
    Threads s (s₁.setWorker w k pc) x.pc.clearing pc.clearing := by
  refine ⟨clearings_setWorker hs hw k pc, ?_⟩
  rw [hand_setWorker (hs.workers ▸ hw), hs.threads.hand, hhand]
  apply Function.update_eq_self_iff.mpr
  simp [State.book, hw]

/-- A step of a cancellation. -/
lemma threads_setCancel (hs : SameThreads s s₁) {k : ℕ} {d : Cancel} (hk : s.cancels[k]? = some d)
    (d' : Cancel) : Threads s (s₁.setCancel k d') d.pc.clearing d'.pc.clearing where
  hand := hs.threads.hand
  leaves r hr := by
    rcases (hs.clearing r).mpr hr with hr | hr | hr
    · exact .inl (.inl hr)
    · exact (Pool.exists_set_of_exists (hs.cancels ▸ hk) d' hr).imp_left fun hr => .inr (.inl hr)
    · exact .inl (.inr (.inr hr))
  enters r hr := by
    rw [← hs.clearing]
    rcases hr with hr | hr | hr
    · exact .inl (.inl hr)
    · exact (Pool.exists_of_exists_set hr).imp_left fun hr => .inr (.inl hr)
    · exact .inl (.inr (.inr hr))
  left r hr := .inr (.inl ⟨d, List.mem_of_getElem? hk, hr⟩)
  entered r hr := .inr (.inl ⟨d', Pool.mem_set_of_getElem? (hs.cancels ▸ hk) d', hr⟩)

/-- A step of a `stop` call. -/
lemma threads_setStop (hs : SameThreads s s₁) {k : ℕ} {t : Stop} (hk : s.stops[k]? = some t)
    (t' : Stop) : Threads s (s₁.setStop k t') t.pc.clearing t'.pc.clearing where
  hand := hs.threads.hand
  leaves r hr := by
    rcases (hs.clearing r).mpr hr with hr | hr | hr
    · exact .inl (.inl hr)
    · exact .inl (.inr (.inl hr))
    · exact (Pool.exists_set_of_exists (hs.stops ▸ hk) t' hr).imp_left fun hr => .inr (.inr hr)
  enters r hr := by
    rw [← hs.clearing]
    rcases hr with hr | hr | hr
    · exact .inl (.inl hr)
    · exact .inl (.inr (.inl hr))
    · exact (Pool.exists_of_exists_set hr).imp_left fun hr => .inr (.inr hr)
  left r hr := .inr (.inr ⟨t, List.mem_of_getElem? hk, hr⟩)
  entered r hr := .inr (.inr ⟨t', Pool.mem_set_of_getElem? (hs.stops ▸ hk) t', hr⟩)

/-- The step leaves the runtimes and their log alone. A call may go past its check of an empty
field. -/
structure SameData (s s' : State) : Prop where
  created : s'.created = s.created
  closed : s'.closed = s.closed
  runtime : s'.runtimeOf = s.runtimeOf
  past : ∀ r, s.past r = true → s'.past r = true
  settled : ∀ r, s'.settled r = true → s.settled r = true ∨ s.runtimeOf r = none
  length : s'.calls.length = s.calls.length

/-- A step that does not concern the calls. -/
lemma sameData_of_calls (hcreated : s'.created = s.created) (hclosed : s'.closed = s.closed)
    (hcalls : s'.calls = s.calls) : SameData s s' := by
  refine ⟨hcreated, hclosed, ?_, fun r hr => ?_, fun r hr => .inl ?_, by rw [hcalls]⟩
  · funext r
    simp only [State.runtimeOf, hcalls]
  · simpa only [State.past, hcalls] using hr
  · simpa only [State.settled, hcalls] using hr

/-- The runtime fields after a change of the details of one job. -/
lemma runtimeOf_modifyJob (s : State) (r i : ℕ) (f : JobDetails → JobDetails) :
    (s.modifyJob r f).runtimeOf i =
      (s.calls[i]?).bind fun c => if r = i then (f c.job).runtime else c.job.runtime := by
  unfold State.runtimeOf
  rw [getElem?_modifyJob, Option.bind_map]
  congr 1
  funext c
  simp only [Function.comp_apply]
  split <;> rfl

/-- A change of the details of one job does not move the calls. -/
lemma any_modifyJob (s : State) (r i : ℕ) (f : JobDetails → JobDetails) (p : CallPc → Bool) :
    ((s.modifyJob r f).calls[i]?).any (fun c => p c.pc) =
      (s.calls[i]?).any fun c => p c.pc := by
  rw [getElem?_modifyJob]
  cases s.calls[i]? with
  | none => rfl
  | some c =>
    simp only [Option.map_some, Option.any_some]
    split <;> rfl

/-- A change of the details of a job that keeps its runtime. -/
lemma sameData_modifyJob (s : State) (r : ℕ) {f : JobDetails → JobDetails}
    (hf : ∀ job, (f job).runtime = job.runtime) : SameData s (s.modifyJob r f) := by
  refine ⟨rfl, rfl, ?_, fun i hi => ?_, fun i hi => .inl ?_, by simp [State.modifyJob]⟩
  · funext i
    rw [runtimeOf_modifyJob]
    simp only [hf, ite_self]
    rfl
  · rwa [State.past, any_modifyJob]
  · rwa [State.settled, any_modifyJob] at hi

/-- **A step that leaves the runtimes alone** keeps the balance. -/
lemma balanced_of_sameData (h : Handles.Balanced s.book) {o : Option ℕ} (ht : Threads s s' o o)
    (hd : SameData s s') : Handles.Balanced s'.book := by
  apply h.quiet
  exact {
    made := hd.created
    closed := hd.closed
    slot := hd.runtime
    hand := ht.hand
    clearing := ht.iff
    past := hd.past
    settled := hd.settled }

/-- A place that closes a runtime does not move another thread. -/
lemma sameThreads_closeRuntime (s : State) (r : ℕ) (stage : CloseStage) :
    SameThreads s (s.closeRuntime r stage).1 := by
  cases stage <;> exact ⟨rfl, rfl, rfl⟩

lemma created_closeRuntime (s : State) (r : ℕ) (stage : CloseStage) :
    (s.closeRuntime r stage).1.created = s.created := by
  cases stage <;> rfl

/-- **A place that closes a runtime** keeps the balance: it checks, closes or clears. -/
lemma balanced_closeRuntime (h : Handles.Balanced s.book) {r : ℕ} {stage : CloseStage}
    (hguard : ∀ r' ∈ stage.closing r, s.MayClose r')
    (ht : Threads s s' (stage.clearing r)
      ((s.closeRuntime r stage).2.bind (CloseStage.clearing r)))
    (hcreated : s'.created = s.created) (hclosed : s'.closed = (s.closeRuntime r stage).1.closed)
    (hcalls : s'.calls = (s.closeRuntime r stage).1.calls) : Handles.Balanced s'.book := by
  cases stage with
  | check =>
    have hnone : (s.closeRuntime r .check).2.bind (CloseStage.clearing r) = none := by
      simp only [State.closeRuntime]
      split <;> rfl
    rw [hnone] at ht
    exact balanced_of_sameData h ht (sameData_of_calls hcreated hclosed hcalls)
  | close =>
    have hd : SameData { s with closed := s'.closed } s' := sameData_of_calls hcreated rfl hcalls
    refine h.closes (i := r) ?_ ?_
    · intro hsome
      obtain ⟨hclear, hpast⟩ := hguard r rfl hsome
      exact ⟨hclear, by simp [State.book, hpast]⟩
    · exact {
        made := hcreated
        closed := hclosed
        slot := hd.runtime
        hand := ht.hand
        clearing := fun k hk => (ht.leaves k hk).elim id fun hk => by cases hk
        clearing' := fun k hk => (ht.enters k hk).imp_right fun hk => (Option.some.inj hk).symm
        past := hd.past
        settled := fun k hk => .inl (by
          simpa only [State.book, State.settled, hcalls, State.closeRuntime] using hk)
        reason := .inl (ht.entered r rfl) }
  | clear =>
    apply h.clears (i := r)
    exact {
      before := ht.left r rfl
      made := hcreated
      closed := hclosed
      slot := by
        funext i
        have hrun : s'.runtimeOf i =
            (s.modifyJob r fun job => { job with runtime := none }).runtimeOf i := by
          simp only [State.runtimeOf, hcalls, State.closeRuntime]
        simp only [State.book, hrun, runtimeOf_modifyJob]
        by_cases hri : r = i
        · subst hri
          simp
        · rw [Function.update_of_ne (Ne.symm hri)]
          simp [hri, State.runtimeOf]
      hand := ht.hand
      clearing := fun k hk => ⟨fun h' => (ht.enters k h').elim id fun h' => (by cases h'),
        fun h' => (ht.leaves k h').elim id fun h' => absurd (Option.some.inj h').symm hk⟩
      past := fun k => by
        simp only [State.book, State.past, hcalls, State.closeRuntime, any_modifyJob]
      settled := fun k => by
        simp only [State.book, State.settled, hcalls, State.closeRuntime, any_modifyJob] }

end Frames

/-! ## Workers -/

section Workers

variable {s s₁ s' : State} {w : ℕ} {x : Worker}

/-- What the workers and the entries know after a step of worker `w`. -/
lemma Accounted.setWorker (h : Accounted s) (s₁ : State) {k : JobType} {pc : WorkerPc}
    (hbal : Handles.Balanced (s₁.setWorker w k pc).book) (hs : SameThreads s s₁)
    (hdet : s₁.details = s.details) (hlen : s₁.calls.length = s.calls.length)
    (href : ∀ j r, pc.ref = some (j, r) → r < s.calls.length) :
    Accounted (s₁.setWorker w k pc) where
  balanced := hbal
  entries j r hr := hlen ▸ h.entries j r (hdet ▸ hr)
  refs y hy j r hr := by
    have hlt : r < s.calls.length := by
      rcases List.mem_or_eq_of_mem_set hy with hy | rfl
      · exact h.refs y (hs.workers ▸ hy) j r hr
      · exact href j r hr
    exact hlen.symm ▸ hlt

/-- A step of a worker that leaves the runtimes alone. -/
lemma Accounted.worker (h : Accounted s) (hw : s.workers[w]? = some x) (hs : SameThreads s s₁)
    (hd : SameData s s₁) (hdet : s₁.details = s.details) (k : JobType) {pc : WorkerPc}
    (hhand : pc.hand = x.pc.hand) (hclear : pc.clearing = x.pc.clearing)
    (href : ∀ j r, pc.ref = some (j, r) → x.pc.ref = some (j, r) ∨ s.details j = some r) :
    Accounted (s₁.setWorker w k pc) := by
  have ht := threads_setWorker hs hw k pc hhand
  rw [hclear] at ht
  refine h.setWorker s₁ (balanced_of_sameData h.balanced ht ?_) hs hdet hd.length fun j r hr => ?_
  · exact { hd with }
  · rcases href j r hr with hr | hr
    · exact h.refs x (List.mem_of_getElem? hw) j r hr
    · exact h.entries j r hr

/-- The init handler returns a runtime. -/
lemma Accounted.initialized (h : Accounted s) (hw : s.workers[w]? = some x) {j : String} {r : ℕ}
    (hx : x.pc = .active j r) (k : JobType) :
    Accounted { s.setWorker w k (.produced j r s.created.length) with
      created := s.created ++ [r] } := by
  have hclear := clearings_setWorker ⟨rfl, rfl, rfl⟩ hw k (.produced j r s.created.length)
  rw [hx] at hclear
  have hbal : Handles.Balanced (State.book { s.setWorker w k (.produced j r s.created.length) with
      created := s.created ++ [r] }) := by
    refine h.balanced.makes (w := w) (i := r) ?_ ?_
    · simp [State.book, hw, hx, WorkerPc.hand]
    · exact {
        made := rfl
        closed := rfl
        slot := rfl
        hand := hand_setWorker hw k _
        clearing := hclear.iff
        past := fun _ => .rfl
        settled := fun _ => .rfl }
  refine h.setWorker { s with created := s.created ++ [r] } hbal ⟨rfl, rfl, rfl⟩ rfl rfl
    fun i r' hr => ?_
  obtain ⟨rfl, rfl⟩ : j = i ∧ r = r' := by simpa [WorkerPc.ref] using hr
  exact h.refs x (List.mem_of_getElem? hw) j r (by rw [hx]; rfl)

/-- The runtime is assigned. -/
lemma Accounted.assign (h : Accounted s) (hw : s.workers[w]? = some x) {j : String} {r y : ℕ}
    (hx : x.pc = .produced j r y) (hmay : s.MayAssign r) (k : JobType) :
    Accounted ((s.modifyJob r fun job => { job with runtime := some y }).setWorker w k
      (.putting j r)) := by
  obtain ⟨hempty, hnot, hpast⟩ := hmay
  have hr : r < s.calls.length :=
    h.refs x (List.mem_of_getElem? hw) j r (by rw [hx]; rfl)
  have hs : SameThreads s (s.modifyJob r fun job => { job with runtime := some y }) :=
    ⟨rfl, rfl, rfl⟩
  have hclear := clearings_setWorker hs hw k (.putting j r)
  rw [hx] at hclear
  have hsettled : ¬ s.book.settled r := by
    simp only [State.book, State.settled, State.past, List.getElem?_eq_getElem hr,
      Option.any_some] at hpast ⊢
    cases hpc : s.calls[r].pc <;> simp_all [CallPc.past, CallPc.settled]
  refine h.setWorker (s.modifyJob r fun job => { job with runtime := some y })
    (h.balanced.assigns (w := w) (i := r) (x := y) hempty hnot hsettled ?_) hs rfl
    (by simp [State.modifyJob]) fun i r' hri => ?_
  · exact {
      inHand := by simp [State.book, hw, hx, WorkerPc.hand]
      made := rfl
      closed := rfl
      slot := by
        funext i
        have hrun : (s.modifyJob r fun job => { job with runtime := some y }).runtimeOf i =
            Function.update s.runtimeOf r (some y) i := by
          rw [runtimeOf_modifyJob]
          by_cases hri : r = i
          · subst hri
            simp [List.getElem?_eq_getElem hr]
          · rw [Function.update_of_ne (Ne.symm hri)]
            simp [hri, State.runtimeOf]
        exact hrun
      hand := hand_setWorker (s := s.modifyJob r fun job => { job with runtime := some y }) hw k _
      clearing := hclear.iff
      past := fun i => by
        simp only [State.book, State.past, State.setWorker, any_modifyJob]
      settled := fun i => by
        simp only [State.book, State.settled, State.setWorker, any_modifyJob] }
  · obtain ⟨-, rfl⟩ : j = i ∧ r = r' := by simpa [WorkerPc.ref] using hri
    exact hr

/-- The end of a handler. -/
lemma handlerStep_accounted (h : Accounted s) (hw : s.workers[w]? = some x) {j : String} {r : ℕ}
    (hx : x.pc = .active j r) {o : HandlerOutcome}
    (hstep : handlerStep s w x.kind j r o = some s') : Accounted s' := by
  have hgo : ∀ pc : WorkerPc, pc.hand = none → pc.clearing = none → pc.ref = some (j, r) →
      Accounted (s.setWorker w x.kind pc) := by
    intro pc hhand hclear href
    refine h.worker hw ⟨rfl, rfl, rfl⟩ (sameData_of_calls rfl rfl rfl) rfl x.kind
      (by rw [hx, hhand]; rfl) (by rw [hx, hclear]; rfl) fun i r' hr => .inl ?_
    rw [hx, ← hr, href]
    rfl
  cases o with
  | initialized =>
    simp only [handlerStep, Option.ite_none_right_eq_some, Option.some.injEq] at hstep
    obtain ⟨-, rfl⟩ := hstep
    exact h.initialized hw hx x.kind
  | ran results =>
    simp only [handlerStep, Option.ite_none_right_eq_some, Option.some.injEq] at hstep
    obtain ⟨-, rfl⟩ := hstep
    exact hgo _ rfl rfl rfl
  | evaluated report =>
    simp only [handlerStep, Option.ite_none_right_eq_some, Option.some.injEq] at hstep
    obtain ⟨-, rfl⟩ := hstep
    exact hgo _ rfl rfl rfl
  | timeout =>
    obtain rfl := Option.some.inj hstep
    exact hgo _ rfl rfl rfl
  | failed =>
    obtain rfl := Option.some.inj hstep
    exact hgo _ (by cases x.kind <;> rfl) (by cases x.kind <;> rfl) (by cases x.kind <;> rfl)

/-- **A step of a worker** that meets the condition keeps the invariant. -/
lemma workerStep_accounted (h : Accounted s) (hw : s.workers[w]? = some x) {a : WorkerAct}
    (hcond : (∀ r ∈ x.pc.closing, s.MayClose r) ∧
      ∀ p ∈ x.pc.hand, a.isGo = true ∧ s.MayAssign p.1)
    (hstep : workerStep s w x.kind x.pc a = some s') : Accounted s' := by
  generalize hx : x.pc = pc at hstep hcond
  -- A worker that goes on in a state with the same calls.
  have hgo : ∀ {s₁ : State} (pc' : WorkerPc), SameThreads s s₁ → SameData s s₁ →
      s₁.details = s.details → pc'.hand = pc.hand → pc'.clearing = pc.clearing →
      (∀ j r, pc'.ref = some (j, r) → pc.ref = some (j, r) ∨ s.details j = some r) →
      Accounted (s₁.setWorker w x.kind pc') := by
    intro s₁ pc' hs hd hdet hhand hclear href
    exact h.worker hw hs hd hdet x.kind (hx ▸ hhand) (hx ▸ hclear) (hx ▸ href)
  have hsame : ∀ (s₁ : State) (pc' : WorkerPc), SameThreads s s₁ → s₁.created = s.created →
      s₁.closed = s.closed → s₁.calls = s.calls → s₁.details = s.details → pc'.hand = pc.hand →
      pc'.clearing = pc.clearing →
      (∀ j r, pc'.ref = some (j, r) → pc.ref = some (j, r) ∨ s.details j = some r) →
      Accounted (s₁.setWorker w x.kind pc') :=
    fun s₁ pc' hs hcr hcl hca => hgo pc' hs (sameData_of_calls hcr hcl hca)
  have hmod : ∀ {r : ℕ} {f : JobDetails → JobDetails} (pc' : WorkerPc),
      (∀ job, (f job).runtime = job.runtime) → pc'.hand = pc.hand → pc'.clearing = pc.clearing →
      (∀ j r, pc'.ref = some (j, r) → pc.ref = some (j, r) ∨ s.details j = some r) →
      Accounted ((s.modifyJob r f).setWorker w x.kind pc') :=
    fun pc' hf => hgo pc' ⟨rfl, rfl, rfl⟩ (sameData_modifyJob s _ hf) rfl
  cases pc <;> cases a <;> simp only [workerStep, reduceCtorEq] at hstep
  case waiting.go =>
    split at hstep
    · cases hstep
    · next j q hq =>
      obtain rfl := Option.some.inj hstep
      refine hsame { s with queue := Function.update s.queue x.kind q } _ ⟨rfl, rfl, rfl⟩
        rfl rfl rfl rfl ?_ ?_ fun i r hr => ?_
      · split <;> rfl
      · split <;> rfl
      · split at hr <;> cases hr
  case got.go j =>
    split at hstep
    · cases hstep
    · split at hstep
      · obtain rfl := Option.some.inj hstep
        exact hsame s .waiting ⟨rfl, rfl, rfl⟩ rfl rfl rfl rfl rfl rfl fun _ _ hr => by cases hr
      · next r hd =>
        obtain rfl := Option.some.inj hstep
        refine hsame s (.found j r) ⟨rfl, rfl, rfl⟩ rfl rfl rfl rfl rfl rfl fun i r' hr => .inr ?_
        obtain ⟨rfl, rfl⟩ : j = i ∧ r = r' := by simpa [WorkerPc.ref] using hr
        exact hd
  case found.go j r =>
    split at hstep <;> obtain rfl := Option.some.inj hstep
    · exact hsame { s with discarded := discardFrom s.discarded j } .waiting ⟨rfl, rfl, rfl⟩
        rfl rfl rfl rfl rfl rfl fun _ _ hr => by cases hr
    · exact hsame { s with active := Function.update s.active x.kind (addTo (s.active x.kind) j) }
        (.active j r) ⟨rfl, rfl, rfl⟩ rfl rfl rfl rfl rfl rfl fun _ _ hr => .inl hr
  case active.handler j r o => exact handlerStep_accounted h hw hx hstep
  case produced.go j r y =>
    obtain rfl := Option.some.inj hstep
    exact h.assign hw hx (hcond.2 (r, y) rfl).2 x.kind
  case produced.handler j r y o =>
    have := (hcond.2 (r, y) rfl).1
    cases this
  case ran.go j r results =>
    obtain rfl := Option.some.inj hstep
    exact hmod _ (fun _ => rfl) rfl rfl fun _ _ hr => .inl hr
  case evaluated.go j r report =>
    obtain rfl := Option.some.inj hstep
    exact hmod _ (fun _ => rfl) rfl rfl fun _ _ hr => .inl hr
  case timedOut.go j r =>
    obtain rfl := Option.some.inj hstep
    refine hmod _ (fun _ => rfl) ?_ ?_ fun _ _ hr => .inl ?_
    · cases x.kind <;> rfl
    · cases x.kind <;> rfl
    · rw [← hr]
      cases x.kind <;> rfl
  case cleanup.go j r stage success =>
    have hs := sameThreads_closeRuntime s r stage
    have hj := jobsOnly_closeRuntime s r stage
    have hcreated := created_closeRuntime s r stage
    have href : ∀ i r', WorkerPc.ref (.cleanup j r stage success) = some (i, r') →
        r' < s.calls.length := fun i r' hr =>
      h.refs x (List.mem_of_getElem? hw) i r' (by rw [hx, hr])
    have hdone : ∀ pc' : WorkerPc, pc'.hand = none →
        pc'.clearing = (s.closeRuntime r stage).2.bind (CloseStage.clearing r) →
        pc'.ref = some (j, r) → Accounted ((s.closeRuntime r stage).1.setWorker w x.kind pc') := by
      intro pc' hhand hclear href'
      have ht := threads_setWorker hs hw x.kind pc' (by rw [hx, hhand]; rfl)
      rw [hx, hclear] at ht
      exact h.setWorker _ (balanced_closeRuntime h.balanced hcond.1 ht hcreated rfl rfl) hs
        hj.details hj.length fun i r' hr => href i r' (by rw [← hr, href']; rfl)
    split at hstep <;> obtain rfl := Option.some.inj hstep
    · next stage' hnext =>
      exact hdone _ rfl (by rw [hnext]; rfl) rfl
    · next hnext =>
      refine hdone _ ?_ ?_ ?_
      · cases success <;> rfl
      · rw [hnext]
        cases success <;> rfl
      · cases success <;> rfl
  case handling.handled j r res =>
    cases res with
    | ok results =>
      obtain rfl := Option.some.inj hstep
      exact hmod _ (fun _ => rfl) rfl rfl fun _ _ hr => .inl hr
    | error e =>
      obtain rfl := Option.some.inj hstep
      exact hsame s (.crashing j) ⟨rfl, rfl, rfl⟩ rfl rfl rfl rfl rfl rfl fun _ _ hr => by cases hr
  case putting.go j r =>
    obtain rfl := Option.some.inj hstep
    exact hsame (s.enqueue (nextQueue x.kind) j) (.leaving j) ⟨rfl, rfl, rfl⟩
      rfl rfl rfl rfl rfl rfl fun _ _ hr => by cases hr
  case setting.go j r =>
    obtain rfl := Option.some.inj hstep
    exact hmod _ (fun _ => rfl) rfl rfl fun _ _ hr => by cases hr
  case leaving.go j =>
    obtain rfl := Option.some.inj hstep
    exact hsame
      { s with active := Function.update s.active x.kind (discardFrom (s.active x.kind) j) }
      .waiting ⟨rfl, rfl, rfl⟩ rfl rfl rfl rfl rfl rfl fun _ _ hr => by cases hr
  case crashing.go j =>
    obtain rfl := Option.some.inj hstep
    exact hsame
      { s with active := Function.update s.active x.kind (discardFrom (s.active x.kind) j) }
      .crashed ⟨rfl, rfl, rfl⟩ rfl rfl rfl rfl rfl rfl fun _ _ hr => by cases hr

end Workers

/-! ## Calls -/

section Calls

variable {s s₁ s' : State} {i : ℕ} {c : Call}

/-- A step of another thread than a worker, which may insert or delete entries. -/
lemma Accounted.of_balanced (h : Accounted s) (hbal : Handles.Balanced s'.book)
    (hworkers : s'.workers = s.workers) (hlen : s.calls.length ≤ s'.calls.length)
    (hdet : ∀ j r, s'.details j = some r → s.details j = some r ∨ r < s'.calls.length) :
    Accounted s' where
  balanced := hbal
  entries j r hr := by
    rcases hdet j r hr with hr | hr
    · exact (h.entries j r hr).trans_le hlen
    · exact hr
  refs x hx j r hr := (h.refs x (hworkers ▸ hx) j r hr).trans_le hlen

/-- What a call is asked for after a step of call `i`. -/
lemma any_setCall (hi : s.calls[i]? = some c) (pc : CallPc) (p : CallPc → Bool) (k : ℕ) :
    ((s.setCall i { c with pc := pc }).calls[k]?).any (fun d => p d.pc) =
      if k = i then p pc else (s.calls[k]?).any fun d => p d.pc := by
  have hlt : i < s.calls.length := (List.getElem?_eq_some_iff.mp hi).1
  by_cases hik : i = k
  · subst hik
    simp [State.setCall, hlt]
  · rw [if_neg (Ne.symm hik)]
    simp [State.setCall, List.getElem?_set_ne hik]

/-- The runtimes after a step of call `i`. -/
lemma runtimeOf_setCall (hi : s.calls[i]? = some c) (pc : CallPc) :
    (s.setCall i { c with pc := pc }).runtimeOf = s.runtimeOf := by
  have hlt : i < s.calls.length := (List.getElem?_eq_some_iff.mp hi).1
  funext k
  by_cases hik : i = k
  · subst hik
    simp only [State.runtimeOf, State.setCall, List.getElem?_set_self hlt, hi, Option.bind_some]
  · simp [State.runtimeOf, State.setCall, List.getElem?_set_ne hik]

/-- A step of a call that goes past its check only if there is no runtime. -/
lemma sameData_setCall (hi : s.calls[i]? = some c) {pc : CallPc}
    (hpast : c.pc.past = true → pc.past = true)
    (hsettled : pc.settled = true → c.pc.settled = true ∨ c.job.runtime = none) :
    SameData s (s.setCall i { c with pc := pc }) := by
  refine ⟨rfl, rfl, runtimeOf_setCall hi pc, fun k hk => ?_, fun k hk => ?_,
    by simp [State.setCall]⟩
  · rw [State.past, any_setCall hi pc CallPc.past]
    split
    · next hki =>
      subst hki
      exact hpast (by simpa [State.past, hi] using hk)
    · exact hk
  · rw [State.settled, any_setCall hi pc CallPc.settled] at hk
    split at hk
    · next hki =>
      subst hki
      simpa [State.settled, State.runtimeOf, hi] using hsettled hk
    · exact .inl hk

/-- The close of the runtime by its `process` call, the last closer. -/
lemma balanced_callClose (h : Handles.Balanced s.book) (hi : s.calls[i]? = some c)
    (result : ResultDict) (hmay : s.MayClose i) :
    Handles.Balanced (State.book { s.setCall i { c with pc := .delete result } with
      closed := s.closed ++ c.job.runtime.toList }) := by
  have hpast : ∀ k, State.past (s.setCall i { c with pc := .delete result }) k =
      if k = i then true else s.past k := any_setCall hi _ CallPc.past
  have hsettled : ∀ k, State.settled (s.setCall i { c with pc := .delete result }) k =
      if k = i then true else s.settled k := any_setCall hi _ CallPc.settled
  refine h.closes (i := i) (fun hsome => ?_) ?_
  · obtain ⟨hclear, hnot⟩ := hmay hsome
    exact ⟨hclear, by simp [State.book, hnot]⟩
  · exact {
      made := rfl
      closed := by simp [State.book, State.runtimeOf, hi]
      slot := runtimeOf_setCall hi _
      hand := rfl
      clearing := fun k hk => hk
      clearing' := fun k hk => .inl hk
      past := fun k hk => by
        refine (hpast k).trans ?_
        split
        · rfl
        · exact hk
      settled := fun k hk => by
        have hk := (hsettled k).symm.trans hk
        split at hk
        · next hki => exact .inr hki
        · exact .inl hk
      reason := .inr ((hpast i).trans (if_pos rfl)) }

/-- **A step of a call** that meets the condition keeps the invariant. -/
lemma callStep_accounted (h : Accounted s) (hi : s.calls[i]? = some c)
    {p : Except PyError PartialResult} (hcond : c.pc.isClose = true → s.MayClose i)
    (hstep : callStep s i c p c.pc = some s') : Accounted s' := by
  have hlt : i < s.calls.length := (List.getElem?_eq_some_iff.mp hi).1
  have hgo : ∀ {pc : CallPc} {q : JobType → List String} {details : String → Option ℕ},
      (c.pc.past = true → pc.past = true) →
      (pc.settled = true → c.pc.settled = true ∨ c.job.runtime = none) →
      (∀ j r, details j = some r → s.details j = some r ∨ r = i) →
      Accounted { s.setCall i { c with pc := pc } with queue := q, details := details } := by
    intro pc q details hpast hsettled hdet
    have hbal : Handles.Balanced (s.setCall i { c with pc := pc }).book :=
      balanced_of_sameData h.balanced (SameThreads.threads ⟨rfl, rfl, rfl⟩)
        (sameData_setCall hi hpast hsettled)
    refine h.of_balanced hbal rfl (by simp [State.setCall]) fun j r hr => ?_
    rcases hdet j r hr with hr | rfl
    · exact .inl hr
    · exact .inr (by simpa [State.setCall] using hlt)
  cases hc : c.pc <;> rw [hc] at hstep <;> simp only [callStep, reduceCtorEq] at hstep
  case insert =>
    split at hstep
    · cases hstep
    · obtain rfl := Option.some.inj hstep
      refine hgo (by simp [hc, CallPc.past]) (by simp [CallPc.settled]) fun j r hr => ?_
      by_cases hj : j = c.id
      · subst hj
        simp only [Function.update_self, Option.some.injEq] at hr
        exact .inr hr.symm
      · exact .inl (by simpa [Function.update_of_ne hj] using hr)
  case put =>
    obtain rfl := Option.some.inj hstep
    exact hgo (by simp [hc, CallPc.past]) (by simp [CallPc.settled]) fun _ _ hr => .inl hr
  case waiting =>
    split at hstep
    · split at hstep <;> obtain rfl := Option.some.inj hstep
      · exact hgo (by simp [hc, CallPc.past]) (by simp [CallPc.settled]) fun _ _ hr => .inl hr
      · exact hgo (by simp [hc, CallPc.past]) (by simp [CallPc.settled]) fun _ _ hr => .inl hr
    · cases hstep
  case check result =>
    obtain rfl := Option.some.inj hstep
    refine hgo (by simp [hc, CallPc.past]) (fun hset => .inr ?_) fun _ _ hr => .inl hr
    cases hrt : c.job.runtime with
    | none => rfl
    | some y => simp [hrt, CallPc.settled] at hset
  case close result =>
    obtain rfl := Option.some.inj hstep
    exact h.of_balanced (balanced_callClose h.balanced hi result (hcond (by rw [hc]; rfl))) rfl
      (by simp [State.setCall]) fun _ _ hr => .inl hr
  case delete result =>
    split at hstep
    · cases hstep
    · split at hstep <;> obtain rfl := Option.some.inj hstep
      · exact hgo (by simp [CallPc.past]) (by simp [CallPc.settled]) fun _ _ hr => .inl hr
      · refine hgo (by simp [CallPc.past]) (by simp [hc, CallPc.settled]) fun j r hr => .inl ?_
        by_cases hj : j = c.id
        · subst hj
          simp at hr
        · simpa [Function.update_of_ne hj] using hr

end Calls

/-! ## Cancellations and stops -/

section Closers

variable {s s₁ s' : State} {k : ℕ}

/-- A step of a cancellation or a stop that leaves the runtimes alone and inserts no entry. -/
lemma Accounted.of_sameData (h : Accounted s) {o : Option ℕ} (ht : Threads s s' o o)
    (hd : SameData s s') (hworkers : s'.workers = s.workers)
    (hdet : ∀ j r, s'.details j = some r → s.details j = some r) : Accounted s' :=
  h.of_balanced (balanced_of_sameData h.balanced ht hd) hworkers hd.length.ge
    fun j r hr => .inl (hdet j r hr)

/-- **A step of a cancellation** that meets the condition keeps the invariant. -/
lemma cancelStep_accounted (h : Accounted s) {d : Cancel} (hk : s.cancels[k]? = some d)
    (hcond : ∀ r ∈ d.pc.closing, s.MayClose r) (hstep : cancelStep s k d d.pc = some s') :
    Accounted s' := by
  have hgo : ∀ {s₁ : State} (d' : Cancel), SameThreads s s₁ → SameData s s₁ →
      d'.pc.clearing = d.pc.clearing → (∀ j r, s₁.details j = some r → s.details j = some r) →
      Accounted (s₁.setCancel k d') := by
    intro s₁ d' hs hd hclear hdet
    have ht := threads_setCancel hs hk d'
    rw [hclear] at ht
    exact h.of_sameData ht { hd with } hs.workers hdet
  have hsame : ∀ (s₁ : State) (d' : Cancel), SameThreads s s₁ → s₁.created = s.created →
      s₁.closed = s.closed → s₁.calls = s.calls → d'.pc.clearing = d.pc.clearing →
      (∀ j r, s₁.details j = some r → s.details j = some r) → Accounted (s₁.setCancel k d') :=
    fun s₁ d' hs hcr hcl hca => hgo d' hs (sameData_of_calls hcr hcl hca)
  cases hd : d.pc <;> rw [hd] at hstep hcond <;> simp only [cancelStep, reduceCtorEq] at hstep
  case check =>
    split at hstep
    · split at hstep <;> obtain rfl := Option.some.inj hstep <;>
        exact hsame s _ ⟨rfl, rfl, rfl⟩ rfl rfl rfl (by rw [hd]; rfl) fun _ _ hr => hr
    · obtain rfl := Option.some.inj hstep
      exact hsame s _ ⟨rfl, rfl, rfl⟩ rfl rfl rfl (by rw [hd]; rfl) fun _ _ hr => hr
  case lock =>
    split at hstep
    · cases hstep
    · obtain rfl := Option.some.inj hstep
      refine hsame { s with detailsLocked := true } _ ⟨rfl, rfl, rfl⟩ rfl rfl rfl ?_
        fun _ _ hr => hr
      rw [hd]
      cases s.details d.id <;> rfl
  case flag r =>
    obtain rfl := Option.some.inj hstep
    exact hgo _ ⟨rfl, rfl, rfl⟩ (sameData_modifyJob s r fun _ => rfl) (by rw [hd]; rfl)
      fun _ _ hr => hr
  case signal r =>
    obtain rfl := Option.some.inj hstep
    exact hgo _ ⟨rfl, rfl, rfl⟩ (sameData_modifyJob s r fun _ => rfl) (by rw [hd]; rfl)
      fun _ _ hr => hr
  case cleanup r stage =>
    have hs := sameThreads_closeRuntime s r stage
    have hj := jobsOnly_closeRuntime s r stage
    have hcreated := created_closeRuntime s r stage
    have hdone : ∀ pc' : CancelPc,
        pc'.clearing = (s.closeRuntime r stage).2.bind (CloseStage.clearing r) →
        Accounted ((s.closeRuntime r stage).1.setCancel k { d with pc := pc' }) := by
      intro pc' hclear
      have ht := threads_setCancel hs hk { d with pc := pc' }
      rw [hd] at ht
      refine h.of_balanced (balanced_closeRuntime h.balanced hcond (hclear ▸ ht) hcreated rfl rfl)
        hs.workers hj.length.ge fun j r hr => .inl ?_
      rw [← hj.details]
      exact hr
    split at hstep <;> obtain rfl := Option.some.inj hstep
    · next stage' hnext => exact hdone _ (by rw [hnext]; rfl)
    · next hnext => exact hdone _ (by rw [hnext]; rfl)
  case delete =>
    split at hstep <;> obtain rfl := Option.some.inj hstep
    · refine hsame { s with
        details := Function.update s.details d.id none
        detailsLocked := false } _ ⟨rfl, rfl, rfl⟩ rfl rfl rfl (by rw [hd]; rfl) fun j r hr => ?_
      by_cases hj : j = d.id
      · subst hj
        simp at hr
      · simpa [Function.update_of_ne hj] using hr
    · exact hsame { s with detailsLocked := false } _ ⟨rfl, rfl, rfl⟩ rfl rfl rfl (by rw [hd]; rfl)
        fun _ _ hr => hr
  case discard =>
    obtain rfl := Option.some.inj hstep
    exact hsame { s with
      active := fun kind => discardFrom (s.active kind) d.id
      discarded := addTo s.discarded d.id } _ ⟨rfl, rfl, rfl⟩ rfl rfl rfl (by rw [hd]; rfl)
      fun _ _ hr => hr

/-- **A step of a `stop` call** that meets the condition keeps the invariant. -/
lemma stopStep_accounted {max : JobType → ℕ} {n : ℕ} (h : Accounted s) {t : Stop}
    (hk : s.stops[k]? = some t) (hcond : ∀ r ∈ t.pc.closing, s.MayClose r)
    (hstep : stopStep max s k t n t.pc = some s') : Accounted s' := by
  have hgo : ∀ {s₁ : State} (t' : Stop), SameThreads s s₁ → SameData s s₁ →
      t'.pc.clearing = t.pc.clearing → (∀ j r, s₁.details j = some r → s.details j = some r) →
      Accounted (s₁.setStop k t') := by
    intro s₁ t' hs hd hclear hdet
    have ht := threads_setStop hs hk t'
    rw [hclear] at ht
    exact h.of_sameData ht { hd with } hs.workers hdet
  have hsame : ∀ (s₁ : State) (t' : Stop), SameThreads s s₁ → s₁.created = s.created →
      s₁.closed = s.closed → s₁.calls = s.calls → t'.pc.clearing = t.pc.clearing →
      (∀ j r, s₁.details j = some r → s.details j = some r) → Accounted (s₁.setStop k t') :=
    fun s₁ t' hs hcr hcl hca => hgo t' hs (sameData_of_calls hcr hcl hca)
  have hpc : ∀ pc' : StopPc, pc'.clearing = t.pc.clearing →
      Accounted (s.setStop k { t with pc := pc' }) :=
    fun pc' hclear => hsame s _ ⟨rfl, rfl, rfl⟩ rfl rfl rfl hclear fun _ _ hr => hr
  cases ht : t.pc <;> rw [ht] at hstep hcond <;> simp only [ht] at hgo hsame hpc
  case flag =>
    obtain rfl := Option.some.inj hstep
    exact hsame { s with running := false } _ ⟨rfl, rfl, rfl⟩ rfl rfl rfl rfl fun _ _ hr => hr
  case snapshot =>
    obtain rfl := Option.some.inj hstep
    exact hpc _ rfl
  case signal pending =>
    cases pending with
    | nil =>
      obtain rfl := Option.some.inj hstep
      exact hpc _ rfl
    | cons j js =>
      simp only [stopStep] at hstep
      split at hstep
      · cases hstep
      · split at hstep
        · cases hstep
        · split at hstep <;> obtain rfl := Option.some.inj hstep
          · exact hsame { s with detailsLocked := true } _ ⟨rfl, rfl, rfl⟩ rfl rfl rfl rfl
              fun _ _ hr => hr
          · exact hpc _ rfl
  case flagJob r pending =>
    obtain rfl := Option.some.inj hstep
    exact hgo _ ⟨rfl, rfl, rfl⟩ (sameData_modifyJob s r fun _ => rfl) rfl fun _ _ hr => hr
  case setJob r pending =>
    obtain rfl := Option.some.inj hstep
    exact hgo _ ⟨rfl, rfl, rfl⟩ (sameData_modifyJob s r fun _ => rfl) rfl fun _ _ hr => hr
  case cleanup r stage pending =>
    have hs := sameThreads_closeRuntime s r stage
    have hj := jobsOnly_closeRuntime s r stage
    have hcreated := created_closeRuntime s r stage
    have hdone : ∀ (pc' : StopPc) (b : Bool),
        pc'.clearing = (s.closeRuntime r stage).2.bind (CloseStage.clearing r) →
        Accounted { (s.closeRuntime r stage).1.setStop k { t with pc := pc' } with
          detailsLocked := b } := by
      intro pc' b hclear
      have hth := threads_setStop hs hk { t with pc := pc' }
      rw [ht] at hth
      have hbal : Handles.Balanced
          ((s.closeRuntime r stage).1.setStop k { t with pc := pc' }).book :=
        balanced_closeRuntime h.balanced hcond (hclear ▸ hth) hcreated rfl rfl
      refine h.of_balanced hbal hs.workers hj.length.ge fun j r hr => .inl ?_
      rw [← hj.details]
      exact hr
    simp only [stopStep] at hstep
    split at hstep <;> obtain rfl := Option.some.inj hstep
    · next stage' hnext => exact hdone _ _ (by rw [hnext]; rfl)
    · next hnext => exact hdone _ _ (by rw [hnext]; rfl)
  case putStops kind m =>
    cases m with
    | zero =>
      simp only [stopStep] at hstep
      split at hstep <;> obtain rfl := Option.some.inj hstep <;> exact hpc _ rfl
    | succ m =>
      obtain rfl := Option.some.inj hstep
      exact hsame (s.enqueue kind stopSentinel) _ ⟨rfl, rfl, rfl⟩ rfl rfl rfl rfl fun _ _ hr => hr
  case clearSets =>
    obtain rfl := Option.some.inj hstep
    exact hsame { s with active := fun _ => [], discarded := [] } _ ⟨rfl, rfl, rfl⟩ rfl rfl rfl rfl
      fun _ _ hr => hr
  case clearDetails =>
    simp only [stopStep] at hstep
    split at hstep
    · cases hstep
    · obtain rfl := Option.some.inj hstep
      exact hsame { s with details := fun _ => none } _ ⟨rfl, rfl, rfl⟩ rfl rfl rfl rfl
        fun _ _ hr => by cases hr
  case clearQueue kind =>
    simp only [stopStep] at hstep
    split at hstep
    · obtain rfl := Option.some.inj hstep
      exact { h with }
    · split at hstep <;> obtain rfl := Option.some.inj hstep <;> exact hpc _ rfl
  case done => cases hstep

end Closers

/-! ## Runs -/

section Runs

variable {max : JobType → ℕ} {s s' : State}

/-- The begin of a `process` call: its job has no runtime. -/
lemma Accounted.submit (h : Accounted s) (j : String) (inst : ResultDict) :
    Accounted { s with calls := s.calls ++ [newCall s j inst] } := by
  have hget : ∀ k, (s.calls ++ [newCall s j inst])[k]? =
      if k = s.calls.length then some (newCall s j inst) else s.calls[k]? := by
    intro k
    split
    · next hk => simp [hk]
    · next hk =>
      by_cases hlt : k < s.calls.length
      · rw [List.getElem?_append_left hlt]
      · rw [List.getElem?_eq_none (by simp; omega), List.getElem?_eq_none (by omega)]
  have hbal : Handles.Balanced
      (State.book { s with calls := s.calls ++ [newCall s j inst] }) := by
    apply h.balanced.quiet
    exact {
      made := rfl
      closed := rfl
      slot := by
        funext k
        simp only [State.book, State.runtimeOf, hget]
        split
        · next hk => simp [hk, newCall]
        · rfl
      hand := rfl
      clearing := fun _ => .rfl
      past := fun k hk => by
        simp only [State.book, State.past, hget] at hk ⊢
        split
        · next hkl => simp [hkl] at hk
        · exact hk
      settled := fun k hk => by
        simp only [State.book, State.settled, hget] at hk ⊢
        split at hk
        · simp only [newCall, Option.any_some] at hk
          split at hk <;> cases hk
        · exact .inl hk }
  exact h.of_balanced hbal rfl (by simp) fun _ _ hr => .inl hr

/-- Threads that begin close nothing. -/
lemma Accounted.begin (h : Accounted s) (hcreated : s'.created = s.created)
    (hclosed : s'.closed = s.closed) (hcalls : s'.calls = s.calls)
    (hdetails : s'.details = s.details) {ws : List Worker} {ds : List Cancel} {ts : List Stop}
    (hworkers : s'.workers = s.workers ++ ws) (hws : ∀ x ∈ ws, x.pc = .waiting)
    (hcancels : s'.cancels = s.cancels ++ ds) (hds : ∀ d ∈ ds, d.pc.clearing = none)
    (hstops : s'.stops = s.stops ++ ts) (hts : ∀ t ∈ ts, t.pc.clearing = none) :
    Accounted s' := by
  have hclear : ∀ r, s'.Clearing r ↔ s.Clearing r := by
    intro r
    unfold State.Clearing
    rw [hworkers, hcancels, hstops]
    constructor
    · rintro (⟨x, hx, hr⟩ | ⟨d, hd, hr⟩ | ⟨t, ht, hr⟩)
      · rcases List.mem_append.mp hx with hx | hx
        · exact .inl ⟨x, hx, hr⟩
        · rw [hws x hx] at hr
          cases hr
      · rcases List.mem_append.mp hd with hd | hd
        · exact .inr (.inl ⟨d, hd, hr⟩)
        · rw [hds d hd] at hr
          cases hr
      · rcases List.mem_append.mp ht with ht | ht
        · exact .inr (.inr ⟨t, ht, hr⟩)
        · rw [hts t ht] at hr
          cases hr
    · rintro (⟨x, hx, hr⟩ | ⟨d, hd, hr⟩ | ⟨t, ht, hr⟩)
      · exact .inl ⟨x, List.mem_append_left _ hx, hr⟩
      · exact .inr (.inl ⟨d, List.mem_append_left _ hd, hr⟩)
      · exact .inr (.inr ⟨t, List.mem_append_left _ ht, hr⟩)
  have hhand : s'.book.hand = s.book.hand := by
    funext w
    simp only [State.book, hworkers]
    by_cases hlt : w < s.workers.length
    · rw [List.getElem?_append_left hlt]
    · have hnone : s.workers[w]? = none := List.getElem?_eq_none (by omega)
      rw [List.getElem?_append_right (by omega), hnone]
      cases hx : ws[w - s.workers.length]? with
      | none => rfl
      | some x => simp [hws x (List.mem_of_getElem? hx), WorkerPc.hand]
  have hd := sameData_of_calls hcreated hclosed hcalls
  exact {
    balanced := h.balanced.quiet ⟨hcreated, hclosed, hd.runtime, hhand, hclear, hd.past, hd.settled⟩
    entries := fun j r hr => hcalls ▸ h.entries j r (hdetails ▸ hr)
    refs := fun x hx j r hr => by
      rw [hcalls]
      rw [hworkers] at hx
      rcases List.mem_append.mp hx with hx | hx
      · exact h.refs x hx j r hr
      · rw [hws x hx] at hr
        cases hr }

/-- The workers that `start` submits wait. -/
lemma pc_of_mem_newWorkers {x : Worker} (hx : x ∈ newWorkers max) : x.pc = .waiting := by
  simp only [newWorkers, List.mem_append, List.mem_replicate] at hx
  rcases hx with (⟨-, rfl⟩ | ⟨-, rfl⟩) | ⟨-, rfl⟩ <;> rfl

/-- **A step that meets the condition keeps the invariant.** -/
theorem step_accounted {l : Label} (h : Accounted s) (hcond : ClosesApart s l)
    (hstep : step max s l = some s') : Accounted s' := by
  cases l with
  | submit j inst =>
    obtain rfl := Option.some.inj hstep
    exact h.submit j inst
  | call i p =>
    obtain ⟨c, hc, hstep⟩ := Option.bind_eq_some_iff.mp hstep
    exact callStep_accounted h hc (hcond c hc) hstep
  | worker w a =>
    obtain ⟨x, hx, hstep⟩ := Option.bind_eq_some_iff.mp hstep
    exact workerStep_accounted h hx (hcond x hx) hstep
  | cancelBegin j =>
    obtain rfl := Option.some.inj hstep
    exact h.begin rfl rfl rfl rfl (List.append_nil _).symm (by simp) rfl
      (by simp [CancelPc.clearing])
      (List.append_nil _).symm (by simp)
  | cancel k =>
    obtain ⟨d, hd, hstep⟩ := Option.bind_eq_some_iff.mp hstep
    exact cancelStep_accounted h hd (hcond d hd) hstep
  | stopBegin =>
    obtain rfl := Option.some.inj hstep
    refine h.begin rfl rfl rfl rfl (List.append_nil _).symm (by simp) (List.append_nil _).symm
      (by simp) rfl fun t ht => ?_
    obtain rfl := List.mem_singleton.mp ht
    cases s.running <;> rfl
  | stop k n =>
    obtain ⟨t, ht, hstep⟩ := Option.bind_eq_some_iff.mp hstep
    exact stopStep_accounted h ht (hcond t ht) hstep
  | start =>
    simp only [step] at hstep
    split at hstep
    · cases hstep
    · obtain rfl := Option.some.inj hstep
      exact h.begin rfl rfl rfl rfl rfl (fun x hx => pc_of_mem_newWorkers hx)
        (List.append_nil _).symm (by simp) (List.append_nil _).symm (by simp)

/-- The invariant holds after the start of the server. -/
lemma accounted_initState (max : JobType → ℕ) : Accounted (initState max) := by
  have hhand : ∀ w p, (initState max).book.hand w ≠ some p := by
    intro w p hw
    obtain ⟨x, hx, hp⟩ := Option.bind_eq_some_iff.mp hw
    rw [pc_of_mem_newWorkers (List.mem_of_getElem? hx)] at hp
    cases hp
  have hslot : ∀ i x, (initState max).book.slot i ≠ some x := by
    intro i x hx
    simp [State.book, State.runtimeOf, initState] at hx
  exact {
    balanced := {
      once := List.nodup_nil
      closedMade := fun x hx => by cases hx
      slotMade := fun i x hx => absurd hx (hslot i x)
      handMade := fun w i x hw => absurd hw (hhand w _)
      handOpen := fun w i x hw => absurd hw (hhand w _)
      handUnique := fun w w' i x hw => absurd hw (hhand w _)
      kept := fun i x hx => by simp [State.book, initState] at hx
      stale := fun i x hx => absurd hx (hslot i x)
      clearing := fun i x hx => absurd hx (hslot i x)
      settled := fun i x hx => absurd hx (hslot i x) }
    entries := fun j r hr => by cases hr
    refs := fun x hx j r hr => by
      rw [pc_of_mem_newWorkers hx] at hr
      cases hr }

/-- **Runtimes are closed exactly once**: in every run whose steps all meet the condition, over any
interleaving of `process`, `cancel_job`, `stop`, `start` and the workers and any outcomes of the
handlers, no runtime is closed twice, and a runtime is closed exactly once when the call of its job
has returned and no worker holds the job. -/
theorem closedOnce_of_closesApart (max : JobType → ℕ) (ls : List Label) (s : State)
    (hrun : Machine.run (Machine.guarded (step max) ClosesApart) (initState max) ls = some s) :
    s.ClosedOnce := by
  have hinv : Accounted s := by
    refine Machine.run_invariant Accounted (fun s l s' h hstep => ?_) (accounted_initState max) hrun
    obtain ⟨hcond, hstep⟩ := Machine.guarded_eq_some.mp hstep
    exact step_accounted h hcond hstep
  exact hinv.closedOnce

end Runs

/-! ## A job that fails and jobs that are stopped -/

/-- A job is submitted and an init worker makes its runtime. -/
def initJob : List Label :=
  submitJob 0 ++ List.replicate 3 (Label.worker 0 .go) ++ [Label.worker 0 (.handler .initialized)]

/-- The job fails in a run worker, which closes its runtime, and the call returns. -/
def failedRun : List Label :=
  initJob ++ List.replicate 3 (Label.worker 0 .go) ++ List.replicate 3 (Label.worker 1 .go) ++
    [Label.worker 1 (.handler .failed)] ++ List.replicate 3 (Label.worker 1 .go) ++
    [Label.worker 1 (.handled (.ok Dict.empty)), .worker 1 .go, .worker 1 .go] ++
    List.replicate 3 (callGo 0)

theorem closedOnce_failedRun :
    ∃ s, Machine.run (Machine.guarded (step oneWorker) ClosesApart) (initState oneWorker)
        failedRun = some s ∧
      s.ClosedOnce ∧ s.created = [0] ∧ s.Returned 0 ∧
      ∀ y ∈ s.workers, ∀ j, y.pc.ref ≠ some (j, 0) := by
  obtain ⟨s, hrun, hcreated, hret, hfree⟩ : ∃ s, Machine.run
      (Machine.guarded (step oneWorker) ClosesApart) (initState oneWorker) failedRun = some s ∧
      s.created = [0] ∧ s.Returned 0 ∧ ∀ y ∈ s.workers, y.pc.ref = none :=
    ⟨_, rfl, rfl, ⟨_, _, rfl, rfl⟩, by decide⟩
  refine ⟨s, hrun, closedOnce_of_closesApart oneWorker failedRun s hrun, hcreated, hret, ?_⟩
  intro y hy j
  rw [hfree y hy]
  exact fun h => by cases h

/-- The server is stopped while the init worker has the runtime in hand, and the call returns
before the worker assigns it. -/
def stoppedInInit : List Label :=
  initJob ++ [Label.stopBegin] ++ List.replicate 6 (Label.stop 0 0) ++
    List.replicate 3 (callGo 0) ++
    List.replicate 3 (Label.worker 0 .go)

/-- The server is stopped while a run worker is busy with the job: the call and `stop` both close
the runtime. -/
def stoppedInRun : List Label :=
  initJob ++ List.replicate 3 (Label.worker 0 .go) ++ List.replicate 3 (Label.worker 1 .go) ++
    [Label.stopBegin] ++ List.replicate 5 (Label.stop 0 0) ++ List.replicate 3 (callGo 0) ++
    List.replicate 2 (Label.stop 0 0)

/-- A runtime that is assigned after the call has checked the field is never closed, and a runtime
that the call and `stop` close at the same time is closed twice. -/
theorem not_closedOnce_stopped :
    (∃ s, Machine.run (step oneWorker) (initState oneWorker) stoppedInInit = some s ∧
      s.created = [0] ∧ s.closed = [] ∧ s.Returned 0 ∧
      (∀ y ∈ s.workers, ∀ j, y.pc.ref ≠ some (j, 0)) ∧ ¬ s.ClosedOnce) ∧
    ∃ s, Machine.run (step oneWorker) (initState oneWorker) stoppedInRun = some s ∧
      s.created = [0] ∧ s.closed = [0, 0] ∧ ¬ s.ClosedOnce := by
  constructor
  · obtain ⟨s, hrun, hcreated, hclosed, hret, hfree⟩ : ∃ s, Machine.run (step oneWorker)
        (initState oneWorker) stoppedInInit = some s ∧ s.created = [0] ∧ s.closed = [] ∧
        s.Returned 0 ∧ ∀ y ∈ s.workers, y.pc.ref = none :=
      ⟨_, rfl, rfl, rfl, ⟨_, _, rfl, rfl⟩, by decide⟩
    have hheld : ∀ y ∈ s.workers, ∀ j, y.pc.ref ≠ some (j, 0) := by
      intro y hy j
      rw [hfree y hy]
      exact fun h => by cases h
    refine ⟨s, hrun, hcreated, hclosed, hret, hheld, fun honce => ?_⟩
    have hcount := (honce 0 0 (by rw [hcreated]; rfl)).2 hret hheld
    rw [hclosed] at hcount
    cases hcount
  · obtain ⟨s, hrun, hcreated, hclosed⟩ : ∃ s, Machine.run (step oneWorker)
        (initState oneWorker) stoppedInRun = some s ∧ s.created = [0] ∧ s.closed = [0, 0] :=
      ⟨_, rfl, rfl, rfl⟩
    refine ⟨s, hrun, hcreated, hclosed, fun honce => ?_⟩
    have hcount := (honce 0 0 (by rw [hcreated]; rfl)).1
    rw [hclosed] at hcount
    exact absurd hcount (by decide)

end ProRLAgent.ThreadedServer
