import Mathlib.Data.List.Basic
import Mathlib.Data.Bool.Basic
import ProRLAgent.Lib.Machine
import ProRLAgent.Lib.Pool
import ProRLAgent.Threaded.Server

set_option relaxedAutoImplicit false
set_option autoImplicit false

/-!
# Where the jobs of the threaded server are

A job whose completion event is unset has its id at exactly one place: on one of the three queues,
in the hands of a worker, or with a `process` call that is about to put it on the first queue.
A request hangs as soon as that fails.

It fails because `cancel_job` leaves traces of a cancelled job behind. Its id stays in
`_discarded_jobs` when no worker picks it up before the entry of `_job_details` is gone (the
worker then takes the `not found` branch, which does not look at `_discarded_jobs`), and a stale
id can still be on a queue or with a worker. A job that is submitted again under this id is then
dropped as discarded, or is at two places. The other way to lose a job is an exception function
that raises: it ends the worker, and nobody sets the event.

`KeepsJobs` is the condition that a job is inserted under an id without such traces and that no
exception function raises.

## Main definitions

* `ThreadedServer.State.places` — how often an id is on a queue or with a worker.
* `ThreadedServer.State.JobsKept` — no job is lost.
* `ThreadedServer.KeepsJobs` — the condition on a step.
* `ThreadedServer.Kept` — the invariant.

## Main results

* `ThreadedServer.step_kept` — a step that meets the condition keeps the invariant.
* `ThreadedServer.jobsKept_of_keepsJobs` — along runs that meet it no job is lost.
* `ThreadedServer.not_jobsKept_resubmitted` — a job that is submitted again after a cancellation is
  dropped.
-/

namespace ProRLAgent.ThreadedServer

/-! ## Places and the condition -/

/-- The id that a worker holds: from the `get` until it has passed the id on, has set the event or
has dropped the job. -/
def WorkerPc.held : WorkerPc → Option String
  | .got j | .found j _ | .active j _ | .produced j _ _ | .ran j _ _ | .evaluated j _ _
  | .timedOut j _ | .cleanup j _ _ _ | .handling j _ | .putting j _ | .setting j _ => some j
  | .waiting | .leaving _ | .crashing _ | .crashed | .stopped => none

/-- The id that a worker holds with the details it has found for it. -/
def WorkerPc.ref : WorkerPc → Option (String × ℕ)
  | .found j r | .active j r | .produced j r _ | .ran j r _ | .evaluated j r _ | .timedOut j r
  | .cleanup j r _ _ | .handling j r | .putting j r | .setting j r => some (j, r)
  | .got _ | .waiting | .leaving _ | .crashing _ | .crashed | .stopped => none

/-- The call is between the insertion into `_job_details` and the `put` on `init_queue`. -/
def CallPc.isPut : CallPc → Bool
  | .put => true
  | _ => false

/-- The call is at the insertion into `_job_details`. -/
def CallPc.isInsert : CallPc → Bool
  | .insert => true
  | _ => false

/-- The cancellation has deleted the entry of `_job_details` and has not marked the id as
discarded. -/
def CancelPc.isDiscard : CancelPc → Bool
  | .discard => true
  | _ => false

/-- How often the id is on a queue or with a worker. -/
def State.places (s : State) (j : String) : ℕ :=
  (s.queue .init).count j + (s.queue .run).count j + (s.queue .eval).count j +
    s.workers.countP fun x => x.pc.held = some j

/-- How many calls are about to put the id on the first queue. -/
def State.inserting (s : State) (j : String) : ℕ :=
  s.calls.countP fun c => c.id = j && c.pc.isPut

/-- The completion event of the job of call `r` is unset. -/
def State.unset (s : State) (r : ℕ) : Prop := ∃ c, s.calls[r]? = some c ∧ c.job.event = false

/-- **No job is lost**: every job with an entry in `_job_details` and an unset event has its id
exactly once on a queue, with a worker or before its `put`, and no worker is about to drop it as
discarded. -/
def State.JobsKept (s : State) : Prop :=
  ∀ j r, s.details j = some r → s.unset r →
    s.places j + s.inserting j = 1 ∧
      ∀ x ∈ s.workers, x.pc.ref = some (j, r) → j ∉ s.discarded

/-- The id has no traces of an earlier job: it is not marked as discarded and no cancellation is
about to do so, and it is on no queue, with no worker and not before a `put`. -/
def State.freshId (s : State) (j : String) : Prop :=
  j ≠ stopSentinel ∧ j ∉ s.discarded ∧ s.places j = 0 ∧ s.inserting j = 0 ∧
    ∀ c ∈ s.cancels, c.id = j → c.pc.isDiscard = false

/-- **The condition on a step**: a job is inserted under an id without traces, and no exception
function raises. The steps are those of `process`, `cancel_job` and the workers. -/
def KeepsJobs (s : State) : Label → Prop
  | .call i _ => ∀ c ∈ s.calls[i]?, c.pc.isInsert → s.freshId c.id
  | .worker _ (.handled (.error _)) => False
  | .stopBegin | .stop _ _ | .start => False
  | _ => True

instance (s : State) (j : String) : Decidable (s.freshId j) := by
  unfold State.freshId; infer_instance

instance (s : State) (l : Label) : Decidable (KeepsJobs s l) := by
  cases l with
  | worker w a =>
    cases a with
    | handled r => cases r <;> unfold KeepsJobs <;> infer_instance
    | _ => unfold KeepsJobs; infer_instance
  | _ => unfold KeepsJobs; infer_instance

/-! ## The invariant -/

/-- **The invariant.** -/
structure Kept (s : State) : Prop where
  once : ∀ j, s.places j + s.inserting j ≤ 1
  kept : ∀ j r, s.details j = some r → s.unset r → 0 < s.places j + s.inserting j
  clean : ∀ j r, s.details j = some r → j ∉ s.discarded
  pending : ∀ c ∈ s.cancels, c.pc.isDiscard = true → s.details c.id = none
  refs : ∀ x ∈ s.workers, ∀ j r r', x.pc.ref = some (j, r) → s.details j = some r' → r' = r
  valid : ∀ j r, s.details j = some r → r < s.calls.length
  noSentinel : s.details stopSentinel = none

/-- The invariant gives that no job is lost. -/
lemma Kept.jobsKept {s : State} (h : Kept s) : s.JobsKept := by
  intro j r hd hu
  refine ⟨?_, fun x _ _ => h.clean j r hd⟩
  have := h.once j
  have := h.kept j r hd hu
  omega

section Frames

variable {s s' : State}

/-- A step that creates no entry and adds no place keeps the invariant, if the ids that it takes
away belong to no unfinished job. -/
lemma Kept.of_step (h : Kept s)
    (hle : ∀ j, s'.places j + s'.inserting j ≤ s.places j + s.inserting j)
    (hkept : ∀ j r, s'.details j = some r → s'.unset r →
      s.places j + s.inserting j ≤ s'.places j + s'.inserting j)
    (hdet : ∀ j r, s'.details j = some r → s.details j = some r)
    (hlen : s.calls.length ≤ s'.calls.length)
    (hunset : ∀ r, r < s.calls.length → s'.unset r → s.unset r)
    (hdisc : ∀ j r, s'.details j = some r → j ∈ s'.discarded → j ∈ s.discarded)
    (hpend : ∀ c ∈ s'.cancels, c.pc.isDiscard = true → s'.details c.id = none)
    (hrefs : ∀ x ∈ s'.workers, ∀ j r, x.pc.ref = some (j, r) →
      (∃ y ∈ s.workers, y.pc.ref = some (j, r)) ∨ s'.details j = some r) : Kept s' where
  once j := (hle j).trans (h.once j)
  kept j r hd hu :=
    (h.kept j r (hdet j r hd) (hunset r (h.valid j r (hdet j r hd)) hu)).trans_le (hkept j r hd hu)
  clean j r hd hj := h.clean j r (hdet j r hd) (hdisc j r hd hj)
  pending := hpend
  refs x hx j r r' href hd := by
    rcases hrefs x hx j r href with ⟨y, hy, hyref⟩ | hd'
    · exact h.refs y hy j r r' hyref (hdet j r' hd)
    · exact Option.some.inj (hd.symm.trans hd')
  valid j r hd := (h.valid j r (hdet j r hd)).trans_le hlen
  noSentinel := by
    cases hd : s'.details stopSentinel with
    | none => rfl
    | some r =>
      have := hdet _ r hd
      rw [h.noSentinel] at this
      cases this

/-- The two states have the same queues, workers, entries and cancellations; the second may have
more events set. -/
structure Alike (s s' : State) : Prop where
  queue : s'.queue = s.queue
  workers : s'.workers = s.workers
  details : s'.details = s.details
  discarded : s'.discarded = s.discarded
  cancels : s'.cancels = s.cancels
  length : s.calls.length ≤ s'.calls.length
  inserting : ∀ j, s'.inserting j = s.inserting j
  unset : ∀ r, r < s.calls.length → s'.unset r → s.unset r

/-- States that are alike have the ids at the same places. -/
lemma Alike.places (h : Alike s s') (j : String) : s'.places j = s.places j := by
  unfold State.places
  rw [h.queue, h.workers]

lemma Alike.refl (s : State) : Alike s s :=
  ⟨rfl, rfl, rfl, rfl, rfl, le_rfl, fun _ => rfl, fun _ _ h => h⟩

/-- A change of a job's details that does not clear its event changes no place. -/
lemma alike_modifyJob (s : State) (r : ℕ) (f : JobDetails → JobDetails)
    (hf : ∀ job, (f job).event = false → job.event = false) : Alike s (s.modifyJob r f) := by
  refine ⟨rfl, rfl, rfl, rfl, rfl, List.length_modify .. |>.ge, fun j => ?_, fun i _ hi => ?_⟩
  · exact Pool.countP_modify (fun c : Call => decide (c.id = j) && c.pc.isPut)
      (fun c : Call => { c with job := f c.job }) (fun _ => rfl) r
  obtain ⟨c, hc, he⟩ := hi
  rw [getElem?_modifyJob] at hc
  obtain ⟨d, hd, rfl⟩ := Option.map_eq_some_iff.mp hc
  refine ⟨d, hd, ?_⟩
  split at he
  · exact hf _ he
  · exact he

/-- The active sets play no part. -/
lemma alike_setActive (s : State) (active : JobType → List String) :
    Alike s { s with active := active } :=
  ⟨rfl, rfl, rfl, rfl, rfl, le_rfl, fun _ => rfl, fun _ _ h => h⟩

/-- Closing a runtime changes no place. -/
lemma alike_closeRuntime (s : State) (r : ℕ) (stage : CloseStage) :
    Alike s (s.closeRuntime r stage).1 := by
  rcases closeRuntime_cases s r stage with h | h | h <;> rw [h]
  · exact .refl s
  · exact ⟨rfl, rfl, rfl, rfl, rfl, le_rfl, fun _ => rfl, fun _ _ h => h⟩
  · exact alike_modifyJob s r _ fun _ h => h

/-- How a step of worker `w` changes the places of an id. -/
lemma places_setWorker {w : ℕ} {x : Worker} (hw : s.workers[w]? = some x) (k : JobType)
    (pc : WorkerPc) (j : String) :
    (s.setWorker w k pc).places j + (decide (x.pc.held = some j)).toNat =
      s.places j + (decide (pc.held = some j)).toNat := by
  have hcount := Pool.countP_set_add (fun x => decide (x.pc.held = some j)) ⟨k, pc⟩ hw
  unfold State.places State.setWorker
  dsimp only at hcount ⊢
  omega

/-- The refs of the workers after a step of worker `w`. -/
lemma ref_of_mem_set {w : ℕ} {k : JobType} {pc : WorkerPc} {ws : List Worker} {y : Worker}
    {q : String × ℕ} (hy : y ∈ ws.set w ⟨k, pc⟩) (href : y.pc.ref = some q) :
    (∃ z ∈ ws, z.pc.ref = some q) ∨ pc.ref = some q := by
  rcases List.mem_or_eq_of_mem_set hy with hy | rfl
  · exact .inl ⟨y, hy, href⟩
  · exact .inr href

/-- **A worker that goes on** with the id it holds keeps the invariant. -/
lemma Kept.worker (h : Kept s) (ha : Alike s s') {w : ℕ} {x : Worker}
    (hw : s.workers[w]? = some x) (k : JobType) {pc : WorkerPc} (hheld : pc.held = x.pc.held)
    (href : ∀ j r, pc.ref = some (j, r) → x.pc.ref = some (j, r) ∨ s.details j = some r) :
    Kept (s'.setWorker w k pc) := by
  have hplaces : ∀ j, (s'.setWorker w k pc).places j = s.places j := by
    intro j
    have := places_setWorker (ha.workers ▸ hw) k pc j
    rw [hheld, ha.places] at this
    omega
  refine h.of_step (fun j => ?_) (fun j r _ _ => ?_) (fun j r hd => ?_) ha.length ha.unset
    (fun j r _ hj => ?_) (fun c hc hp => ?_) (fun y hy j r hyref => ?_)
  · rw [hplaces]
    exact Nat.add_le_add_left (ha.inserting j).le _
  · rw [hplaces]
    exact Nat.add_le_add_left (ha.inserting j).ge _
  · exact ha.details ▸ hd
  · exact ha.discarded ▸ hj
  · rw [show (s'.setWorker w k pc).details = s.details from ha.details]
    exact h.pending c (ha.cancels ▸ hc) hp
  · rw [show (s'.setWorker w k pc).details = s.details from ha.details]
    rcases ref_of_mem_set hy hyref with hz | hz
    · exact .inl (ha.workers ▸ hz)
    · rcases href j r hz with hx | hd
      · exact .inl ⟨x, List.mem_of_getElem? hw, hx⟩
      · exact .inr hd

/-- **A worker that lets go** of an id that no unfinished job has keeps the invariant. -/
lemma Kept.drop (h : Kept s) (ha : Alike s s') {w : ℕ} {x : Worker}
    (hw : s.workers[w]? = some x) (k : JobType) {pc : WorkerPc} {j : String}
    (hx : x.pc.held = some j) (hpc : pc.held = none) (href : pc.ref = none)
    (hfree : ∀ r, s'.details j = some r → ¬ s'.unset r) : Kept (s'.setWorker w k pc) := by
  have hplaces : ∀ i, (s'.setWorker w k pc).places i + (decide (j = i)).toNat = s.places i := by
    intro i
    have := places_setWorker (ha.workers ▸ hw) k pc i
    rw [hx, hpc, ha.places] at this
    simpa using this
  refine h.of_step (fun i => ?_) (fun i r hd hu => ?_) (fun i r hd => ?_) ha.length ha.unset
    (fun i r _ hi => ?_) (fun c hc hp => ?_) (fun y hy i r hyref => ?_)
  · have := hplaces i
    have : (s'.setWorker w k pc).inserting i = s.inserting i := ha.inserting i
    omega
  · have hne : j ≠ i := fun hji => hfree r (hji ▸ hd) hu
    have hi := hplaces i
    have : (s'.setWorker w k pc).inserting i = s.inserting i := ha.inserting i
    simp only [hne, decide_false, Bool.toNat_false] at hi
    omega
  · exact ha.details ▸ hd
  · exact ha.discarded ▸ hi
  · rw [show (s'.setWorker w k pc).details = s.details from ha.details]
    exact h.pending c (ha.cancels ▸ hc) hp
  · rcases ref_of_mem_set hy hyref with hz | hz
    · exact .inl (ha.workers ▸ hz)
    · rw [href] at hz
      cases hz

/-- A state that is alike keeps the invariant. -/
lemma Kept.of_alike (h : Kept s) (ha : Alike s s') : Kept s' := by
  refine h.of_step (fun j => ?_) (fun j r _ _ => ?_) (fun j r hd => ha.details ▸ hd) ha.length
    ha.unset (fun j r _ hj => ha.discarded ▸ hj) (fun c hc hp => ?_) fun x hx j r href => ?_
  · rw [ha.places, ha.inserting]
  · rw [ha.places, ha.inserting]
  · rw [ha.details]
    exact h.pending c (ha.cancels ▸ hc) hp
  · exact .inl ⟨x, ha.workers ▸ hx, href⟩

/-- Fewer marks of discarded jobs keep the invariant. -/
lemma Kept.setDiscarded (h : Kept s) {d : List String} (hd : ∀ j ∈ d, j ∈ s.discarded) :
    Kept { s with discarded := d } :=
  { h with clean := fun j r hj hmem => h.clean j r hj (hd j hmem) }

/-- Deleting an entry of `_job_details` keeps the invariant. -/
lemma Kept.erase (h : Kept s) (j : String) :
    Kept { s with details := Function.update s.details j none } := by
  have hdet : ∀ i r, Function.update s.details j none i = some r → s.details i = some r := by
    intro i r hi
    by_cases hij : i = j
    · subst hij
      simp at hi
    · rwa [Function.update_of_ne hij] at hi
  refine h.of_step (fun _ => le_rfl) (fun _ _ _ _ => le_rfl) hdet le_rfl (fun _ _ hu => hu)
    (fun _ _ _ hj => hj) (fun c hc hp => ?_) fun x hx i r href => .inl ⟨x, hx, href⟩
  by_cases hcj : c.id = j
  · simp [hcj]
  · simpa [Function.update_of_ne hcj] using h.pending c hc hp

/-- Taking the first id from a queue. -/
lemma places_dequeue {k : JobType} {j : String} {q : List String} (hq : s.queue k = j :: q)
    (i : String) :
    ({ s with queue := Function.update s.queue k q } : State).places i +
      (decide (j = i)).toNat = s.places i := by
  have hcount : (s.queue k).count i = q.count i + (decide (j = i)).toNat := by
    rw [hq, List.count_cons]
    by_cases hji : j = i <;> simp [hji]
  unfold State.places
  cases k <;> simp [hcount] <;> omega

/-- Putting an id on a queue. -/
lemma places_enqueue (s : State) (k : JobType) (j i : String) :
    (s.enqueue k j).places i = s.places i + (decide (j = i)).toNat := by
  have hcount : (s.queue k ++ [j]).count i = (s.queue k).count i + (decide (j = i)).toNat := by
    rw [List.count_append, List.count_singleton]
    by_cases hji : j = i <;> simp [hji]
  unfold State.places State.enqueue
  cases k <;> simp only [Function.update_self, Function.update_of_ne, hcount, ne_eq,
    reduceCtorEq, not_false_eq_true] <;> omega

end Frames

/-! ## Steps of a worker -/

section Worker

variable {s s' : State} {w : ℕ} {x : Worker}

/-- A worker takes the first id of its queue. -/
lemma Kept.dequeue (h : Kept s) (hw : s.workers[w]? = some x) (hx : x.pc = .waiting)
    {j : String} {q : List String} (hq : s.queue x.kind = j :: q) :
    Kept (({ s with queue := Function.update s.queue x.kind q } : State).setWorker w x.kind
      (if j = stopSentinel then .stopped else .got j)) := by
  set s₁ : State := { s with queue := Function.update s.queue x.kind q } with hs₁
  set pc : WorkerPc := if j = stopSentinel then .stopped else .got j with hpc
  -- The id moves from the queue to the worker, unless it is the sentinel.
  have hplaces : ∀ i, (s₁.setWorker w x.kind pc).places i + (decide (j = i)).toNat =
      s.places i + (decide (pc.held = some i)).toNat := by
    intro i
    have hset := places_setWorker (s := s₁) hw x.kind pc i
    have hdeq : s₁.places i + (decide (j = i)).toNat = s.places i := places_dequeue hq i
    rw [hx, show WorkerPc.waiting.held = none from rfl] at hset
    simp only [reduceCtorEq, decide_false, Bool.toNat_false] at hset
    omega
  have href : pc.ref = none := by
    rw [hpc]
    split <;> rfl
  refine h.of_step (fun i => ?_) (fun i r hd _ => ?_) (fun _ _ hd => hd) le_rfl
    (fun _ _ hu => hu) (fun _ _ _ hi => hi) h.pending fun y hy i r hyref => ?_
  · have hi := hplaces i
    have hle : (decide (pc.held = some i)).toNat ≤ (decide (j = i)).toNat := by
      rw [hpc]
      by_cases hj : j = stopSentinel <;> simp [hj, WorkerPc.held]
    have : (s₁.setWorker w x.kind pc).inserting i = s.inserting i := rfl
    omega
  · have hi := hplaces i
    have hge : (decide (j = i)).toNat ≤ (decide (pc.held = some i)).toNat := by
      rw [hpc]
      by_cases hj : j = stopSentinel
      · have hne : stopSentinel ≠ i := by
          rintro rfl
          exact absurd (show s.details stopSentinel = some r from hd) (by simp [h.noSentinel])
        simp [hj, hne]
      · simp [hj, WorkerPc.held]
    have : (s₁.setWorker w x.kind pc).inserting i = s.inserting i := rfl
    omega
  · rcases ref_of_mem_set hy hyref with hz | hz
    · exact .inl hz
    · rw [href] at hz
      cases hz

/-- A worker passes its id on to the next queue. -/
lemma Kept.putNext (h : Kept s) (hw : s.workers[w]? = some x) {j : String} {r : ℕ}
    (hx : x.pc = .putting j r) (k k' : JobType) :
    Kept ((s.enqueue k' j).setWorker w k (.leaving j)) := by
  have hplaces : ∀ i, ((s.enqueue k' j).setWorker w k (.leaving j)).places i = s.places i := by
    intro i
    have hset := places_setWorker (s := s.enqueue k' j) hw k (.leaving j) i
    have henq := places_enqueue s k' j i
    simp only [hx, WorkerPc.held, reduceCtorEq, decide_false, Bool.toNat_false,
      Option.some.injEq] at hset
    omega
  refine h.of_step (fun i => ?_) (fun i r hd _ => ?_) (fun _ _ hd => hd) le_rfl
    (fun _ _ hu => hu) (fun _ _ _ hi => hi) h.pending fun y hy i r hyref => ?_
  · rw [hplaces]
    exact le_rfl
  · rw [hplaces]
    exact le_rfl
  · rcases ref_of_mem_set hy hyref with hz | hz
    · exact .inl hz
    · cases hz

/-- A worker sets the completion event of its job and lets go of the id. -/
lemma Kept.setEvent (h : Kept s) (hw : s.workers[w]? = some x) {j : String} {r : ℕ}
    (hx : x.pc = .setting j r) (k : JobType) :
    Kept ((s.modifyJob r fun job => { job with event := true }).setWorker w k (.leaving j)) := by
  refine h.drop (alike_modifyJob s r _ fun _ he => absurd he (by simp)) hw k (j := j)
    (by rw [hx]; rfl) rfl rfl fun r' hd hu => ?_
  -- The entry under the id, if there is one, is the job of this worker.
  obtain rfl : r' = r :=
    h.refs x (List.mem_of_getElem? hw) j r r' (by rw [hx]; rfl) hd
  obtain ⟨c, hc, he⟩ := hu
  rw [getElem?_modifyJob] at hc
  obtain ⟨d, -, rfl⟩ := Option.map_eq_some_iff.mp hc
  simp at he

/-- The end of a handler keeps the invariant. -/
lemma handlerStep_kept (h : Kept s) (hw : s.workers[w]? = some x) {j : String} {r : ℕ}
    (hx : x.pc = .active j r) {o : HandlerOutcome}
    (hstep : handlerStep s w x.kind j r o = some s') : Kept s' := by
  have hgo : ∀ {s₁ : State} (pc : WorkerPc), Alike s s₁ → pc.held = some j →
      pc.ref = some (j, r) → Kept (s₁.setWorker w x.kind pc) := by
    intro s₁ pc ha hheld href
    refine h.worker ha hw x.kind (by rw [hx, hheld]; rfl) fun i r' hr => .inl ?_
    rw [hx, ← hr, href]
    rfl
  cases o with
  | initialized =>
    simp only [handlerStep] at hstep
    split at hstep
    · obtain rfl := Option.some.inj hstep
      have ha : Alike s { s with created := s.created ++ [r] } :=
        ⟨rfl, rfl, rfl, rfl, rfl, le_rfl, fun _ => rfl, fun _ _ h => h⟩
      exact hgo (.produced j r s.created.length) ha rfl rfl
    · cases hstep
  | ran results =>
    simp only [handlerStep] at hstep
    split at hstep
    · obtain rfl := Option.some.inj hstep
      exact hgo _ (.refl s) rfl rfl
    · cases hstep
  | evaluated report =>
    simp only [handlerStep] at hstep
    split at hstep
    · obtain rfl := Option.some.inj hstep
      exact hgo _ (.refl s) rfl rfl
    · cases hstep
  | timeout =>
    obtain rfl := Option.some.inj hstep
    exact hgo _ (.refl s) rfl rfl
  | failed =>
    obtain rfl := Option.some.inj hstep
    exact hgo _ (.refl s) (by cases x.kind <;> rfl) (by cases x.kind <;> rfl)

/-- **A step of a worker** that meets the condition keeps the invariant. -/
lemma workerStep_kept (h : Kept s) (hw : s.workers[w]? = some x) {a : WorkerAct}
    (hcond : KeepsJobs s (.worker w a)) (hstep : workerStep s w x.kind x.pc a = some s') :
    Kept s' := by
  generalize hx : x.pc = pc at hstep
  -- A worker that goes on with its job.
  have hgo : ∀ {s₁ : State} (pc' : WorkerPc), Alike s s₁ → pc'.held = pc.held →
      pc'.ref = pc.ref → Kept (s₁.setWorker w x.kind pc') := by
    intro s₁ pc' ha hheld href
    exact h.worker ha hw x.kind (by rw [hx, hheld]) fun i r' hr => .inl (by rw [hx, ← href, hr])
  cases pc <;> cases a <;> simp only [workerStep, reduceCtorEq] at hstep
  case waiting.go =>
    split at hstep
    · cases hstep
    · obtain rfl := Option.some.inj hstep
      exact h.dequeue hw hx ‹_›
  case got.go j =>
    split at hstep
    · cases hstep
    · split at hstep
      · rename_i hd
        obtain rfl := Option.some.inj hstep
        exact h.drop (.refl s) hw x.kind (j := j) (by rw [hx]; rfl) rfl rfl
          fun r hr => absurd hr (by simp [hd])
      · rename_i r hd
        obtain rfl := Option.some.inj hstep
        refine h.worker (.refl s) hw x.kind (by rw [hx]; rfl) fun i r' hr => .inr ?_
        obtain ⟨rfl, rfl⟩ : j = i ∧ r = r' := by simpa [WorkerPc.ref] using hr
        exact hd
  case found.go j r =>
    split at hstep
    · rename_i hj
      obtain rfl := Option.some.inj hstep
      have hdrop : Kept (s.setWorker w x.kind .waiting) :=
        h.drop (.refl s) hw x.kind (j := j) (by rw [hx]; rfl) rfl rfl
          fun r hr => absurd hj (h.clean j r hr)
      exact hdrop.setDiscarded fun i hi => List.mem_of_mem_filter hi
    · obtain rfl := Option.some.inj hstep
      exact hgo (.active j r) (alike_setActive s _) rfl rfl
  case active.handler j r o => exact handlerStep_kept h hw hx hstep
  case produced.go j r rt =>
    obtain rfl := Option.some.inj hstep
    exact hgo _ (alike_modifyJob s r _ fun _ he => he) rfl rfl
  case produced.handler j r rt o =>
    cases o <;> simp only [reduceCtorEq] at hstep
    obtain rfl := Option.some.inj hstep
    exact hgo _ (.refl s) rfl rfl
  case ran.go j r results =>
    obtain rfl := Option.some.inj hstep
    exact hgo _ (alike_modifyJob s r _ fun _ he => he) rfl rfl
  case evaluated.go j r report =>
    obtain rfl := Option.some.inj hstep
    exact hgo _ (alike_modifyJob s r _ fun _ he => he) rfl rfl
  case timedOut.go j r =>
    obtain rfl := Option.some.inj hstep
    exact hgo _ (alike_modifyJob s r _ fun _ he => he) (by cases x.kind <;> rfl)
      (by cases x.kind <;> rfl)
  case cleanup.go j r stage success =>
    have ha := alike_closeRuntime s r stage
    split at hstep
    · obtain rfl := Option.some.inj hstep
      exact hgo _ ha rfl rfl
    · obtain rfl := Option.some.inj hstep
      exact hgo _ ha (by cases success <;> rfl) (by cases success <;> rfl)
  case handling.handled j r res =>
    cases res with
    | ok results =>
      obtain rfl := Option.some.inj hstep
      exact hgo _ (alike_modifyJob s r _ fun _ he => he) rfl rfl
    | error e => exact hcond.elim
  case putting.go j r =>
    obtain rfl := Option.some.inj hstep
    exact h.putNext hw hx _ _
  case setting.go j r =>
    obtain rfl := Option.some.inj hstep
    exact h.setEvent hw hx _
  case leaving.go j =>
    obtain rfl := Option.some.inj hstep
    exact hgo .waiting (alike_setActive s _) rfl rfl
  case crashing.go j =>
    obtain rfl := Option.some.inj hstep
    exact hgo .crashed (alike_setActive s _) rfl rfl

end Worker

/-! ## Steps of the calls -/

section Calls

variable {s s' : State} {i : ℕ} {c : Call}

/-- How a step of a call changes the number of calls before their `put`. -/
lemma inserting_setCall (hi : s.calls[i]? = some c) (pc : CallPc) (j : String) :
    (s.setCall i { c with pc := pc }).inserting j + (decide (c.id = j) && c.pc.isPut).toNat =
      s.inserting j + (decide (c.id = j) && pc.isPut).toNat :=
  Pool.countP_set_add (fun c : Call => decide (c.id = j) && c.pc.isPut) { c with pc := pc } hi

/-- A step of a call that leaves its job alone sets and clears no event. -/
lemma unset_setCall (hi : s.calls[i]? = some c) {pc : CallPc} {r : ℕ}
    (hr : (s.setCall i { c with pc := pc }).unset r) : s.unset r := by
  have hlt : i < s.calls.length := (List.getElem?_eq_some_iff.mp hi).1
  obtain ⟨d, hd, he⟩ := hr
  by_cases hir : i = r
  · subst hir
    obtain rfl : { c with pc := pc } = d := by simpa [State.setCall, hlt] using hd
    exact ⟨c, hi, he⟩
  · exact ⟨d, by simpa [State.setCall, List.getElem?_set_ne hir] using hd, he⟩

/-- A `process` call that goes on elsewhere than at its `put` changes no place. -/
lemma alike_setCall (hi : s.calls[i]? = some c) (hc : c.pc.isPut = false) {pc : CallPc}
    (hpc : pc.isPut = false) : Alike s (s.setCall i { c with pc := pc }) := by
  refine ⟨rfl, rfl, rfl, rfl, rfl, List.length_set.ge, fun j => ?_,
    fun r _ hr => unset_setCall hi hr⟩
  simpa [hc, hpc] using inserting_setCall hi pc j

/-- The insertion of a job under an id without traces keeps the invariant. -/
lemma Kept.insert (h : Kept s) (hi : s.calls[i]? = some c) (hc : c.pc = .insert)
    (hfresh : s.freshId c.id) :
    Kept { s.setCall i { c with pc := .put } with
      details := Function.update s.details c.id (some i) } := by
  obtain ⟨hstop, hdisc, hplaces, hins, hcancel⟩ := hfresh
  set s₁ := s.setCall i { c with pc := .put } with hs₁
  have hlt : i < s.calls.length := (List.getElem?_eq_some_iff.mp hi).1
  have hinserting : ∀ j, s₁.inserting j = s.inserting j + (decide (c.id = j)).toNat := by
    intro j
    have hput : c.pc.isPut = false := by rw [hc]; rfl
    simpa [hput, show CallPc.put.isPut = true from rfl] using inserting_setCall hi .put j
  have hother : ∀ j r, j ≠ c.id → Function.update s.details c.id (some i) j = some r →
      s.details j = some r := by
    intro j r hj hd
    rwa [Function.update_of_ne hj] at hd
  refine ⟨fun j => ?_, fun j r hd hu => ?_, fun j r hd hj => ?_, fun d hd hp => ?_,
    fun x hx j r r' href hd => ?_, fun j r hd => ?_, ?_⟩
  · -- The id is nowhere else.
    have := hinserting j
    by_cases hj : c.id = j
    · subst hj
      simp only [decide_true, Bool.toNat_true] at this
      have : s₁.places c.id = s.places c.id := rfl
      show s₁.places c.id + s₁.inserting c.id ≤ 1
      omega
    · have hold := h.once j
      simp only [hj, decide_false, Bool.toNat_false] at this
      have : s₁.places j = s.places j := rfl
      show s₁.places j + s₁.inserting j ≤ 1
      omega
  · have := hinserting j
    show 0 < s₁.places j + s₁.inserting j
    by_cases hj : j = c.id
    · subst hj
      simp only [decide_true, Bool.toNat_true] at this
      omega
    · have hold := h.kept j r (hother j r hj hd) (unset_setCall hi hu)
      have : s₁.places j = s.places j := rfl
      omega
  · by_cases hjc : j = c.id
    · exact hdisc (hjc ▸ hj)
    · exact h.clean j r (hother j r hjc hd) hj
  · have hne : d.id ≠ c.id := by
      intro hid
      rw [hcancel d hd hid] at hp
      exact Bool.false_ne_true hp
    show Function.update s.details c.id (some i) d.id = none
    rw [Function.update_of_ne hne]
    exact h.pending d hd hp
  · by_cases hjc : j = c.id
    · -- No worker holds the id.
      exfalso
      have hnone : s.workers.countP (fun x => x.pc.held = some c.id) = 0 := by
        unfold State.places at hplaces
        omega
      rw [List.countP_eq_zero] at hnone
      refine hnone x hx ?_
      subst hjc
      cases hpc : x.pc <;> simp [hpc, WorkerPc.ref, WorkerPc.held] at href ⊢ <;> exact href.1
    · exact h.refs x hx j r r' href (hother j r' hjc hd)
  · show r < s₁.calls.length
    rw [hs₁, State.setCall, List.length_set]
    by_cases hjc : j = c.id
    · subst hjc
      obtain rfl : i = r := by simpa using hd
      exact hlt
    · exact h.valid j r (hother j r hjc hd)
  · show Function.update s.details c.id (some i) stopSentinel = none
    rw [Function.update_of_ne (Ne.symm hstop)]
    exact h.noSentinel

/-- The `put` on the first queue keeps the invariant. -/
lemma Kept.putInit (h : Kept s) (hi : s.calls[i]? = some c) (hc : c.pc = .put) :
    Kept ((s.enqueue .init c.id).setCall i { c with pc := .waiting }) := by
  set s₁ := (s.enqueue .init c.id).setCall i { c with pc := .waiting } with hs₁
  have hsum : ∀ j, s₁.places j + s₁.inserting j = s.places j + s.inserting j := by
    intro j
    have hins : s₁.inserting j + (decide (c.id = j) && c.pc.isPut).toNat =
        s.inserting j + (decide (c.id = j) && CallPc.waiting.isPut).toNat :=
      inserting_setCall hi .waiting j
    simp only [hc, CallPc.isPut, Bool.and_true, Bool.and_false, Bool.toNat_false] at hins
    have hplaces : s₁.places j = s.places j + (decide (c.id = j)).toNat :=
      places_enqueue s .init c.id j
    omega
  refine h.of_step (fun j => (hsum j).le) (fun j _ _ _ => (hsum j).ge) (fun _ _ hd => hd)
    List.length_set.ge (fun r _ hr => unset_setCall hi hr) (fun _ _ _ hj => hj) h.pending
    fun x hx j r href => .inl ⟨x, hx, href⟩

/-- **A step of a `process` call** that meets the condition keeps the invariant. -/
lemma callStep_kept (h : Kept s) (hi : s.calls[i]? = some c)
    {p : Except PyError PartialResult} (hfresh : c.pc.isInsert = true → s.freshId c.id)
    (hstep : callStep s i c p c.pc = some s') : Kept s' := by
  generalize hpc : c.pc = pc at hstep
  have hgo : ∀ pc' : CallPc, pc.isPut = false → pc'.isPut = false →
      Kept (s.setCall i { c with pc := pc' }) :=
    fun pc' h₁ h₂ => h.of_alike (alike_setCall hi (by rw [hpc, h₁]) h₂)
  cases pc with
  | insert =>
    simp only [callStep] at hstep
    split at hstep
    · cases hstep
    · obtain rfl := Option.some.inj hstep
      exact h.insert hi hpc (hfresh (by rw [hpc]; rfl))
  | put =>
    obtain rfl := Option.some.inj hstep
    exact h.putInit hi hpc
  | waiting =>
    simp only [callStep] at hstep
    split at hstep
    · split at hstep <;> obtain rfl := Option.some.inj hstep
      · exact hgo _ rfl rfl
      · exact hgo _ rfl rfl
    · cases hstep
  | check result =>
    obtain rfl := Option.some.inj hstep
    exact hgo _ rfl (by split <;> rfl)
  | close result =>
    obtain rfl := Option.some.inj hstep
    exact (hgo (.delete result) rfl rfl).of_alike
      ⟨rfl, rfl, rfl, rfl, rfl, le_rfl, fun _ => rfl, fun _ _ h => h⟩
  | delete result =>
    simp only [callStep] at hstep
    split at hstep
    · cases hstep
    · split at hstep <;> obtain rfl := Option.some.inj hstep
      · exact hgo _ rfl rfl
      · exact (hgo (.returned result) rfl rfl).erase c.id
  | returned result => cases hstep
  | raised e => cases hstep

/-- A cancellation that goes on keeps the invariant. -/
lemma Kept.setCancel (h : Kept s) (ha : Alike s s') (k : ℕ) {d : Cancel}
    (hd : d.pc.isDiscard = true → s.details d.id = none) : Kept (s'.setCancel k d) := by
  have h' := h.of_alike ha
  refine ⟨h'.once, h'.kept, h'.clean, fun e he hp => ?_, h'.refs, h'.valid, h'.noSentinel⟩
  rcases List.mem_or_eq_of_mem_set he with he | rfl
  · exact h'.pending e he hp
  · rw [show (s'.setCancel k e).details = s.details from ha.details]
    exact hd hp

/-- The lock plays no part. -/
lemma Kept.setLock (h : Kept s) (b : Bool) : Kept { s with detailsLocked := b } :=
  h.of_alike ⟨rfl, rfl, rfl, rfl, rfl, le_rfl, fun _ => rfl, fun _ _ h => h⟩

/-- **A step of a `cancel_job` call** keeps the invariant. -/
lemma cancelStep_kept (h : Kept s) {k : ℕ} {d : Cancel} (hk : s.cancels[k]? = some d)
    (hstep : cancelStep s k d d.pc = some s') : Kept s' := by
  generalize hpc : d.pc = pc at hstep
  have hgo : ∀ {s₁ : State} (d' : Cancel), Alike s s₁ → d'.pc.isDiscard = false →
      Kept (s₁.setCancel k d') :=
    fun d' ha hd' => h.setCancel ha k fun hd => absurd hd (by simp [hd'])
  cases pc with
  | check =>
    simp only [cancelStep] at hstep
    split at hstep
    · split at hstep <;> obtain rfl := Option.some.inj hstep
      · exact hgo _ (.refl s) rfl
      · exact hgo _ (.refl s) rfl
    · obtain rfl := Option.some.inj hstep
      exact hgo _ (.refl s) rfl
  | lock =>
    simp only [cancelStep] at hstep
    split at hstep
    · cases hstep
    · obtain rfl := Option.some.inj hstep
      refine (hgo _ (.refl s) ?_).setLock true
      dsimp only
      split <;> rfl
  | flag r =>
    obtain rfl := Option.some.inj hstep
    exact hgo _ (alike_modifyJob s r _ fun _ he => he) rfl
  | signal r =>
    obtain rfl := Option.some.inj hstep
    exact hgo _ (alike_modifyJob s r _ fun _ he => absurd he (by simp)) rfl
  | cleanup r stage =>
    have ha := alike_closeRuntime s r stage
    simp only [cancelStep] at hstep
    split at hstep <;> obtain rfl := Option.some.inj hstep
    · exact hgo _ ha rfl
    · exact hgo _ ha rfl
  | delete =>
    simp only [cancelStep] at hstep
    split at hstep <;> obtain rfl := Option.some.inj hstep
    · -- The entry is gone when the call comes to mark the id.
      have herase := h.erase d.id
      exact (herase.setCancel (.refl _) k (d := { d with pc := .discard }) fun _ => by
        simp).setLock false
    · exact (hgo { d with pc := .raised (.keyError d.id) } (.refl s) rfl).setLock false
  | discard =>
    obtain rfl := Option.some.inj hstep
    have hnone := h.pending d (List.mem_of_getElem? hk) (by rw [hpc]; rfl)
    have h' : Kept ({ s with
        active := fun kind => discardFrom (s.active kind) d.id }.setCancel k
          { d with pc := .done }) := hgo _ (alike_setActive s _) rfl
    refine ⟨h'.once, h'.kept, fun j r hd hj => ?_, h'.pending, h'.refs, h'.valid, h'.noSentinel⟩
    have hj' : j ∈ s.discarded ∨ j = d.id := by
      have hmem : j ∈ addTo s.discarded d.id := hj
      unfold addTo at hmem
      split at hmem
      · exact .inl hmem
      · simpa using hmem
    rcases hj' with hj' | rfl
    · exact h.clean j r hd hj'
    · exact absurd (show s.details d.id = some r from hd) (by simp [hnone])
  | done => cases hstep
  | raised e => cases hstep

end Calls

/-! ## Runs -/

section Runs

variable {max : JobType → ℕ} {s s' : State}

/-- The begin of a `process` call keeps the invariant. -/
lemma Kept.submit (h : Kept s) (j : String) (inst : ResultDict) :
    Kept { s with calls := s.calls ++ [newCall s j inst] } := by
  refine h.of_alike ⟨rfl, rfl, rfl, rfl, rfl, by simp, fun i => ?_, fun r hr hu => ?_⟩
  · have hput : (newCall s j inst).pc.isPut = false := by
      unfold newCall
      dsimp only
      split <;> rfl
    unfold State.inserting
    simp [List.countP_append, hput]
  · obtain ⟨c, hc, he⟩ := hu
    exact ⟨c, by rwa [List.getElem?_append_left hr] at hc, he⟩

/-- **The step lemma**: a step that meets the condition keeps the invariant. -/
theorem step_kept {l : Label} (h : Kept s) (hcond : KeepsJobs s l)
    (hstep : step max s l = some s') : Kept s' := by
  cases l with
  | submit j inst =>
    obtain rfl := Option.some.inj hstep
    exact h.submit j inst
  | call i p =>
    obtain ⟨c, hc, hstep⟩ := Option.bind_eq_some_iff.mp hstep
    exact callStep_kept h hc (hcond c hc) hstep
  | worker w a =>
    obtain ⟨x, hx, hstep⟩ := Option.bind_eq_some_iff.mp hstep
    exact workerStep_kept h hx hcond hstep
  | cancelBegin j =>
    obtain rfl := Option.some.inj hstep
    refine ⟨h.once, h.kept, h.clean, fun c hc hp => ?_, h.refs, h.valid, h.noSentinel⟩
    rcases List.mem_append.mp hc with hc | hc
    · exact h.pending c hc hp
    · obtain rfl := List.mem_singleton.mp hc
      cases hp
  | cancel k =>
    obtain ⟨d, hd, hstep⟩ := Option.bind_eq_some_iff.mp hstep
    exact cancelStep_kept h hd hstep
  | stopBegin => exact hcond.elim
  | stop k n => exact hcond.elim
  | start => exact hcond.elim

/-- The invariant holds after the start of the server. -/
lemma kept_initState (max : JobType → ℕ) : Kept (initState max) := by
  have hidle : ∀ x ∈ newWorkers max, x.pc = .waiting := by
    intro x hx
    simp only [newWorkers, List.mem_append, List.mem_replicate] at hx
    rcases hx with (⟨-, rfl⟩ | ⟨-, rfl⟩) | ⟨-, rfl⟩ <;> rfl
  refine ⟨fun j => ?_, fun j r hd => ?_, fun j r hd => ?_, fun c hc => ?_,
    fun x hx j r r' href => ?_, fun j r hd => ?_, rfl⟩
  · have hnone : (newWorkers max).countP (fun x => x.pc.held = some j) = 0 := by
      rw [List.countP_eq_zero]
      intro x hx
      simp [hidle x hx, WorkerPc.held]
    simp [State.places, State.inserting, initState, hnone]
  · cases hd
  · cases hd
  · cases hc
  · rw [hidle x hx] at href
    cases href
  · cases hd

/-- **No job is lost**: in every run of `process`, `cancel_job` and the workers whose steps all
meet the condition, over any number of submissions, every job with an entry and an unset event is
at exactly one place in every state that is reached, and no worker drops it as discarded. -/
theorem jobsKept_of_keepsJobs (max : JobType → ℕ) (ls : List Label) (s : State)
    (hrun : Machine.run (Machine.guarded (step max) KeepsJobs) (initState max) ls = some s) :
    s.JobsKept := by
  have hinv : Kept s := by
    refine Machine.run_invariant Kept (fun s l s' h hstep => ?_) (kept_initState max) hrun
    obtain ⟨hcond, hstep⟩ := Machine.guarded_eq_some.mp hstep
    exact step_kept h hcond hstep
  exact hinv.jobsKept

end Runs

/-! ## A job that is submitted again -/

/-- One worker of each kind. -/
def oneWorker : JobType → ℕ := fun _ => 1

/-- The next step of the first call, whose partial result is empty. -/
def callGo (i : ℕ) : Label := .call i (.ok ⟨.list [], .list [], .bool true⟩)

/-- A call begins and puts its job on the first queue. -/
def submitJob (i : ℕ) : List Label := [.submit "a" Dict.empty, callGo i, callGo i]

/-- A whole `cancel_job` call for a job without a runtime. -/
def cancelJob (k : ℕ) : List Label :=
  [.cancelBegin "a", .cancel k, .cancel k, .cancel k, .cancel k, .cancel k, .cancel k, .cancel k]

/-- A job is cancelled before a worker takes it and is submitted again under its id, when the
worker has taken the stale id off the queue. -/
def resubmitted : List Label :=
  submitJob 0 ++ cancelJob 0 ++ [Label.worker 0 .go, .worker 0 .go] ++ submitJob 1

/-- The job that is submitted again is dropped as discarded: its entry is there, its event is
unset, and its id is nowhere. -/
theorem not_jobsKept_resubmitted :
    ∃ s, Machine.run (step oneWorker) (initState oneWorker)
        (resubmitted ++ [Label.worker 0 .go, .worker 0 .go, .worker 0 .go]) = some s ∧
      s.details "a" = some 1 ∧ s.unset 1 ∧ s.places "a" + s.inserting "a" = 0 ∧
      ¬ s.JobsKept := by
  obtain ⟨s, hrun, hd, hu, hp⟩ : ∃ s, Machine.run (step oneWorker) (initState oneWorker)
      (resubmitted ++ [Label.worker 0 .go, .worker 0 .go, .worker 0 .go]) = some s ∧
      s.details "a" = some 1 ∧ s.unset 1 ∧ s.places "a" + s.inserting "a" = 0 :=
    ⟨_, rfl, rfl, ⟨_, rfl, rfl⟩, by decide⟩
  refine ⟨s, hrun, hd, hu, hp, fun hkept => ?_⟩
  have := (hkept "a" 1 hd hu).1
  omega

/-- A job is cancelled while the worker has found it, so the mark is taken away again; then the id
is submitted once more. -/
def resubmittedClean : List Label :=
  submitJob 0 ++ [Label.worker 0 .go, .worker 0 .go] ++ cancelJob 0 ++ [Label.worker 0 .go] ++
    submitJob 1

theorem jobsKept_resubmittedClean :
    ∃ s, Machine.run (Machine.guarded (step oneWorker) KeepsJobs) (initState oneWorker)
        resubmittedClean = some s ∧
      s.details "a" = some 1 ∧ s.unset 1 ∧ s.JobsKept := by
  obtain ⟨s, hrun, hd, hu⟩ : ∃ s, Machine.run (Machine.guarded (step oneWorker) KeepsJobs)
      (initState oneWorker) resubmittedClean = some s ∧ s.details "a" = some 1 ∧ s.unset 1 :=
    ⟨_, rfl, rfl, _, rfl, rfl⟩
  exact ⟨s, hrun, hd, hu, jobsKept_of_keepsJobs oneWorker resubmittedClean s hrun⟩

end ProRLAgent.ThreadedServer
