import Mathlib.Data.List.Basic
import Mathlib.Logic.Function.Basic
import ProRLAgent.Lib.Machine
import ProRLAgent.Lib.Pool
import ProRLAgent.Api.Server

set_option relaxedAutoImplicit false
set_option autoImplicit false

/-!
# Results and the futures of their requests

The map `result_futures` has one entry per job id, and the listener, the callback of a done future
and the two ends of a failed `/process` call pop it by the id. With an id that is used twice they
find whichever future stands there: a late result of the first call resolves the future of the
second one, and the end of the first call removes and cancels it.

The map is safe when a call takes an id only after everything of the earlier calls with that id is
over: the calls themselves, their requests, their jobs and the results of these. Then at any time at
most one call of an id is active, and whoever pops the entry of the id acts for that call.

## Main definitions

* `ApiServer.State.FuturesKept` — the property.
* `ApiServer.State.Active` — a call of which something is still under way.
* `ApiServer.TakesFreeId` — the condition on a step.
* `ApiServer.State.Separate` — the invariant.

## Main results

* `ApiServer.step_separate` — a step that meets the condition keeps the invariant.
* `ApiServer.futuresKept_of_takesFreeId` — the property along runs that meet the condition.
* `ApiServer.not_futuresKept_reused` — a late result that resolves another call's future.
-/

namespace ProRLAgent.ApiServer

variable {ρ : Type}

/-- **A result reaches its own request**: a result message resolves the future of the call that it
is for, and no call removes or cancels the future, the entry or the job of another one. -/
structure State.FuturesKept (s : State ρ) : Prop where
  resolved : ∀ x ∈ s.resolved, x.1 = x.2
  removed : ∀ x ∈ s.removed, x.1 = x.2

/-! ## The condition -/

/-- The call awaits its future. -/
def CallPc.isWaiting : CallPc ρ → Bool
  | .waiting => true
  | _ => false

/-- The call is over. -/
def CallPc.isOver : CallPc ρ → Bool
  | .waiting | .waking => false
  | _ => true

/-- What the map of the futures depends on in a call. -/
structure CallSig where
  jobId : JobId
  waiting : Bool
  isOver : Bool
  deriving DecidableEq

def ProcessCall.sig (c : ProcessCall ρ) : CallSig := ⟨c.jobId, c.pc.isWaiting, c.pc.isOver⟩

def State.sigs (s : State ρ) : List CallSig := s.calls.map ProcessCall.sig

/-- The call that has sent a request, with the job id of the request. -/
def Request.sentBy? : Request → Option (ℕ × JobId)
  | .process jobId call => some (call, jobId)
  | .cancel jobId _ (some i) => some (i, jobId)
  | _ => none

/-- The child has a request or an unfinished job of call `i`. -/
def Child.Busy (d : Child) (i : ℕ) : Prop :=
  (∃ r ∈ d.requests, r.sentBy?.any (fun x => x.1 = i) = true) ∨
    ∃ job ∈ d.jobs, job.call = i ∧ job.pc ≠ .ended

/-- Something of call `i` is still under way: the call itself, one of its requests, its job or a
result of its job. -/
def State.Active (s : State ρ) (i : ℕ) : Prop :=
  (∃ g ∈ s.sigs[i]?, g.isOver = false) ∨ (∃ d ∈ s.child, d.Busy i) ∨
    (∃ m ∈ s.results, m.call = i) ∨ ∃ x ∈ s.handling, x.2.call = i

instance (d : Child) (i : ℕ) : Decidable (d.Busy i) := by
  unfold Child.Busy; infer_instance

instance (s : State ρ) (i : ℕ) : Decidable (s.Active i) := by
  unfold State.Active; infer_instance

/-- **The condition on a step**: a `/process` call takes an id of the client only when nothing of an
earlier call with that id is under way. -/
def TakesFreeId (s : State ρ) : Label ρ → Prop
  | .process (some id) =>
    ∀ i ∈ List.range s.sigs.length, ∀ g ∈ s.sigs[i]?, g.jobId = .client id → ¬ s.Active i
  | _ => True

instance (s : State ρ) (l : Label ρ) : Decidable (TakesFreeId s l) :=
  match l with
  | .process (some id) =>
    inferInstanceAs (Decidable (∀ i ∈ List.range s.sigs.length, ∀ g ∈ s.sigs[i]?,
      g.jobId = .client id → ¬ s.Active i))
  | .process none | .start | .stop | .status | .cancel _ | .addLlmServer _ | .clearLlmServer | .ack
  | .ackTimeout | .timeout _ | .cleanup _ | .wake _ | .listen | .resolve | .boot | .handle
  | .runJob _ | .endJob _ _ | .selectAddress | .die => inferInstanceAs (Decidable True)

/-! ## The invariant -/

/-- The id of a call. -/
def Owns (sigs : List CallSig) (i : ℕ) (jobId : JobId) : Prop :=
  ∃ g, sigs[i]? = some g ∧ g.jobId = jobId

/-- What the child has is under the ids of the calls that it belongs to. -/
structure Child.OwnedBy (sigs : List CallSig) (d : Child) : Prop where
  requests : ∀ r ∈ d.requests, ∀ x, r.sentBy? = some x → Owns sigs x.1 x.2
  jobs : ∀ job ∈ d.jobs, Owns sigs job.call job.jobId
  submitted : ∀ jobId n, d.submitted jobId = some n →
    ∃ job, d.jobs[n]? = some job ∧ job.jobId = jobId

/-- **The invariant**: at most one call of an id is active, the entries of the map and everything
that is under way stand under the ids of their calls, and nothing has gone to another call. -/
structure State.Separate (s : State ρ) : Prop where
  one : ∀ i k jobId, Owns s.sigs i jobId → Owns s.sigs k jobId → s.Active i → s.Active k → i = k
  futures : ∀ jobId k, s.futures jobId = some k →
    ∃ g, s.sigs[k]? = some g ∧ g.jobId = jobId ∧ g.waiting = true ∧ g.isOver = false
  child : ∀ d, s.child = some d → d.OwnedBy s.sigs
  results : ∀ m ∈ s.results, Owns s.sigs m.call m.jobId
  handling : ∀ x ∈ s.handling, x.1 = x.2.call
  uuids : ∀ i n, Owns s.sigs i (.uuid n) → n < s.nextUuid
  kept : s.FuturesKept

section Steps

variable {s s' : State ρ} {d : Child} {i : ℕ} {c c' : ProcessCall ρ}

/-! ### Calls and their signatures -/

/-- The signature of a call. -/
lemma getElem?_sigs (hi : s.calls[i]? = some c) : s.sigs[i]? = some c.sig := by
  rw [State.sigs, List.getElem?_map, hi]
  rfl

/-- A change of a call that its signature does not show. -/
lemma sigs_set_of_sig_eq (hi : s.calls[i]? = some c) (hsig : c'.sig = c.sig) :
    (s.calls.set i c').map ProcessCall.sig = s.sigs := by
  refine List.ext_getElem? fun k => ?_
  by_cases hk : i = k
  · subst hk
    have hlt : i < s.calls.length := (List.getElem?_eq_some_iff.mp hi).1
    rw [List.getElem?_map, List.getElem?_set_self hlt, getElem?_sigs hi, Option.map_some, hsig]
  · rw [List.getElem?_map, List.getElem?_set_ne hk, State.sigs, List.getElem?_map]

/-- Changes of the futures of calls are not in their signatures. -/
lemma map_sig_mapIdx (calls : List (ProcessCall ρ)) (f : ℕ → ProcessCall ρ → ProcessCall ρ)
    (hf : ∀ i c, (f i c).sig = c.sig) :
    (calls.mapIdx f).map ProcessCall.sig = calls.map ProcessCall.sig := by
  refine List.ext_getElem? fun k => ?_
  rw [List.getElem?_map, List.getElem?_mapIdx, List.getElem?_map, Option.map_map]
  cases calls[k]? with
  | none => rfl
  | some c => exact congrArg some (hf k c)

/-- The same for one call. -/
lemma map_sig_modify (calls : List (ProcessCall ρ)) (k : ℕ) (f : ProcessCall ρ → ProcessCall ρ)
    (hf : ∀ c, (f c).sig = c.sig) :
    (calls.modify k f).map ProcessCall.sig = calls.map ProcessCall.sig := by
  refine List.ext_getElem? fun j => ?_
  rw [List.getElem?_map, List.getElem?_modify, List.getElem?_map]
  cases calls[j]? with
  | none => rfl
  | some c =>
    by_cases hj : k = j
    · simp [hj, hf]
    · simp [hj]

/-- A call keeps its id when it moves on. -/
lemma owns_set {gs : List CallSig} {g g' : CallSig} (hi : gs[i]? = some g)
    (hid : g'.jobId = g.jobId) (k : ℕ) (jobId : JobId) :
    Owns (gs.set i g') k jobId ↔ Owns gs k jobId := by
  have hlt : i < gs.length := (List.getElem?_eq_some_iff.mp hi).1
  by_cases hk : i = k
  · subst hk
    simp [Owns, List.getElem?_set_self hlt, hi, hid]
  · simp [Owns, List.getElem?_set_ne hk]

/-! ### What the invariant says about the parts of a state -/

/-- What the child has belongs to active calls. -/
lemma State.Separate.child_kept (h : s.Separate) :
    ∀ d, s.child = some d → d.OwnedBy s.sigs ∧ ∀ i, d.Busy i → s.Active i :=
  fun d hd => ⟨h.child d hd, fun _ hbusy => .inr (.inl ⟨d, hd, hbusy⟩)⟩

/-- The results belong to active calls. -/
lemma State.Separate.results_kept (h : s.Separate) :
    ∀ m ∈ s.results, s.Active m.call ∧ Owns s.sigs m.call m.jobId :=
  fun m hm => ⟨.inr (.inr (.inl ⟨m, hm, rfl⟩)), h.results m hm⟩

/-- What the listener has popped belongs to active calls. -/
lemma State.Separate.handling_kept (h : s.Separate) :
    ∀ x ∈ s.handling, s.Active x.2.call ∧ x.1 = x.2.call :=
  fun x hx => ⟨.inr (.inr (.inr ⟨x, hx, rfl⟩)), h.handling x hx⟩

/-- Whoever acts for an active call finds the entry of that call, or none. -/
lemma State.Separate.entry_eq (h : s.Separate) {jobId : JobId} (howns : Owns s.sigs i jobId)
    (hactive : s.Active i) {k : ℕ} (hk : s.futures jobId = some k) : i = k := by
  obtain ⟨g, hg, hid, -, hover⟩ := h.futures jobId k hk
  exact h.one i k jobId howns ⟨g, hg, hid⟩ hactive (.inl ⟨g, hg, hover⟩)

/-- **A step that starts no call** keeps the invariant when everything under way belongs to calls
that were active before. -/
lemma State.Separate.carry (h : s.Separate)
    (howns : ∀ i jobId, Owns s'.sigs i jobId ↔ Owns s.sigs i jobId)
    (hover : ∀ i : ℕ, (∃ g ∈ s'.sigs[i]?, g.isOver = false) → ∃ g ∈ s.sigs[i]?, g.isOver = false)
    (hfutures : ∀ jobId k, s'.futures jobId = some k →
      s.futures jobId = some k ∧ s'.sigs[k]? = s.sigs[k]?)
    (hchild : ∀ d, s'.child = some d → d.OwnedBy s.sigs ∧ ∀ i, d.Busy i → s.Active i)
    (hresults : ∀ m ∈ s'.results, s.Active m.call ∧ Owns s.sigs m.call m.jobId)
    (hhandling : ∀ x ∈ s'.handling, s.Active x.2.call ∧ x.1 = x.2.call)
    (huuid : s.nextUuid ≤ s'.nextUuid) (hkept : s'.FuturesKept) : s'.Separate := by
  have hactive : ∀ i, s'.Active i → s.Active i := by
    rintro i (hi | ⟨d, hd, hbusy⟩ | ⟨m, hm, rfl⟩ | ⟨x, hx, rfl⟩)
    · exact .inl (hover i hi)
    · exact (hchild d hd).2 i hbusy
    · exact (hresults m hm).1
    · exact (hhandling x hx).1
  refine ⟨fun i k jobId hi hk hai hak => ?_, fun jobId k hk => ?_, fun d hd => ?_, fun m hm => ?_,
    fun x hx => (hhandling x hx).2, fun i n hi => ?_, hkept⟩
  · exact h.one i k jobId ((howns i jobId).mp hi) ((howns k jobId).mp hk) (hactive i hai)
      (hactive k hak)
  · obtain ⟨hold, hsig⟩ := hfutures jobId k hk
    obtain ⟨g, hg, hrest⟩ := h.futures jobId k hold
    exact ⟨g, hsig.trans hg, hrest⟩
  · obtain ⟨hrequests, hjobs, hsubmitted⟩ := (hchild d hd).1
    exact ⟨fun r hr x hx => (howns _ _).mpr (hrequests r hr x hx),
      fun job hjob => (howns _ _).mpr (hjobs job hjob), hsubmitted⟩
  · exact (howns _ _).mpr (hresults m hm).2
  · exact Nat.lt_of_lt_of_le (h.uuids i n ((howns i _).mp hi)) huuid

/-- A step that leaves the signatures of the calls as they are. -/
lemma State.Separate.carry_same (h : s.Separate) (hsigs : s'.sigs = s.sigs)
    (hfutures : ∀ jobId k, s'.futures jobId = some k → s.futures jobId = some k)
    (hchild : ∀ d, s'.child = some d → d.OwnedBy s.sigs ∧ ∀ i, d.Busy i → s.Active i)
    (hresults : ∀ m ∈ s'.results, s.Active m.call ∧ Owns s.sigs m.call m.jobId)
    (hhandling : ∀ x ∈ s'.handling, s.Active x.2.call ∧ x.1 = x.2.call)
    (huuid : s.nextUuid ≤ s'.nextUuid) (hkept : s'.FuturesKept) : s'.Separate := by
  refine h.carry (fun i jobId => by rw [hsigs]) (fun i hi => by rwa [hsigs] at hi)
    (fun jobId k hk => ⟨hfutures jobId k hk, by rw [hsigs]⟩) hchild hresults hhandling huuid hkept

/-- An entry that is left in the map was there before. -/
lemma futures_update_none {futures : JobId → Option ℕ} {jobId jobId' : JobId} {k : ℕ}
    (h : Function.update futures jobId none jobId' = some k) : futures jobId' = some k := by
  by_cases hj : jobId' = jobId
  · subst hj
    rw [Function.update_self] at h
    cases h
  · rwa [Function.update_of_ne hj] at h

/-- One more removal on behalf of the call that it belongs to. -/
lemma State.FuturesKept.remove (h : s.FuturesKept) (hresolved : s'.resolved = s.resolved)
    {x : ℕ × ℕ} (hx : x.1 = x.2) (hremoved : s'.removed = s.removed ++ [x]) : s'.FuturesKept := by
  refine ⟨fun y hy => h.resolved y (hresolved ▸ hy), fun y hy => ?_⟩
  rw [hremoved] at hy
  rcases List.mem_append.mp hy with hy | hy
  · exact h.removed y hy
  · rw [List.mem_singleton.mp hy]
    exact hx

/-! ### The listener -/

/-- A step of the listener keeps the invariant. -/
lemma listenerStep_separate (h : s.Separate) {l : Label ρ} (hstep : s.listenerStep l = some s') :
    s'.Separate := by
  cases l <;> simp only [State.listenerStep, reduceCtorEq] at hstep
  case listen =>
    split at hstep
    · cases hstep
    · rename_i m results hm
      have hhead : m ∈ s.results := by rw [hm]; exact List.mem_cons_self
      have htail : ∀ m' ∈ results, m' ∈ s.results := fun m' hm' => by
        rw [hm]
        exact List.mem_cons_of_mem _ hm'
      split at hstep
      · obtain rfl := Option.some.inj hstep
        exact h.carry_same rfl (fun _ _ hk => hk) h.child_kept
          (fun m' hm' => h.results_kept m' (htail m' hm')) h.handling_kept (Nat.le_refl _)
          { h.kept with }
      · rename_i k hk
        obtain rfl := Option.some.inj hstep
        -- The entry under the id of the message is that of its own call.
        obtain ⟨hactive, howns⟩ := h.results_kept m hhead
        have heq : m.call = k := h.entry_eq howns hactive hk
        refine h.carry_same rfl (fun _ _ hk' => futures_update_none hk') h.child_kept
          (fun m' hm' => h.results_kept m' (htail m' hm')) (fun x hx => ?_) (Nat.le_refl _)
          (h.kept.remove rfl heq rfl)
        rcases List.mem_append.mp hx with hx | hx
        · exact h.handling_kept x hx
        · rw [List.mem_singleton.mp hx]
          exact ⟨hactive, heq.symm⟩
  case resolve =>
    split at hstep
    · cases hstep
    · rename_i k m handling hx
      obtain ⟨c, hc, rfl⟩ := Option.map_eq_some_iff.mp hstep
      have hhead : (k, m) ∈ s.handling := by rw [hx]; exact List.mem_cons_self
      have htail : ∀ x ∈ handling, s.Active x.2.call ∧ x.1 = x.2.call := fun x hx' =>
        h.handling_kept x (by rw [hx]; exact List.mem_cons_of_mem _ hx')
      split
      · exact h.carry_same rfl (fun _ _ hk => hk) h.child_kept h.results_kept htail (Nat.le_refl _)
          { h.kept with }
      · refine h.carry_same (sigs_set_of_sig_eq hc rfl) (fun _ _ hk => hk) h.child_kept
          h.results_kept htail (Nat.le_refl _) ⟨fun y hy => ?_, h.kept.removed⟩
        rcases List.mem_append.mp hy with hy | hy
        · exact h.kept.resolved y hy
        · rw [List.mem_singleton.mp hy]
          exact h.handling (k, m) hhead

/-! ### The child -/

/-- A request that belongs to no call. -/
lemma Child.OwnedBy.put {gs : List CallSig} (h : d.OwnedBy gs) {r : Request}
    (hr : ∀ x, r.sentBy? = some x → Owns gs x.1 x.2) : (d.put r).OwnedBy gs := by
  refine ⟨fun r' hr' => ?_, h.jobs, h.submitted⟩
  rcases List.mem_append.mp hr' with hr' | hr'
  · exact h.requests r' hr'
  · rw [List.mem_singleton.mp hr']
    exact hr

/-- What the child is busy with after one more request. -/
lemma Child.Busy.of_put {r : Request} (h : (d.put r).Busy i) :
    d.Busy i ∨ r.sentBy?.any (fun x => x.1 = i) = true := by
  rcases h with ⟨r', hr', hsent⟩ | hjob
  · rcases List.mem_append.mp hr' with hr' | hr'
    · exact .inl (.inl ⟨r', hr', hsent⟩)
    · rw [List.mem_singleton.mp hr'] at hsent
      exact .inr hsent
  · exact .inl (.inr hjob)

/-- A job that moves on is busy only if it was. -/
lemma Child.Busy.of_set {n : ℕ} {job job' : Job} {jobs : List Job} (hn : jobs[n]? = some job)
    (h : ∃ j ∈ jobs.set n job', j.call = i ∧ j.pc ≠ .ended) (hcall : job'.call = job.call)
    (hpc : job'.pc ≠ .ended → job.pc ≠ .ended) :
    ∃ j ∈ jobs, j.call = i ∧ j.pc ≠ .ended := by
  obtain ⟨j, hj, hi, hend⟩ := h
  rcases List.mem_or_eq_of_mem_set hj with hj | rfl
  · exact ⟨j, hj, hi, hend⟩
  · exact ⟨job, List.mem_of_getElem? hn, hcall.symm.trans hi, hpc hend⟩

/-- A job that moves on stays under its id. -/
lemma Child.OwnedBy.set_job {gs : List CallSig} (h : d.OwnedBy gs) {n : ℕ} {job job' : Job}
    (hn : d.jobs[n]? = some job) (hid : job'.jobId = job.jobId) (hcall : job'.call = job.call) :
    Child.OwnedBy gs { d with jobs := d.jobs.set n job' } := by
  refine ⟨h.requests, fun j hj => ?_, fun jobId m hm => ?_⟩
  · rcases List.mem_or_eq_of_mem_set hj with hj | rfl
    · exact h.jobs j hj
    · rw [hid, hcall]
      exact h.jobs job (List.mem_of_getElem? hn)
  · obtain ⟨j, hj, hjid⟩ := h.submitted jobId m hm
    by_cases hnm : n = m
    · subst hnm
      obtain rfl := Option.some.inj (hn.symm.trans hj)
      exact ⟨job', List.getElem?_set_self (List.getElem?_eq_some_iff.mp hn).1, hid.trans hjid⟩
    · exact ⟨j, (List.getElem?_set_ne hnm).trans hj, hjid⟩

/-- Handling a request keeps everything under the ids of its calls. -/
lemma Child.OwnedBy.handle {gs : List CallSig} (h : d.OwnedBy gs) (heap : List (ℕ × String))
    {r : Request} {requests : List Request} (hrequests : d.requests = r :: requests) :
    (Child.handle { d with requests := requests } heap r).1.OwnedBy gs := by
  have hrest : ∀ r' ∈ requests, ∀ x, r'.sentBy? = some x → Owns gs x.1 x.2 := fun r' hr' =>
    h.requests r' (by rw [hrequests]; exact List.mem_cons_of_mem _ hr')
  cases r with
  | process jobId call =>
    have hown : Owns gs call jobId :=
      h.requests (.process jobId call) (by rw [hrequests]; exact List.mem_cons_self) (call, jobId)
        rfl
    refine ⟨hrest, fun job hjob => ?_, fun id n hn => ?_⟩
    · rcases List.mem_append.mp hjob with hjob | hjob
      · exact h.jobs job hjob
      · rw [List.mem_singleton.mp hjob]
        exact hown
    · change Function.update d.submitted jobId (some d.jobs.length) id = some n at hn
      show ∃ job, (d.jobs ++ [⟨jobId, call, .queued⟩])[n]? = some job ∧ job.jobId = id
      by_cases hid : id = jobId
      · subst hid
        rw [Function.update_self] at hn
        obtain rfl := Option.some.inj hn
        exact ⟨_, List.getElem?_concat_length, rfl⟩
      · rw [Function.update_of_ne hid] at hn
        obtain ⟨job, hjob, hjid⟩ := h.submitted id n hn
        exact ⟨job, (List.getElem?_append_left (List.getElem?_eq_some_iff.mp hjob).1).trans hjob,
          hjid⟩
  | cancel jobId requestId sender =>
    simp only [Child.handle]
    split
    · exact ⟨hrest, h.jobs, h.submitted⟩
    · rename_i n job hn
      obtain ⟨m, hm, hjob⟩ := Option.bind_eq_some_iff.mp hn
      obtain ⟨job', hjob', heq⟩ := Option.map_eq_some_iff.mp hjob
      obtain ⟨rfl, rfl⟩ := Prod.mk.inj heq
      -- The entry of the id is popped, and the job may end.
      have hpopped : ∀ {jobs : List Job}, Child.OwnedBy gs { d with jobs := jobs } →
          Child.OwnedBy gs { d with
            requests := requests
            acks := d.acks ++ [⟨.cancel, requestId⟩]
            submitted := Function.update d.submitted jobId none
            jobs := jobs } := by
        intro jobs hjobs
        refine ⟨hrest, hjobs.jobs, fun id k hk => hjobs.submitted id k ?_⟩
        exact futures_update_none hk
      split
      · exact hpopped (h.set_job hjob' rfl rfl)
      · exact hpopped h
  | addLlmServer address requestId => exact ⟨hrest, h.jobs, h.submitted⟩
  | clearLlmServer requestId => exact ⟨hrest, h.jobs, h.submitted⟩
  | status requestId => exact ⟨hrest, h.jobs, h.submitted⟩
  | stop requestId =>
    refine ⟨hrest, fun job hjob => ?_, fun id n hn => (by cases hn)⟩
    obtain ⟨n, hn, rfl⟩ := List.mem_mapIdx.mp hjob
    have hold := h.jobs d.jobs[n] (List.getElem_mem hn)
    dsimp only
    split
    · exact hold
    · exact hold

/-- Handling a request makes the child busy with no other call. -/
lemma Child.Busy.of_handle {heap : List (ℕ × String)} {r : Request} {requests : List Request}
    (hrequests : d.requests = r :: requests)
    (h : (Child.handle { d with requests := requests } heap r).1.Busy i) : d.Busy i := by
  have hrest : (∃ r' ∈ requests, r'.sentBy?.any (fun x => x.1 = i) = true) → d.Busy i := by
    rintro ⟨r', hr', hsent⟩
    exact .inl ⟨r', by rw [hrequests]; exact List.mem_cons_of_mem _ hr', hsent⟩
  cases r with
  | process jobId call =>
    rcases h with h | ⟨job, hjob, hcall, hpc⟩
    · exact hrest h
    · rcases List.mem_append.mp hjob with hjob | hjob
      · exact .inr ⟨job, hjob, hcall, hpc⟩
      · -- The request has become a job of the same call.
        refine .inl ⟨.process jobId call, by rw [hrequests]; exact List.mem_cons_self, ?_⟩
        rw [List.mem_singleton.mp hjob] at hcall
        exact decide_eq_true hcall
  | cancel jobId requestId sender =>
    simp only [Child.handle] at h
    split at h
    · exact h.elim hrest .inr
    · rename_i n job hn
      obtain ⟨m, hm, hjob⟩ := Option.bind_eq_some_iff.mp hn
      obtain ⟨job', hjob', heq⟩ := Option.map_eq_some_iff.mp hjob
      obtain ⟨rfl, rfl⟩ := Prod.mk.inj heq
      rcases h with h | h
      · exact hrest h
      · dsimp only at h
        split at h
        · exact .inr (Child.Busy.of_set hjob' h rfl fun hend => absurd rfl hend)
        · exact .inr h
  | addLlmServer address requestId => exact h.elim hrest .inr
  | clearLlmServer requestId => exact h.elim hrest .inr
  | status requestId => exact h.elim hrest .inr
  | stop requestId =>
    rcases h with h | ⟨job, hjob, hcall, hpc⟩
    · exact hrest h
    · obtain ⟨n, hn, rfl⟩ := List.mem_mapIdx.mp hjob
      refine .inr ⟨d.jobs[n], List.getElem_mem hn, ?_⟩
      dsimp only at hcall hpc
      split at hcall
      · rename_i hif
        rw [if_pos hif] at hpc
        exact absurd rfl hpc
      · rename_i hif
        rw [if_neg hif] at hpc
        exact ⟨hcall, hpc⟩

/-- A job that the child cancels on behalf of a call is the job of that call. -/
lemma State.Separate.handle_own (h : s.Separate) (hd : s.child = some d) {heap : List (ℕ × String)}
    {r : Request} {requests : List Request} (hrequests : d.requests = r :: requests) :
    ∀ x ∈ (Child.handle { d with requests := requests } heap r).2, x.1 = x.2 := by
  intro x hx
  cases r with
  | cancel jobId requestId sender =>
    simp only [Child.handle] at hx
    split at hx
    · cases hx
    · rename_i n job hn
      obtain ⟨m, hm, hjob⟩ := Option.bind_eq_some_iff.mp hn
      obtain ⟨job', hjob', heq⟩ := Option.map_eq_some_iff.mp hjob
      obtain ⟨rfl, rfl⟩ := Prod.mk.inj heq
      dsimp only at hx
      split at hx
      · cases hx
      · rename_i hpc
        obtain ⟨k, rfl, rfl⟩ := Option.map_eq_some_iff.mp hx
        -- The sender and the call of the job are active under the same id.
        have hr : Request.cancel jobId requestId (some k) ∈ d.requests := by
          rw [hrequests]
          exact List.mem_cons_self
        have hmem := List.mem_of_getElem? hjob'
        obtain ⟨job₀, hjob₀, hid⟩ := (h.child d hd).submitted jobId m hm
        obtain rfl := Option.some.inj (hjob'.symm.trans hjob₀)
        refine h.one k job'.call jobId ((h.child d hd).requests _ hr (k, jobId) rfl) ?_ ?_ ?_
        · rw [← hid]
          exact (h.child d hd).jobs job' hmem
        · exact .inr (.inl ⟨d, hd, .inl ⟨_, hr, decide_eq_true rfl⟩⟩)
        · exact .inr (.inl ⟨d, hd, .inr ⟨job', hmem, rfl, hpc⟩⟩)
  | _ => cases hx

/-- A step of the child keeps the invariant. -/
lemma childStep_separate (h : s.Separate) (hd : s.child = some d) {l : Label ρ}
    (hstep : s.childStep d l = some s') : s'.Separate := by
  obtain ⟨hown, hbusy⟩ := h.child_kept d hd
  -- The child of the next state.
  have hnext : ∀ {d' : Child}, d'.OwnedBy s.sigs → (∀ i, d'.Busy i → d.Busy i) →
      ∀ e, some d' = some e → e.OwnedBy s.sigs ∧ ∀ i, e.Busy i → s.Active i := by
    intro d' hown' hbusy' e he
    obtain rfl := Option.some.inj he
    exact ⟨hown', fun i hi => hbusy i (hbusy' i hi)⟩
  cases l <;> simp only [State.childStep, reduceCtorEq] at hstep
  case boot =>
    split at hstep
    · obtain rfl := Option.some.inj hstep
      exact h.carry_same rfl (fun _ _ hk => hk) (hnext { hown with } fun _ hi => hi) h.results_kept
        h.handling_kept (Nat.le_refl _) { h.kept with }
    · cases hstep
  case handle =>
    split at hstep
    · rename_i heap r requests _ _ hrequests
      obtain rfl := Option.some.inj hstep
      refine h.carry_same rfl (fun _ _ hk => hk)
        (hnext (hown.handle heap hrequests) fun i hi => hi.of_handle hrequests) h.results_kept
        h.handling_kept (Nat.le_refl _) ⟨h.kept.resolved, fun x hx => ?_⟩
      rcases List.mem_append.mp hx with hx | hx
      · exact h.kept.removed x hx
      · exact h.handle_own hd hrequests x (Option.mem_toList.mp hx)
    · cases hstep
  case runJob n =>
    obtain ⟨job, hjob, hstep⟩ := Option.bind_eq_some_iff.mp hstep
    split at hstep
    · rename_i hpc
      obtain rfl := Option.some.inj hstep
      refine h.carry_same rfl (fun _ _ hk => hk) (hnext (hown.set_job hjob rfl rfl) fun i hi => ?_)
        h.results_kept h.handling_kept (Nat.le_refl _) { h.kept with }
      rcases hi with hi | hjobs
      · exact .inl hi
      · refine .inr (Child.Busy.of_set hjob hjobs rfl fun _ => ?_)
        rw [hpc]
        decide
    · cases hstep
  case endJob n reply =>
    obtain ⟨job, hjob, hstep⟩ := Option.bind_eq_some_iff.mp hstep
    split at hstep
    · rename_i hpc
      obtain rfl := Option.some.inj hstep
      have hmem := List.mem_of_getElem? hjob
      refine h.carry_same rfl (fun _ _ hk => hk) (hnext (hown.set_job hjob rfl rfl) fun i hi => ?_)
        (fun m hm => ?_) h.handling_kept (Nat.le_refl _) { h.kept with }
      · rcases hi with hi | hjobs
        · exact .inl hi
        · exact .inr (Child.Busy.of_set hjob hjobs rfl fun hend => absurd rfl hend)
      · rcases List.mem_append.mp hm with hm | hm
        · exact h.results_kept m hm
        · -- The result takes the place of the running job.
          obtain ⟨r, -, rfl⟩ := List.mem_map.mp hm
          refine ⟨hbusy job.call (.inr ⟨job, hmem, rfl, ?_⟩), hown.jobs job hmem⟩
          rw [hpc]
          decide
    · cases hstep
  case selectAddress =>
    obtain ⟨heap, hheap, rfl⟩ := Option.map_eq_some_iff.mp hstep
    exact h.carry_same rfl (fun _ _ hk => hk) (hnext { hown with } fun _ hi => hi) h.results_kept
      h.handling_kept (Nat.le_refl _) { h.kept with }
  case die =>
    obtain rfl := Option.some.inj hstep
    exact h.carry_same rfl (fun _ _ hk => hk) (hnext { hown with } fun _ hi => hi) h.results_kept
      h.handling_kept (Nat.le_refl _) { h.kept with }

/-! ### The event loop -/

/-- The end of a control endpoint keeps the invariant. -/
lemma controlStep_separate (h : s.Separate) (hd : s.child = some d) {kind : ControlKind}
    {requestId : ℕ} {l : Label ρ} (hstep : s.controlStep kind requestId d l = some s') :
    s'.Separate := by
  have hend : ∀ {t : State ρ}, t.Separate → (t.endControl kind).Separate := by
    intro t ht
    cases kind with
    | stop =>
      exact ht.carry_same rfl (fun _ _ hk => hk) (fun e he => by cases he) (fun m hm => by cases hm)
        ht.handling_kept (Nat.le_refl _) { ht.kept with }
    | _ =>
      exact ht.carry_same rfl (fun _ _ hk => hk) ht.child_kept ht.results_kept ht.handling_kept
        (Nat.le_refl _) { ht.kept with }
  cases l <;> simp only [State.controlStep, reduceCtorEq] at hstep
  case ack =>
    split at hstep
    · cases hstep
    · obtain rfl := Option.some.inj hstep
      refine hend (h.carry_same rfl (fun _ _ hk => hk) (fun e he => ?_) h.results_kept
        h.handling_kept (Nat.le_refl _) { h.kept with })
      obtain rfl := Option.some.inj he
      obtain ⟨hown, hbusy⟩ := h.child_kept d hd
      exact ⟨{ hown with }, fun i hi => hbusy i hi⟩
  case ackTimeout =>
    split at hstep
    · obtain rfl := Option.some.inj hstep
      exact hend h
    · cases hstep

/-- A control endpoint sends a request that belongs to no call. -/
lemma State.Separate.sendControl (h : s.Separate) (hd : s.child = some d) (kind : ControlKind)
    {r : ℕ → Request} (hr : ∀ n, (r n).sentBy? = none) : (s.sendControl d kind r).Separate := by
  obtain ⟨hown, hbusy⟩ := h.child_kept d hd
  refine h.carry_same rfl (fun _ _ hk => hk) (fun e he => ?_) h.results_kept h.handling_kept
    (Nat.le_succ _) { h.kept with }
  obtain rfl := Option.some.inj he
  refine ⟨hown.put fun x hx => ?_, fun i hi => ?_⟩
  · rw [hr] at hx
    cases hx
  · rcases hi.of_put with hi | hi
    · exact hbusy i hi
    · rw [hr] at hi
      cases hi

/-- `_reject_all_pending_futures` empties the map and leaves the calls where they stand. -/
lemma State.Separate.rejectAll (h : s.Separate) (error : String) :
    (s.rejectAll error).Separate := by
  have hsigs : (s.rejectAll error).sigs = s.sigs := by
    refine map_sig_mapIdx s.calls _ fun i c => ?_
    split <;> rfl
  exact h.carry_same hsigs (fun _ _ hk => by cases hk) h.child_kept h.results_kept h.handling_kept
    (Nat.le_refl _) { h.kept with }

/-- The last section of a call that has failed, when the entry under its id is its own. -/
lemma State.Separate.popAndCancel (h : s.Separate) {jobId : JobId}
    (hentry : ∀ k, s.futures jobId = some k → i = k) : (s.popAndCancel i jobId).Separate := by
  unfold State.popAndCancel
  split
  · exact h
  · rename_i k hk
    refine h.carry_same (map_sig_modify s.calls k _ fun c => ?_)
      (fun _ _ hk' => futures_update_none hk') h.child_kept h.results_kept h.handling_kept
      (Nat.le_refl _) (h.kept.remove rfl (hentry k hk) rfl)
    split <;> rfl

/-- A call moves on, and the entry under its id is gone or it is not its own. -/
lemma State.Separate.move (h : s.Separate) (hi : s.calls[i]? = some c)
    (hcalls : s'.calls = s.calls.set i c') (hid : c'.jobId = c.jobId)
    (hover : c'.pc.isOver = false → c.pc.isOver = false)
    (hfutures : ∀ jobId k, s'.futures jobId = some k → s.futures jobId = some k ∧ k ≠ i)
    (hchild : ∀ d, s'.child = some d → d.OwnedBy s.sigs ∧ ∀ i, d.Busy i → s.Active i)
    (hresults : s'.results = s.results) (hhandling : s'.handling = s.handling)
    (huuid : s.nextUuid ≤ s'.nextUuid) (hkept : s'.FuturesKept) : s'.Separate := by
  have hsigs : s'.sigs = s.sigs.set i c'.sig := by rw [State.sigs, hcalls, List.map_set, State.sigs]
  refine h.carry (fun k jobId => ?_) (fun k hk => ?_) (fun jobId k hk => ?_) hchild
    (fun m hm => h.results_kept m (hresults ▸ hm)) (fun x hx => h.handling_kept x (hhandling ▸ hx))
    huuid hkept
  · rw [hsigs]
    exact owns_set (getElem?_sigs hi) hid k jobId
  · obtain ⟨g, hg, hgo⟩ := hk
    rw [hsigs] at hg
    rcases Pool.getElem?_set_eq_some hg with ⟨rfl, rfl⟩ | ⟨-, hg⟩
    · exact ⟨c.sig, getElem?_sigs hi, hover hgo⟩
    · exact ⟨g, hg, hgo⟩
  · obtain ⟨hold, hne⟩ := hfutures jobId k hk
    exact ⟨hold, by rw [hsigs, List.getElem?_set_ne (Ne.symm hne)]⟩

/-- A call that is not over is active. -/
lemma active_of_not_over (hi : s.calls[i]? = some c) (hover : c.pc.isOver = false) : s.Active i :=
  .inl ⟨c.sig, getElem?_sigs hi, hover⟩

/-- The callback of a done future, and the rest of a call, keep the invariant. -/
lemma finish_separate (h : s.Separate) (hi : s.calls[i]? = some c) (hpc : c.pc = .waking) :
    (s.finish i c).Separate := by
  have hactive : s.Active i := active_of_not_over hi (by rw [hpc]; rfl)
  have howns : Owns s.sigs i c.jobId := ⟨c.sig, getElem?_sigs hi, rfl⟩
  have hentry : ∀ k, s.futures c.jobId = some k → i = k := fun k => h.entry_eq howns hactive
  -- The call has run its callback, so no entry is its own.
  have hother : ∀ jobId k, s.futures jobId = some k → s.futures jobId = some k ∧ k ≠ i := by
    intro jobId k hk
    refine ⟨hk, ?_⟩
    rintro rfl
    obtain ⟨g, hg, -, hwait, -⟩ := h.futures jobId k hk
    obtain rfl := Option.some.inj ((getElem?_sigs hi).symm.trans hg)
    rw [ProcessCall.sig, hpc] at hwait
    cases hwait
  have hnot : c.pc.isOver = false := by rw [hpc]; rfl
  unfold State.finish
  split
  · exact h
  · exact h.move hi rfl rfl (fun _ => hnot) hother h.child_kept rfl rfl (Nat.le_refl _)
      { h.kept with }
  · refine State.Separate.popAndCancel ?_ hentry
    exact h.move hi rfl rfl (fun _ => hnot) hother h.child_kept rfl rfl (Nat.le_refl _)
      { h.kept with }
  · exact h.move hi rfl rfl (fun _ => hnot) hother h.child_kept rfl rfl (Nat.le_refl _)
      { h.kept with }
  · refine State.Separate.popAndCancel ?_ hentry
    refine h.move hi rfl rfl (fun _ => hnot) hother (fun d hd => ?_) rfl rfl (Nat.le_succ _)
      { h.kept with }
    -- The `cancel` request belongs to the call, which is active.
    obtain ⟨d₀, hd₀, rfl⟩ := Option.map_eq_some_iff.mp hd
    obtain ⟨hown, hbusy⟩ := h.child_kept d₀ hd₀
    refine ⟨hown.put fun x hx => ?_, fun k hk => ?_⟩
    · obtain rfl := Option.some.inj hx
      exact howns
    · rcases hk.of_put with hk | hk
      · exact hbusy k hk
      · obtain rfl : i = k := of_decide_eq_true hk
        exact hactive

/-- A new call under an id that no active call has. -/
lemma State.Separate.submit (h : s.Separate) (hd : s.child = some d) {jobId : JobId} {n : ℕ}
    (hfree : ∀ i, Owns s.sigs i jobId → ¬ s.Active i) (huuid : s.nextUuid ≤ n)
    (hfresh : ∀ m, jobId = .uuid m → m < n) :
    State.Separate { s.submit d jobId with nextUuid := n } := by
  have hlen : s.sigs.length = s.calls.length := List.length_map _
  have hsigs : State.sigs { s.submit d jobId with nextUuid := n } =
      s.sigs ++ [⟨jobId, true, false⟩] := by
    rw [State.sigs, State.sigs]
    exact List.map_append
  obtain ⟨hown, hbusy⟩ := h.child_kept d hd
  -- The calls before, and the new one.
  have hold : ∀ {i : ℕ} {id : JobId}, Owns s.sigs i id →
      Owns (s.sigs ++ [⟨jobId, true, false⟩]) i id := by
    rintro i id ⟨g, hg, hid⟩
    exact ⟨g, (List.getElem?_append_left (List.getElem?_eq_some_iff.mp hg).1).trans hg, hid⟩
  have hnew : (s.sigs ++ [(⟨jobId, true, false⟩ : CallSig)])[s.calls.length]? =
      some ⟨jobId, true, false⟩ := by
    rw [← hlen]
    exact List.getElem?_concat_length
  have hback : ∀ {i : ℕ} {g : CallSig},
      (s.sigs ++ [(⟨jobId, true, false⟩ : CallSig)])[i]? = some g →
      s.sigs[i]? = some g ∨ (i = s.calls.length ∧ g = ⟨jobId, true, false⟩) := by
    intro i g hg
    rcases Nat.lt_or_ge i s.sigs.length with hlt | hge
    · rw [List.getElem?_append_left hlt] at hg
      exact .inl hg
    · obtain ⟨hlt, -⟩ := List.getElem?_eq_some_iff.mp hg
      rw [List.length_append, List.length_singleton] at hlt
      obtain rfl : i = s.calls.length := by omega
      exact .inr ⟨rfl, Option.some.inj (hg.symm.trans hnew)⟩
  -- An earlier call is active only if it was.
  have hactive : ∀ {i : ℕ}, i ≠ s.calls.length →
      State.Active { s.submit d jobId with nextUuid := n } i → s.Active i := by
    rintro i hi (⟨g, hg, hover⟩ | ⟨e, he, hb⟩ | ⟨m, hm, hmi⟩ | ⟨x, hx, hxi⟩)
    · rw [hsigs] at hg
      rcases hback hg with hg | ⟨rfl, -⟩
      · exact .inl ⟨g, hg, hover⟩
      · exact absurd rfl hi
    · obtain rfl := Option.some.inj he
      rcases hb.of_put with hb | hb
      · exact hbusy i hb
      · exact absurd (of_decide_eq_true hb) (Ne.symm hi)
    · exact .inr (.inr (.inl ⟨m, hm, hmi⟩))
    · exact .inr (.inr (.inr ⟨x, hx, hxi⟩))
  -- An earlier call with the id is not active.
  have hclash : ∀ {i : ℕ}, Owns s.sigs i jobId → i ≠ s.calls.length →
      ¬ State.Active { s.submit d jobId with nextUuid := n } i := fun ho hi ha =>
    hfree _ ho (hactive hi ha)
  have hne : ∀ {i : ℕ} {id : JobId}, Owns s.sigs i id → i ≠ s.calls.length := by
    rintro i id ⟨g, hg, -⟩ rfl
    have hlt := (List.getElem?_eq_some_iff.mp hg).1
    omega
  refine ⟨fun i k id hi hk hai hak => ?_, fun id k hk => ?_, fun e he => ?_, fun m hm => ?_,
    h.handling, fun i m hi => ?_, { h.kept with }⟩
  · rw [hsigs] at hi hk
    obtain ⟨gi, hgi, rfl⟩ := hi
    obtain ⟨gk, hgk, hid⟩ := hk
    rcases hback hgi with hgi | ⟨rfl, rfl⟩ <;> rcases hback hgk with hgk | ⟨rfl, rfl⟩
    · have hoi : Owns s.sigs i gi.jobId := ⟨gi, hgi, rfl⟩
      have hok : Owns s.sigs k gi.jobId := ⟨gk, hgk, hid⟩
      exact h.one i k gi.jobId hoi hok (hactive (hne hoi) hai) (hactive (hne hok) hak)
    · have hoi : Owns s.sigs i jobId := ⟨gi, hgi, hid.symm⟩
      exact absurd hai (hclash hoi (hne hoi))
    · have hok : Owns s.sigs k jobId := ⟨gk, hgk, hid⟩
      exact absurd hak (hclash hok (hne hok))
    · rfl
  · rw [hsigs]
    by_cases hid : id = jobId
    · subst hid
      obtain rfl : s.calls.length = k := by
        change Function.update s.futures id (some s.calls.length) id = some k at hk
        rw [Function.update_self] at hk
        exact Option.some.inj hk
      exact ⟨_, hnew, rfl, rfl, rfl⟩
    · change Function.update s.futures jobId (some s.calls.length) id = some k at hk
      rw [Function.update_of_ne hid] at hk
      obtain ⟨g, hg, hrest⟩ := h.futures id k hk
      exact ⟨g, (List.getElem?_append_left (List.getElem?_eq_some_iff.mp hg).1).trans hg, hrest⟩
  · obtain rfl := Option.some.inj he
    rw [hsigs]
    refine Child.OwnedBy.put ⟨fun r hr x hx => hold (hown.requests r hr x hx),
      fun job hjob => hold (hown.jobs job hjob), hown.submitted⟩ fun x hx => ?_
    obtain rfl := Option.some.inj hx
    exact ⟨_, hnew, rfl⟩
  · rw [hsigs]
    exact hold (h.results m hm)
  · rw [hsigs] at hi
    obtain ⟨g, hg, hid⟩ := hi
    rcases hback hg with hg | ⟨-, rfl⟩
    · exact Nat.lt_of_lt_of_le (h.uuids i m ⟨g, hg, hid⟩) huuid
    · exact hfresh m hid

/-- A step of the event loop that meets the condition keeps the invariant. -/
lemma loopStep_separate (h : s.Separate) {l : Label ρ} (hcond : TakesFreeId s l)
    (hstep : s.loopStep l = some s') : s'.Separate := by
  cases l <;> simp only [State.loopStep, reduceCtorEq] at hstep
  case start =>
    split at hstep
    · cases hstep
    · obtain rfl := Option.some.inj hstep
      refine h.carry_same rfl (fun _ _ hk => hk) (fun d hd => ?_) h.results_kept h.handling_kept
        (Nat.le_refl _) { h.kept with }
      obtain rfl := Option.some.inj hd
      refine ⟨⟨fun r hr => (by cases hr), fun job hjob => (by cases hjob),
        fun _ _ hn => (by cases hn)⟩, ?_⟩
      rintro i (⟨r, hr, -⟩ | ⟨job, hjob, -⟩)
      · cases hr
      · cases hjob
  case stop =>
    obtain ⟨c, hc, rfl⟩ := Option.map_eq_some_iff.mp hstep
    have haccepting : State.Separate { s with accepting := false } :=
      h.carry_same rfl (fun _ _ hk => hk) h.child_kept h.results_kept h.handling_kept
        (Nat.le_refl _) { h.kept with }
    have hrejected := haccepting.rejectAll "Server is stopping; job cancelled"
    exact hrejected.sendControl (serverRunning_eq_some.mp hc).1 .stop fun _ => rfl
  case status =>
    obtain ⟨c, hc, rfl⟩ := Option.map_eq_some_iff.mp hstep
    exact h.sendControl (serverRunning_eq_some.mp hc).1 .status fun _ => rfl
  case cancel jobId =>
    obtain ⟨c, hc, rfl⟩ := Option.map_eq_some_iff.mp hstep
    exact h.sendControl (serverRunning_eq_some.mp hc).1 .cancel fun _ => rfl
  case addLlmServer address =>
    have hbuffer : State.Separate { s with
        buffer := if address ∈ s.buffer then s.buffer else s.buffer ++ [address] } :=
      h.carry_same rfl (fun _ _ hk => hk) h.child_kept h.results_kept h.handling_kept
        (Nat.le_refl _) { h.kept with }
    split at hstep
    · rename_i c hc
      obtain rfl := Option.some.inj hstep
      exact hbuffer.sendControl (serverRunning_eq_some.mp hc).1 .addLlmServer fun _ => rfl
    · obtain rfl := Option.some.inj hstep
      exact hbuffer
  case clearLlmServer =>
    have hbuffer : State.Separate { s with buffer := [] } :=
      h.carry_same rfl (fun _ _ hk => hk) h.child_kept h.results_kept h.handling_kept
        (Nat.le_refl _) { h.kept with }
    split at hstep
    · rename_i c hc
      obtain rfl := Option.some.inj hstep
      exact hbuffer.sendControl (serverRunning_eq_some.mp hc).1 .clearLlmServer fun _ => rfl
    · obtain rfl := Option.some.inj hstep
      exact hbuffer
  case process jobId =>
    split at hstep
    · obtain ⟨d, hd, hs'⟩ := Option.map_eq_some_iff.mp hstep
      have hchild := (serverRunning_eq_some.mp hd).1
      -- An id that `uuid4` has just made is that of no call.
      have huuid : State.Separate
          { s.submit d (.uuid s.nextUuid) with nextUuid := s.nextUuid + 1 } := by
        refine h.submit hchild (fun i hi => ?_) (Nat.le_succ _) fun m hm => ?_
        · exact absurd (h.uuids i s.nextUuid hi) (Nat.lt_irrefl _)
        · cases hm
          exact Nat.lt_succ_self _
      cases jobId with
      | none => exact hs' ▸ huuid
      | some id =>
        dsimp only at hs'
        split at hs'
        · exact hs' ▸ huuid
        · refine hs' ▸ h.submit hchild (n := s.nextUuid) (fun i hi => ?_) (Nat.le_refl _)
            fun m hm => (by cases hm)
          obtain ⟨g, hg, hgid⟩ := hi
          have hlt := (List.getElem?_eq_some_iff.mp hg).1
          exact hcond i (List.mem_range.mpr hlt) g hg hgid
    · cases hstep
  case timeout i =>
    obtain ⟨c, hc, hstep⟩ := Option.bind_eq_some_iff.mp hstep
    split at hstep
    · obtain rfl := Option.some.inj hstep
      exact h.carry_same (sigs_set_of_sig_eq hc rfl) (fun _ _ hk => hk) h.child_kept h.results_kept
        h.handling_kept (Nat.le_refl _) { h.kept with }
    · cases hstep
  case cleanup i =>
    obtain ⟨c, hc, hstep⟩ := Option.bind_eq_some_iff.mp hstep
    split at hstep
    · rename_i hpc
      have hactive : s.Active i := active_of_not_over hc (by rw [hpc]; rfl)
      have howns : Owns s.sigs i c.jobId := ⟨c.sig, getElem?_sigs hc, rfl⟩
      -- The only entry of the call is under its id.
      have hother : ∀ jobId k, jobId ≠ c.jobId → s.futures jobId = some k → k ≠ i := by
        rintro jobId k hne hk rfl
        obtain ⟨g, hg, hid, -⟩ := h.futures jobId k hk
        obtain rfl := Option.some.inj ((getElem?_sigs hc).symm.trans hg)
        exact hne hid.symm
      split at hstep
      · split at hstep
        · rename_i k hk
          obtain rfl := Option.some.inj hstep
          refine h.move hc rfl rfl (fun _ => by rw [hpc]; rfl) (fun jobId k' hk' => ?_) h.child_kept
            rfl rfl (Nat.le_refl _) (h.kept.remove rfl (h.entry_eq howns hactive hk) rfl)
          refine ⟨futures_update_none hk', hother jobId k' ?_ (futures_update_none hk')⟩
          rintro rfl
          change Function.update s.futures c.jobId none c.jobId = some k' at hk'
          rw [Function.update_self] at hk'
          cases hk'
        · rename_i hnone
          obtain rfl := Option.some.inj hstep
          refine h.move hc rfl rfl (fun _ => by rw [hpc]; rfl) (fun jobId k hk => ?_) h.child_kept
            rfl rfl (Nat.le_refl _) { h.kept with }
          refine ⟨hk, hother jobId k ?_ hk⟩
          rintro rfl
          exact absurd (hk.symm.trans hnone) (by simp)
      · cases hstep
    · cases hstep
  case wake i =>
    obtain ⟨c, hc, hstep⟩ := Option.bind_eq_some_iff.mp hstep
    split at hstep
    · obtain rfl := Option.some.inj hstep
      exact finish_separate h hc ‹_›
    · cases hstep

/-- **The step lemma**: a step that meets the condition keeps the invariant. -/
theorem step_separate (h : s.Separate) {l : Label ρ} (hcond : TakesFreeId s l)
    (hstep : step s l = some s') : s'.Separate := by
  rcases step_cases hstep with hstep | ⟨d, hd, -, hstep⟩ | ⟨kind, requestId, d, -, hd, hstep⟩ |
    ⟨-, hstep⟩
  · exact listenerStep_separate h hstep
  · exact childStep_separate h hd hstep
  · exact controlStep_separate h hd hstep
  · exact loopStep_separate h hcond hstep

end Steps

/-! ## Runs -/

section Runs

/-- The invariant holds before the first request. -/
lemma separate_initState : (initState : State ρ).Separate where
  one := fun _ _ _ hi => (by obtain ⟨g, hg, -⟩ := hi; cases hg)
  futures := fun _ _ hk => (by cases hk)
  child := fun _ hd => (by cases hd)
  results := fun _ hm => (by cases hm)
  handling := fun _ hx => (by cases hx)
  uuids := fun _ _ hi => (by obtain ⟨g, hg, -⟩ := hi; cases hg)
  kept := ⟨fun _ hx => (by cases hx), fun _ hx => (by cases hx)⟩

/-- **A result reaches its own request along every run** in which a `/process` call takes an id of
the client only when nothing of an earlier call with that id is under way. -/
theorem futuresKept_of_takesFreeId (ls : List (Label ρ)) (s : State ρ)
    (hrun : Machine.run (Machine.guarded step TakesFreeId) initState ls = some s) :
    s.FuturesKept := by
  have hseparate : s.Separate := by
    refine Machine.run_invariant State.Separate (fun s l s' h hstep => ?_) separate_initState hrun
    obtain ⟨hcond, hstep⟩ := Machine.guarded_eq_some.mp hstep
    exact step_separate h hcond hstep
  exact hseparate.kept

/-- A call, its result, and a second call with the same id that times out. -/
def freeIdRun : List (Label Unit) :=
  [.start, .boot, .process (some "j"), .handle, .runJob 0, .endJob 0 (some (.ok ())), .listen,
    .resolve, .cleanup 0, .wake 0, .process (some "j"), .handle, .runJob 1, .timeout 1, .cleanup 1,
    .wake 1, .handle]

/-- Along this run the first result resolves the first future, and nothing is taken from it. -/
theorem futuresKept_freeIdRun :
    ∃ s, Machine.run (Machine.guarded step TakesFreeId) initState freeIdRun = some s ∧
    s.resolved = [(0, 0)] ∧ s.removed = [(0, 0), (1, 1), (1, 1)] ∧ s.FuturesKept :=
  ⟨_, rfl, by decide, by decide, futuresKept_of_takesFreeId freeIdRun _ rfl⟩

/-- A call that times out, a second call with its id, and then the result of the first one. -/
def reusedIdRun : List (Label Unit) :=
  [.start, .boot, .process (some "j"), .handle, .runJob 0, .timeout 0, .cleanup 0, .wake 0,
    .process (some "j"), .endJob 0 (some (.ok ())), .listen, .resolve]

/-- The late result of the first call removes the entry of the second one and resolves its
future. -/
theorem not_futuresKept_reused : ∃ s, Machine.run step initState reusedIdRun = some s ∧
    s.resolved = [(1, 0)] ∧ s.removed = [(0, 0), (0, 1)] ∧ ¬ s.FuturesKept := by
  refine ⟨_, rfl, by decide, by decide, fun h => ?_⟩
  exact absurd (h.resolved (1, 0) (by decide)) (by decide)

end Runs

end ProRLAgent.ApiServer
