import Mathlib.Data.List.Basic
import Mathlib.Data.List.Perm.Basic
import ProRLAgent.Lib.Machine
import ProRLAgent.Lib.Pool
import ProRLAgent.Lib.Except
import ProRLAgent.Jobs.TwoServers

set_option relaxedAutoImplicit false
set_option autoImplicit false

/-!
# The two servers agree

On the threaded server a job is in one place at a time: on a queue or with a worker. What the
process-based server would still do with the details of the job at that place is the same along the
whole run (`remaining`), so the details of a job whose event is set are those that `Worker.run` ends
with. From there the two servers differ in one point: `get_results` looks `final_result` up in the
table of the ordinary jobs, and `process` of the threaded server in the table of the job.

## Main definitions

* `TwoServers.ServersAgree` — the two servers give the same result to a job.
* `TwoServers.SameFinalResult` — the two lookups of `final_result` agree for the job.
* `TwoServers.Tracked` — the invariant of the threaded server.

## Main results

* `TwoServers.step_tracked` — every step of the threaded server keeps the invariant.
* `TwoServers.canSettle` — every job gets its result.
* `TwoServers.serversAgree_iff` — the servers agree exactly on the jobs with one `final_result`.
* `TwoServers.not_serversAgree_reasoning` — a reasoning job on which they do not.
-/

namespace ProRLAgent.TwoServers

variable {φ ω : Type}

/-! ## The phases of the process-based server -/

section Phases

variable (R : Registry φ) (H : Handlers φ ω)

/-- The phases from one on. -/
def JobType.onwards : JobType → List JobType
  | .init => [.init, .run, .eval]
  | .run => [.run, .eval]
  | .eval => [.eval]

/-- The process-based server runs phases until the event of the job is set. -/
def phasesFrom : List JobType → Details ω → Except Raised (Details ω)
  | [], d => .ok d
  | type :: types, d =>
    match Worker.runStep R H type d with
    | .error e => .error e
    | .ok d => if d.event then .ok d else phasesFrom types d

-- The equations of these functions are generated here, not in each proof that unfolds them.
section

attribute [local simp] phasesFrom

end

/-- The details that the process-based server ends with. -/
def finalDetails (job : JobRequest ω) : Except Raised (Details ω) :=
  phasesFrom R H JobType.init.onwards job.details

/-- `Worker.run` is the phases and then the result. -/
lemma run_eq (timing : PyVal) (job : JobRequest ω) :
    Worker.run R H timing job =
      match finalDetails R H job with
      | .error e => .error e
      | .ok d => Worker.getResults R H timing d := by
  unfold Worker.run finalDetails JobType.onwards phasesFrom phasesFrom phasesFrom phasesFrom
  cases Worker.runStep R H .init job.details with
  | error e => rfl
  | ok d =>
    simp only [bind, Except.bind]
    by_cases hd : d.event
    · simp [hd]
    · simp only [hd, Bool.false_eq_true, if_false]
      cases Worker.runStep R H .run d with
      | error e => rfl
      | ok d =>
        dsimp only
        by_cases hd : d.event
        · simp [hd]
        · simp only [hd, Bool.false_eq_true, if_false]
          cases Worker.runStep R H .eval d with
          | error e => rfl
          | ok d => simp

/-- What the process-based server does with the details of a job that a worker of the threaded
server has. -/
def remaining (kind : JobType) (d : Details ω) : WorkerPc ω → Except Raised (Details ω)
  | .taken _ => phasesFrom R H kind.onwards d
  | .initialized _ runtime metadata config =>
    phasesFrom R H (nextQueue kind).onwards
      { d with runtime := runtime, metadata := metadata, config := config }
  | .ran _ results =>
    phasesFrom R H (nextQueue kind).onwards { d with runResults := some results, runtime := none }
  | .evaluated _ report => .ok { d with evalResults := report.unwrap, event := true }
  | .caught _ e =>
    match datasetType d.inst with
    | .error e' => .error e'
    | .ok name => Worker.catchStep R H name kind d e
  | .putting _ => phasesFrom R H (nextQueue kind).onwards d
  | .setting _ => .ok { d with event := true }
  | .waiting | .leaving | .crashed => .ok d

variable {R H} {d d' : Details ω} {name : String} {kind : JobType}

/-- The `except` clauses set the event. -/
lemma event_catchStep {e : Raised} (h : Worker.catchStep R H name kind d e = .ok d') :
    d'.event = true := by
  have hresults : ∀ {d₁ : Details ω} {missing : ResultDict},
      Worker.exceptionResults R H name kind d₁ e missing = .ok d' → d'.event = true := by
    intro d₁ missing h
    unfold Worker.exceptionResults at h
    split at h
    · split at h
      · obtain rfl := Except.ok.inj h
        rfl
      · cases h
    · obtain rfl := Except.ok.inj h
      rfl
  cases e with
  | timeoutError text => exact hresults h
  | exception text => exact hresults h

/-- A phase whose exception is caught is the last one. -/
lemma phasesFrom_of_catchStep {e : Raised}
    (h : Worker.runStep R H kind d = Worker.catchStep R H name kind d' e) :
    phasesFrom R H kind.onwards d = Worker.catchStep R H name kind d' e := by
  have hcons : ∀ types, phasesFrom R H (kind :: types) d =
      Worker.catchStep R H name kind d' e := by
    intro types
    rw [phasesFrom, h]
    cases hc : Worker.catchStep R H name kind d' e with
    | error e' => rfl
    | ok d₁ =>
      dsimp only
      rw [if_pos (event_catchStep hc)]
  cases kind with
  | init => exact hcons _
  | run => exact hcons _
  | eval => exact hcons _

/-- A phase that returns and leaves the event unset goes on with the next one. -/
lemma phasesFrom_of_ok (hkind : kind ≠ .eval) (h : Worker.runStep R H kind d = .ok d')
    (hevent : d'.event = false) :
    phasesFrom R H kind.onwards d = phasesFrom R H (nextQueue kind).onwards d' := by
  have hcons : ∀ types, phasesFrom R H (kind :: types) d = phasesFrom R H types d' := by
    intro types
    rw [phasesFrom, h]
    simp [hevent]
  cases kind with
  | init => exact hcons _
  | run => exact hcons _
  | eval => exact absurd rfl hkind

end Phases

/-! ## A job at its place -/

/-- The places that a worker of a kind can be at. -/
def WorkerPc.fits (kind : JobType) : WorkerPc ω → Bool
  | .initialized _ _ _ _ => kind = .init
  | .ran _ _ => kind = .run
  | .evaluated _ _ => kind = .eval
  | .putting _ => kind ≠ .eval
  | _ => true

section Calls

variable (R : Registry φ) (H : Handlers φ ω)

/-- A call whose job is on a queue or with a worker: what remains of it there leads to the details
that the process-based server ends with. -/
structure Holding (c : Call ω) (kind : JobType) (pc : WorkerPc ω) : Prop where
  accepted : checkRegistered R c.job = .ok c.datasetType
  waiting : c.pc = .waiting
  unset : c.details.event = false
  inst : c.details.inst = c.job.inst
  fits : pc.fits kind = true
  remaining : remaining R H kind c.details pc = finalDetails R H c.job

/-- A call whose job is over: it was not accepted; or its event is set, with the details that the
process-based server ends with; or an exception function has raised. -/
inductive Standing (c : Call ω) : Prop where
  | rejected (e : Raised) (hcheck : checkRegistered R c.job = .error e) (hpc : c.pc = .raised e)
  | done (hcheck : checkRegistered R c.job = .ok c.datasetType)
      (hfinal : finalDetails R H c.job = .ok c.details) (hset : c.details.event = true)
      (hinst : c.details.inst = c.job.inst)
      (hpc : c.pc = .waiting ∨ ∃ timing, c.pc = makeResult R H timing c)
  | lost (e : Raised) (hcheck : checkRegistered R c.job = .ok c.datasetType)
      (hfinal : finalDetails R H c.job = .error e) (hunset : c.details.event = false)
      (hpc : c.pc = .waiting)

/-- How far a place is from the end of the job. -/
def cost (kind : JobType) : WorkerPc ω → ℕ
  | .taken _ => match kind with
    | .init => 20
    | .run => 13
    | .eval => 6
  | .putting _ => match kind with
    | .init => 17
    | _ => 10
  | .setting _ => 2
  | .waiting | .leaving | .crashed => 0
  | _ => match kind with
    | .init => 19
    | .run => 12
    | .eval => 5

variable {R H} {c : Call ω} {kind : JobType} {pc pc' : WorkerPc ω} {d' : Details ω} {i : ℕ}

/-- The data source of an accepted job. -/
lemma datasetType_of_checkRegistered {job : JobRequest ω} {name : String}
    (h : checkRegistered R job = .ok name) : datasetType job.inst = .ok name := by
  unfold checkRegistered at h
  split at h
  · cases h
  · rename_i name' hname
    split at h
    · rw [hname, Except.ok.inj h]
    · cases h

/-- The data source that the servers read in the details. -/
lemma Holding.datasetType_eq (h : Holding R H c kind pc) :
    datasetType c.details.inst = .ok c.datasetType := by
  rw [h.inst]
  exact datasetType_of_checkRegistered h.accepted

/-- What a step of a worker makes of its job: it keeps it with what remains of it, it sets the
event, or an exception function raises. -/
def StepsTo (R : Registry φ) (H : Handlers φ ω) (c : Call ω) (kind : JobType) (i : ℕ)
    (pc : WorkerPc ω) (d' : Details ω) (pc' : WorkerPc ω) : Prop :=
  (pc'.job? = some i ∧ Holding R H { c with details := d' } kind pc' ∧
    cost kind pc' < cost kind pc) ∨
  (pc' = .leaving ∧ Standing R H { c with details := d' }) ∨
  (pc' = .crashed ∧ Standing R H { c with details := d' } ∧
    ∃ e, finalDetails R H c.job = .error e)

/-- The worker keeps its job. -/
lemma Holding.stepsTo_keep (h : Holding R H c kind pc) (hjob : pc'.job? = some i)
    (hfits : pc'.fits kind = true) (hcost : cost kind pc' < cost kind pc)
    (hevent : d'.event = c.details.event) (hinst : d'.inst = c.details.inst)
    (hremaining : TwoServers.remaining R H kind d' pc' =
      TwoServers.remaining R H kind c.details pc) : StepsTo R H c kind i pc d' pc' :=
  .inl ⟨hjob, ⟨h.accepted, h.waiting, hevent.trans h.unset, hinst.trans h.inst, hfits,
    hremaining.trans h.remaining⟩, hcost⟩

/-- The runtime that the threaded server gives up. -/
lemma dropRuntime_eq (kind : JobType) (d : Details ω) :
    (if kind = .run ∧ d.runtime.isSome then { d with runtime := none } else d) =
      Worker.dropRuntime kind d := by
  unfold Worker.dropRuntime
  by_cases hkind : kind = .run
  · cases hr : d.runtime with
    | none => simp [hkind, ← hr]
    | some x => simp [hkind]
  · simp [hkind]

/-- Giving up a runtime changes neither the event nor the instance. -/
lemma dropRuntime_keeps (kind : JobType) (d : Details ω) :
    (Worker.dropRuntime kind d).event = d.event ∧ (Worker.dropRuntime kind d).inst = d.inst := by
  unfold Worker.dropRuntime
  split
  · exact ⟨rfl, rfl⟩
  · exact ⟨rfl, rfl⟩

variable (R H) in
/-- The details and the place after the call of the exception function, or without one. -/
def exceptionOutcome (i : ℕ) (name : String) (kind : JobType) (d : Details ω) (e : Raised)
    (missing : ResultDict) : Details ω × WorkerPc ω :=
  match R.getRegisteredFunctions kind.exceptionType name d.isReasoningTask with
  | some exceptionFunc =>
    match H.exception exceptionFunc d e with
    | (rest, .ok results) => ({ d with rest := rest, results := some results }, .setting i)
    | (rest, .error _) => ({ d with rest := rest }, .crashed)
  | none => ({ d with results := some missing }, .setting i)

/-- The two servers handle a caught exception alike. -/
lemma handleException_spec (i : ℕ) (name : String) (kind : JobType) (d : Details ω) (e : Raised) :
    (handleException R H i name kind d e).1.event = d.event ∧
    (handleException R H i name kind d e).1.inst = d.inst ∧
    (((handleException R H i name kind d e).2 = .setting i ∧
        Worker.catchStep R H name kind d e =
          .ok { (handleException R H i name kind d e).1 with event := true }) ∨
      ((handleException R H i name kind d e).2 = .crashed ∧
        ∃ e', Worker.catchStep R H name kind d e = .error e')) := by
  -- Both clauses end in the call of the exception function.
  have hresults : ∀ (d₁ : Details ω) (missing : ResultDict), d₁.event = d.event →
      d₁.inst = d.inst → ∀ x : Details ω × WorkerPc ω,
      x = exceptionOutcome R H i name kind d₁ e missing →
      x.1.event = d.event ∧ x.1.inst = d.inst ∧
        ((x.2 = .setting i ∧ Worker.exceptionResults R H name kind d₁ e missing =
            .ok { x.1 with event := true }) ∨
          (x.2 = .crashed ∧
            ∃ e', Worker.exceptionResults R H name kind d₁ e missing = .error e')) := by
    rintro d₁ missing hevent hinst x rfl
    unfold Worker.exceptionResults exceptionOutcome
    cases R.getRegisteredFunctions kind.exceptionType name d₁.isReasoningTask with
    | none => exact ⟨hevent, hinst, .inl ⟨rfl, rfl⟩⟩
    | some exceptionFunc =>
      dsimp only
      rcases H.exception exceptionFunc d₁ e with ⟨rest, _ | results⟩
      · exact ⟨hevent, hinst, .inr ⟨rfl, _, rfl⟩⟩
      · exact ⟨hevent, hinst, .inl ⟨rfl, rfl⟩⟩
  cases e with
  | timeoutError text =>
    obtain ⟨hevent, hinst⟩ := dropRuntime_keeps kind { d with timeoutError := true }
    refine hresults _ _ hevent hinst _ ?_
    rw [← dropRuntime_eq]
    rfl
  | exception text =>
    obtain ⟨hevent, hinst⟩ := dropRuntime_keeps kind d
    refine hresults _ _ hevent hinst _ ?_
    rw [← dropRuntime_eq]
    rfl

/-- The exception function, or what stands for it. -/
lemma Holding.stepsTo_caught {e : Raised} (h : Holding R H c kind (.caught i e)) :
    StepsTo R H c kind i (.caught i e) (handleException R H i c.datasetType kind c.details e).1
      (handleException R H i c.datasetType kind c.details e).2 := by
  obtain ⟨hevent, hinst, hcases⟩ := handleException_spec i c.datasetType kind c.details e (R := R)
    (H := H)
  have hremaining : TwoServers.remaining R H kind c.details (.caught i e) =
      Worker.catchStep R H c.datasetType kind c.details e := by
    simp only [TwoServers.remaining, h.datasetType_eq]
  rcases hcases with ⟨hpc, hcatch⟩ | ⟨hpc, e', hcatch⟩
  · rw [hpc]
    refine h.stepsTo_keep rfl rfl ?_ hevent hinst ?_
    · cases kind <;> simp [cost]
    · rw [hremaining, hcatch]
      rfl
  · rw [hpc]
    have hfinal : finalDetails R H c.job = .error e' := by
      rw [← h.remaining, hremaining, hcatch]
    exact .inr (.inr ⟨rfl, .lost e' h.accepted hfinal (hevent.trans h.unset) h.waiting, e', hfinal⟩)

/-- The call of the function of the phase. -/
lemma Holding.stepsTo_taken (h : Holding R H c kind (.taken i)) :
    StepsTo R H c kind i (.taken i) (callFunction R H i c.datasetType kind c.details).1
      (callFunction R H i c.datasetType kind c.details).2 := by
  have hdata := h.datasetType_eq
  -- A call that raises leaves the handling of the exception.
  have hcaught : ∀ (d : Details ω) (e : Raised), d.event = c.details.event →
      d.inst = c.details.inst → Worker.tryStep R H c.datasetType kind c.details = (d, some e) →
      StepsTo R H c kind i (.taken i) d (.caught i e) := by
    intro d e hevent hinst htry
    refine h.stepsTo_keep rfl rfl ?_ hevent hinst ?_
    · cases kind <;> simp [cost]
    · have hstep : Worker.runStep R H kind c.details =
          Worker.catchStep R H c.datasetType kind d e := by
        simp only [Worker.runStep, hdata, htry]
      simp only [TwoServers.remaining, hinst, hdata]
      exact (phasesFrom_of_catchStep hstep).symm
  cases hfunc : R.getRegisteredFunctions kind.functionType c.datasetType
      c.details.isReasoningTask with
  | none =>
    have hcall : callFunction R H i c.datasetType kind c.details = (c.details, .caught i (.exception
        s!"Function '{c.datasetType}' not found in registry type '{kind.text}'")) := by
      simp only [callFunction, hfunc]
    rw [hcall]
    exact hcaught _ _ rfl rfl (by simp only [Worker.tryStep, hfunc])
  | some func =>
    cases kind with
    | init =>
      rcases hrun : H.init func c.details c.details.jobId with
        ⟨rest, e | ⟨runtime, metadata, config⟩⟩
      · have hcall : callFunction R H i c.datasetType .init c.details =
            ({ c.details with rest := rest }, .caught i e) := by
          simp only [callFunction, hfunc, hrun]
        rw [hcall]
        exact hcaught _ e rfl rfl (by simp only [Worker.tryStep, hfunc, hrun])
      · have hcall : callFunction R H i c.datasetType .init c.details =
            ({ c.details with rest := rest }, .initialized i runtime metadata config) := by
          simp only [callFunction, hfunc, hrun]
        have hstep : Worker.runStep R H .init c.details = .ok
            { c.details with
              rest := rest
              runtime := runtime
              metadata := metadata
              config := config } := by
          simp only [Worker.runStep, hdata, Worker.tryStep, hfunc, hrun]
        rw [hcall]
        refine h.stepsTo_keep rfl rfl (by simp [cost]) rfl rfl ?_
        have hne : JobType.init ≠ .eval := by decide
        exact (phasesFrom_of_ok hne hstep h.unset).symm
    | run =>
      rcases hrun : H.run func c.details c.details.jobId with ⟨rest, e | results⟩
      · have hcall : callFunction R H i c.datasetType .run c.details =
            ({ c.details with rest := rest }, .caught i e) := by
          simp only [callFunction, hfunc, hrun]
        rw [hcall]
        exact hcaught _ e rfl rfl (by simp only [Worker.tryStep, hfunc, hrun])
      · have hcall : callFunction R H i c.datasetType .run c.details =
            ({ c.details with rest := rest }, .ran i results) := by
          simp only [callFunction, hfunc, hrun]
        have hstep : Worker.runStep R H .run c.details = .ok
            { c.details with rest := rest, runResults := some results, runtime := none } := by
          simp only [Worker.runStep, hdata, Worker.tryStep, hfunc, hrun]
        rw [hcall]
        refine h.stepsTo_keep rfl rfl (by simp [cost]) rfl rfl ?_
        have hne : JobType.run ≠ .eval := by decide
        exact (phasesFrom_of_ok hne hstep h.unset).symm
    | eval =>
      rcases hrun : H.eval func c.details ("eval_" ++ c.details.jobId) with ⟨rest, e | report⟩
      · have hcall : callFunction R H i c.datasetType .eval c.details =
            ({ c.details with rest := rest }, .caught i e) := by
          simp only [callFunction, hfunc, hrun]
        rw [hcall]
        exact hcaught _ e rfl rfl (by simp only [Worker.tryStep, hfunc, hrun])
      · have hcall : callFunction R H i c.datasetType .eval c.details =
            ({ c.details with rest := rest }, .evaluated i report) := by
          simp only [callFunction, hfunc, hrun]
        have hstep : Worker.runStep R H .eval c.details = .ok
            { c.details with rest := rest, evalResults := report.unwrap, event := true } := by
          simp only [Worker.runStep, hdata, Worker.tryStep, hfunc, hrun]
        rw [hcall]
        refine h.stepsTo_keep rfl rfl (by simp [cost]) rfl rfl ?_
        simp only [TwoServers.remaining, JobType.onwards, phasesFrom, hstep]
        rfl

/-- **A step of a worker** on its job. -/
lemma workOn_stepsTo (h : Holding R H c kind pc) (hjob : pc.job? = some i)
    (hstep : workOn R H i kind c.details pc = some (d', pc')) :
    StepsTo R H c kind i pc d' pc' := by
  have hfits := h.fits
  cases pc <;> simp only [WorkerPc.job?, reduceCtorEq, Option.some.injEq] at hjob <;> subst hjob <;>
    simp only [workOn, h.datasetType_eq, reduceCtorEq, Option.some.injEq, Prod.mk.injEq] at hstep
  case taken =>
    obtain ⟨rfl, rfl⟩ := Prod.mk.injEq .. ▸ hstep
    exact h.stepsTo_taken
  case initialized =>
    obtain ⟨rfl, rfl⟩ := hstep
    obtain rfl : kind = .init := of_decide_eq_true hfits
    exact h.stepsTo_keep rfl rfl (by simp [cost]) rfl rfl rfl
  case ran results =>
    obtain ⟨rfl, rfl⟩ := hstep
    obtain rfl : kind = .run := of_decide_eq_true hfits
    have hdetails : (if c.details.runtime.isSome then
        { c.details with runResults := some results, runtime := none }
        else { c.details with runResults := some results }) =
        { c.details with runResults := some results, runtime := none } := by
      cases hr : c.details.runtime with
      | none => simp [← hr]
      | some x => rfl
    refine h.stepsTo_keep rfl rfl (by simp [cost]) ?_ ?_ ?_
    · split <;> rfl
    · split <;> rfl
    · rw [hdetails]
      rfl
  case evaluated =>
    obtain ⟨rfl, rfl⟩ := hstep
    obtain rfl : kind = .eval := of_decide_eq_true hfits
    exact h.stepsTo_keep rfl rfl (by simp [cost]) rfl rfl rfl
  case caught =>
    obtain ⟨rfl, rfl⟩ := Prod.mk.injEq .. ▸ hstep
    exact h.stepsTo_caught
  case setting =>
    obtain ⟨rfl, rfl⟩ := hstep
    exact .inr (.inl ⟨rfl, .done h.accepted h.remaining.symm rfl h.inst (.inl h.waiting)⟩)

end Calls

/-! ## The threaded server -/

/-- The job of a worker, with the kind of the worker and its place. -/
def WorkerThread.token? (t : WorkerThread ω) : Option (ℕ × JobType × WorkerPc ω) :=
  t.pc.job?.map fun i => (i, t.kind, t.pc)

/-- The jobs on a queue. -/
def State.queueTokens (s : State ω) (kind : JobType) : List (ℕ × JobType × WorkerPc ω) :=
  (s.queue kind).map fun i => (i, kind, .taken i)

/-- The jobs that are on a queue or with a worker. -/
def State.tokens (s : State ω) : List (ℕ × JobType × WorkerPc ω) :=
  (s.queueTokens .init ++ s.queueTokens .run ++ s.queueTokens .eval) ++
    s.workers.filterMap WorkerThread.token?

section Tokens

variable {s : State ω} {w i : ℕ} {kind : JobType} {pc : WorkerPc ω} {t : WorkerThread ω}

/-- A job is taken from its queue. -/
lemma tokens_dequeue {q : List ℕ} (hq : s.queue kind = i :: q) :
    s.tokens.Perm ((i, kind, .taken i) ::
      State.tokens { s with queue := Function.update s.queue kind q }) := by
  classical
  refine List.perm_iff_count.mpr fun t => ?_
  cases kind <;>
    simp [State.tokens, State.queueTokens, Function.update, hq, List.count_cons] <;> omega

/-- A job is put on a queue. -/
lemma tokens_enqueue (s : State ω) (kind : JobType) (i : ℕ) :
    (s.enqueue kind i).tokens.Perm ((i, kind, .taken i) :: s.tokens) := by
  classical
  refine List.perm_iff_count.mpr fun t => ?_
  cases kind <;>
    simp [State.tokens, State.queueTokens, State.enqueue, Function.update, List.count_cons] <;>
      omega

/-- A worker moves. -/
lemma tokens_setWorker (hw : s.workers[w]? = some t) (kind : JobType) (pc : WorkerPc ω) :
    ((s.setWorker w kind pc).tokens ++ t.token?.toList).Perm
      (s.tokens ++ (WorkerThread.token? ⟨kind, pc⟩).toList) := by
  rw [State.tokens, State.tokens, List.append_assoc _ _ t.token?.toList,
    List.append_assoc _ (s.workers.filterMap _)]
  exact (Pool.filterMap_set_perm WorkerThread.token? ⟨kind, pc⟩ hw).append_left _

/-- A worker without a job gets one. -/
lemma tokens_gain (hw : s.workers[w]? = some t) (hidle : t.pc.job? = none)
    (hjob : pc.job? = some i) :
    (s.setWorker w kind pc).tokens.Perm ((i, kind, pc) :: s.tokens) := by
  have h := tokens_setWorker hw kind pc
  rw [WorkerThread.token?, hidle, WorkerThread.token?, hjob] at h
  simp only [Option.map_none, Option.map_some, Option.toList_none, Option.toList_some,
    List.append_nil] at h
  exact h.trans (List.perm_append_singleton _ _)

/-- A worker gives its job away. -/
lemma tokens_lose (hw : s.workers[w]? = some t) (hjob : t.pc.job? = some i)
    (hidle : pc.job? = none) :
    s.tokens.Perm ((i, t.kind, t.pc) :: (s.setWorker w kind pc).tokens) := by
  have h := tokens_setWorker hw kind pc
  rw [WorkerThread.token?, hjob, WorkerThread.token?, hidle] at h
  simp only [Option.map_none, Option.map_some, Option.toList_none, Option.toList_some,
    List.append_nil] at h
  exact h.symm.trans (List.perm_append_singleton _ _)

/-- A worker without a job moves. -/
lemma tokens_idle (hw : s.workers[w]? = some t) (hidle : t.pc.job? = none)
    (hidle' : pc.job? = none) : (s.setWorker w kind pc).tokens.Perm s.tokens := by
  have h := tokens_setWorker hw kind pc
  rw [WorkerThread.token?, hidle, WorkerThread.token?, hidle'] at h
  simpa using h

/-- A worker that has given its job away gets one. -/
lemma tokens_regain (hw : s.workers[w]? = some t) (hjob : pc.job? = some i) :
    (s.setWorker w kind pc).tokens.Perm
      ((i, kind, pc) :: (s.setWorker w kind .leaving).tokens) := by
  have hset : s.setWorker w kind pc = (s.setWorker w kind .leaving).setWorker w kind pc := by
    simp [State.setWorker]
  have hidle : (s.setWorker w kind .leaving).workers[w]? = some ⟨kind, .leaving⟩ :=
    List.getElem?_set_self (List.getElem?_eq_some_iff.mp hw).1
  rw [hset]
  exact tokens_gain hidle rfl hjob

end Tokens

section Invariant

variable (R : Registry φ) (H : Handlers φ ω)

/-- **The invariant**: a job is in one place, what remains of it there leads to the details that the
process-based server ends with, and the other calls but those in `out` are over. -/
structure Tracked (s : State ω) (out : Option ℕ) : Prop where
  nodup : (s.tokens.map Prod.fst).Nodup
  holds : ∀ t ∈ s.tokens, ∃ c, s.calls[t.1]? = some c ∧ Holding R H c t.2.1 t.2.2
  settled : ∀ i c, s.calls[i]? = some c → out ≠ some i → i ∈ s.tokens.map Prod.fst ∨ Standing R H c
  apart : ∀ i, out = some i → i ∉ s.tokens.map Prod.fst

variable {R H} {s s' : State ω} {c c' : Call ω} {i w : ℕ} {kind : JobType} {pc : WorkerPc ω}

/-- A job leaves its place. -/
lemma Tracked.release (h : Tracked R H s none) {t : ℕ × JobType × WorkerPc ω}
    (hperm : s.tokens.Perm (t :: s'.tokens)) (hcalls : s'.calls = s.calls) :
    Tracked R H s' (some t.1) ∧ ∃ c, s.calls[t.1]? = some c ∧ Holding R H c t.2.1 t.2.2 := by
  have hmap := hperm.map Prod.fst
  obtain ⟨hnew, hnodup⟩ := List.nodup_cons.mp (hmap.nodup_iff.mp h.nodup)
  refine ⟨⟨hnodup, fun u hu => ?_, fun i c hi hout => ?_, fun i hi => ?_⟩,
    h.holds t (hperm.mem_iff.mpr List.mem_cons_self)⟩
  · rw [hcalls]
    exact h.holds u (hperm.mem_iff.mpr (List.mem_cons_of_mem _ hu))
  · rw [hcalls] at hi
    rcases h.settled i c hi (by simp) with hmem | hover
    · rcases List.mem_cons.mp (hmap.mem_iff.mp hmem) with rfl | hmem
      · exact absurd rfl hout
      · exact .inl hmem
    · exact .inr hover
  · obtain rfl := Option.some.inj hi
    exact hnew

/-- The places of the other jobs. -/
lemma Tracked.holds_set (h : Tracked R H s (some i)) (hcalls : s'.calls = s.calls.set i c')
    {t : ℕ × JobType × WorkerPc ω} (ht : t ∈ s.tokens) :
    ∃ c, s'.calls[t.1]? = some c ∧ Holding R H c t.2.1 t.2.2 := by
  have hne : i ≠ t.1 := by
    rintro rfl
    exact h.apart _ rfl (List.mem_map.mpr ⟨t, ht, rfl⟩)
  rw [hcalls, List.getElem?_set_ne hne]
  exact h.holds t ht

/-- A job gets a place. -/
lemma Tracked.place (h : Tracked R H s (some i)) (hi : s.calls[i]? = some c)
    (hcalls : s'.calls = s.calls.set i c') (hperm : s'.tokens.Perm ((i, kind, pc) :: s.tokens))
    (hold : Holding R H c' kind pc) : Tracked R H s' none := by
  have hmap := hperm.map Prod.fst
  refine ⟨hmap.nodup_iff.mpr (List.nodup_cons.mpr ⟨h.apart i rfl, h.nodup⟩), fun t ht => ?_,
    fun k c hk _ => ?_, fun _ hk => (by cases hk)⟩
  · rcases List.mem_cons.mp (hperm.mem_iff.mp ht) with rfl | ht
    · refine ⟨c', ?_, hold⟩
      rw [hcalls]
      exact List.getElem?_set_self (List.getElem?_eq_some_iff.mp hi).1
    · exact h.holds_set hcalls ht
  · rw [hcalls] at hk
    rcases Pool.getElem?_set_eq_some hk with ⟨rfl, -⟩ | ⟨hne, hk⟩
    · exact .inl (hmap.mem_iff.mpr List.mem_cons_self)
    · have hout : some i ≠ some k := fun heq => hne (Option.some.inj heq).symm
      rcases h.settled k c hk hout with hmem | hover
      · exact .inl (hmap.mem_iff.mpr (List.mem_cons_of_mem _ hmem))
      · exact .inr hover

/-- A job is over. -/
lemma Tracked.settle (h : Tracked R H s (some i)) (hcalls : s'.calls = s.calls.set i c')
    (hperm : s'.tokens.Perm s.tokens) (hover : Standing R H c') : Tracked R H s' none := by
  have hmap := hperm.map Prod.fst
  refine ⟨hmap.nodup_iff.mpr h.nodup, fun t ht => h.holds_set hcalls (hperm.mem_iff.mp ht),
    fun k c hk _ => ?_, fun _ hk => (by cases hk)⟩
  rw [hcalls] at hk
  rcases Pool.getElem?_set_eq_some hk with ⟨-, rfl⟩ | ⟨hne, hk⟩
  · exact .inr hover
  · have hout : some i ≠ some k := fun heq => hne (Option.some.inj heq).symm
    rcases h.settled k c hk hout with hmem | hover
    · exact .inl (hmap.mem_iff.mpr hmem)
    · exact .inr hover

/-! ### Steps of the workers -/

/-- What a step of a worker does. -/
lemma workerStep_cases (hstep : workerStep R H s w kind pc = some s') :
    (∃ i q, pc = .waiting ∧ s.queue kind = i :: q ∧ s' =
      State.setWorker { s with queue := Function.update s.queue kind q } w kind (.taken i)) ∨
    (∃ i, pc = .putting i ∧ s' = (s.enqueue (nextQueue kind) i).setWorker w kind .leaving) ∨
    (pc = .leaving ∧ s' = s.setWorker w kind .waiting) ∨
    ∃ i c x, pc.job? = some i ∧ s.calls[i]? = some c ∧
      workOn R H i kind c.details pc = some x ∧
      s' = (s.setDetails i c x.1).setWorker w kind x.2 := by
  unfold workerStep at hstep
  split at hstep
  · split at hstep
    · cases hstep
    · rename_i i q hq
      exact .inl ⟨i, q, rfl, hq, (Option.some.inj hstep).symm⟩
  · rename_i i
    exact .inr (.inl ⟨i, rfl, (Option.some.inj hstep).symm⟩)
  · exact .inr (.inr (.inl ⟨rfl, (Option.some.inj hstep).symm⟩))
  · obtain ⟨i, hjob, hstep⟩ := Option.bind_eq_some_iff.mp hstep
    obtain ⟨c, hc, hstep⟩ := Option.bind_eq_some_iff.mp hstep
    obtain ⟨x, hx, rfl⟩ := Option.map_eq_some_iff.mp hstep
    exact .inr (.inr (.inr ⟨i, c, x, hjob, hc, hx, rfl⟩))

/-- A call that stays as it is. -/
lemma set_getElem?_self {cs : List (Call ω)} (hi : cs[i]? = some c) : cs.set i c = cs := by
  obtain ⟨hlt, rfl⟩ := List.getElem?_eq_some_iff.mp hi
  exact List.set_getElem_self hlt

/-- The worker is in the `finally` block. -/
def WorkerPc.isLeaving : WorkerPc ω → Bool
  | .leaving => true
  | _ => false

/-- How far the jobs are from their ends. -/
def State.tokenCost (s : State ω) : ℕ := (s.tokens.map fun t => cost t.2.1 t.2.2).sum

/-- The number of jobs on the queues. -/
def State.queued (s : State ω) : ℕ :=
  (s.queue .init).length + (s.queue .run).length + (s.queue .eval).length

/-- The number of workers in the `finally` block. -/
def State.leaving (s : State ω) : ℕ := s.workers.countP fun t => t.pc.isLeaving

/-- How much the workers still have to do. -/
def State.load (s : State ω) : ℕ := s.tokenCost + s.queued + s.leaving

/-- The cost of the jobs does not depend on their order. -/
lemma tokenCost_eq {ts : List (ℕ × JobType × WorkerPc ω)} (h : s.tokens.Perm ts) :
    s.tokenCost = (ts.map fun t => cost t.2.1 t.2.2).sum :=
  (h.map fun t : ℕ × JobType × WorkerPc ω => cost t.2.1 t.2.2).sum_eq

/-- A worker moves. -/
lemma leaving_setWorker (hw : s.workers[w]? = some ⟨kind, pc⟩) (pc' : WorkerPc ω) :
    (s.setWorker w kind pc').leaving + pc.isLeaving.toNat = s.leaving + pc'.isLeaving.toNat :=
  Pool.countP_set_add (fun t : WorkerThread ω => t.pc.isLeaving) ⟨kind, pc'⟩ hw

/-- What a step of a worker keeps. -/
structure WorkerKeeps (R : Registry φ) (H : Handlers φ ω) (s s' : State ω) : Prop where
  tracked : Tracked R H s' none
  load : s'.load < s.load
  jobs : s'.calls.map Call.job = s.calls.map Call.job
  kinds : s'.workers.map WorkerThread.kind = s.workers.map WorkerThread.kind
  /-- A worker ends only with a job whose exception function raises. -/
  crashed : ∀ t ∈ s'.workers, t.pc = .crashed → t ∈ s.workers ∨ ∃ job ∈ s.calls.map Call.job,
    (∃ name, checkRegistered R job = .ok name) ∧ ∃ e, finalDetails R H job = .error e

/-- The kinds of the workers stay. -/
lemma kinds_setWorker (hw : s.workers[w]? = some ⟨kind, pc⟩) (pc' : WorkerPc ω) :
    (s.setWorker w kind pc').workers.map WorkerThread.kind =
      s.workers.map WorkerThread.kind := by
  refine List.ext_getElem? fun k => ?_
  rw [List.getElem?_map, List.getElem?_map]
  by_cases hk : w = k
  · subst hk
    have hlt := (List.getElem?_eq_some_iff.mp hw).1
    rw [State.setWorker, List.getElem?_set_self hlt, hw]
    rfl
  · rw [State.setWorker, List.getElem?_set_ne hk]

/-- A worker that has just moved has not ended, or it is the one that has. -/
lemma crashed_setWorker {pc' : WorkerPc ω} {t : WorkerThread ω}
    (ht : t ∈ (s.setWorker w kind pc').workers) (hcrashed : t.pc = .crashed)
    (hpc : pc' ≠ .crashed) : t ∈ s.workers := by
  rcases List.mem_or_eq_of_mem_set ht with ht | rfl
  · exact ht
  · exact absurd hcrashed hpc

/-- Every place of a job is a way from the end. -/
lemma two_le_cost (hjob : pc.job? = some i) : 2 ≤ cost kind pc := by
  cases pc <;> cases kind <;> simp [cost, WorkerPc.job?] at hjob ⊢

/-- A worker takes a job. -/
lemma Tracked.take (h : Tracked R H s none) (hw : s.workers[w]? = some ⟨kind, .waiting⟩)
    {q : List ℕ} (hq : s.queue kind = i :: q) :
    WorkerKeeps R H s
      (State.setWorker { s with queue := Function.update s.queue kind q } w kind (.taken i)) := by
  have hdequeue := tokens_dequeue hq
  obtain ⟨hout, c, hc, hold⟩ := h.release hdequeue rfl
  have hgain : (State.setWorker { s with queue := Function.update s.queue kind q } w kind
      (.taken i)).tokens.Perm
      ((i, kind, .taken i) :: State.tokens { s with queue := Function.update s.queue kind q }) :=
    tokens_gain hw rfl rfl
  refine ⟨hout.place hc (set_getElem?_self hc).symm hgain hold, ?_, rfl, kinds_setWorker hw _,
    fun t ht hcrashed => ?_⟩
  · have hcost : (State.setWorker { s with queue := Function.update s.queue kind q } w kind
        (.taken i)).tokenCost = s.tokenCost := tokenCost_eq (hgain.trans hdequeue.symm)
    have hleaving : (State.setWorker { s with queue := Function.update s.queue kind q } w kind
        (.taken i)).leaving = s.leaving := leaving_setWorker hw _
    have hqueued : State.queued { s with queue := Function.update s.queue kind q } + 1 =
        s.queued := by
      cases kind <;> simp [State.queued, Function.update, hq] <;> omega
    have hload : State.queued (State.setWorker { s with queue := Function.update s.queue kind q } w
        kind (.taken i)) + 1 = s.queued := hqueued
    unfold State.load
    omega
  · exact .inl (crashed_setWorker ht hcrashed (by simp))

/-- A worker passes its job on. -/
lemma Tracked.put (h : Tracked R H s none) (hw : s.workers[w]? = some ⟨kind, .putting i⟩) :
    WorkerKeeps R H s ((s.enqueue (nextQueue kind) i).setWorker w kind .leaving) := by
  have hlose : s.tokens.Perm
      ((i, kind, .putting i) :: (s.setWorker w kind .leaving).tokens) := tokens_lose hw rfl rfl
  obtain ⟨hout, c, hc, hold⟩ := h.release hlose rfl
  have hgain := tokens_enqueue (s.setWorker w kind .leaving) (nextQueue kind) i
  have hnext : Holding R H c (nextQueue kind) (.taken i) :=
    ⟨hold.accepted, hold.waiting, hold.unset, hold.inst, rfl, hold.remaining⟩
  refine ⟨hout.place hc (set_getElem?_self hc).symm hgain hnext, ?_, rfl, kinds_setWorker hw _,
    fun t ht hcrashed => ?_⟩
  · have hcost : s.tokenCost = cost kind (.putting i : WorkerPc ω) +
        (s.setWorker w kind .leaving).tokenCost := tokenCost_eq hlose
    have hcost' : ((s.enqueue (nextQueue kind) i).setWorker w kind .leaving).tokenCost =
        cost (nextQueue kind) (.taken i : WorkerPc ω) + (s.setWorker w kind .leaving).tokenCost :=
      tokenCost_eq hgain
    have hless : cost (nextQueue kind) (.taken i : WorkerPc ω) + 2 <
        cost kind (.putting i : WorkerPc ω) := by
      have hkind : kind ≠ .eval := of_decide_eq_true hold.fits
      cases kind <;> simp [cost, nextQueue] at hkind ⊢
    have hleaving : ((s.enqueue (nextQueue kind) i).setWorker w kind .leaving).leaving =
        s.leaving + 1 := leaving_setWorker hw _
    have hqueued : ((s.enqueue (nextQueue kind) i).setWorker w kind .leaving).queued =
        s.queued + 1 := by
      cases kind <;>
        simp [State.queued, State.setWorker, State.enqueue, nextQueue, Function.update] <;> omega
    unfold State.load
    omega
  · exact .inl (crashed_setWorker ht hcrashed (by simp))

/-- A worker leaves the `finally` block. -/
lemma Tracked.leave (h : Tracked R H s none) (hw : s.workers[w]? = some ⟨kind, .leaving⟩) :
    WorkerKeeps R H s (s.setWorker w kind .waiting) := by
  have hidle : (s.setWorker w kind .waiting).tokens.Perm s.tokens := tokens_idle hw rfl rfl
  have hmap := hidle.map Prod.fst
  refine ⟨⟨hmap.nodup_iff.mpr h.nodup, fun t ht => h.holds t (hidle.mem_iff.mp ht),
    fun k c hk hout => ?_, fun k hk => (by cases hk)⟩, ?_, rfl, kinds_setWorker hw _,
    fun t ht hcrashed => ?_⟩
  · rcases h.settled k c hk hout with hmem | hover
    · exact .inl (hmap.mem_iff.mpr hmem)
    · exact .inr hover
  · have hcost : (s.setWorker w kind .waiting).tokenCost = s.tokenCost := tokenCost_eq hidle
    have hleaving : (s.setWorker w kind .waiting).leaving + 1 = s.leaving := leaving_setWorker hw _
    have hqueued : (s.setWorker w kind .waiting).queued = s.queued := rfl
    unfold State.load
    omega
  · exact .inl (crashed_setWorker ht hcrashed (by simp))

/-- A worker works on its job. -/
lemma Tracked.work (h : Tracked R H s none) (hw : s.workers[w]? = some ⟨kind, pc⟩)
    (hjob : pc.job? = some i) (hc : s.calls[i]? = some c) {d' : Details ω} {pc' : WorkerPc ω}
    (hstep : workOn R H i kind c.details pc = some (d', pc')) :
    WorkerKeeps R H s ((s.setDetails i c d').setWorker w kind pc') := by
  have hlose : s.tokens.Perm ((i, kind, pc) :: (s.setWorker w kind .leaving).tokens) :=
    tokens_lose hw hjob rfl
  obtain ⟨hout, c₀, hc₀, hold⟩ := h.release hlose rfl
  obtain rfl : c₀ = c := Option.some.inj (hc₀.symm.trans hc)
  have hjobs : ((s.setDetails i c₀ d').setWorker w kind pc').calls.map Call.job =
      s.calls.map Call.job := by
    refine List.ext_getElem? fun k => ?_
    rw [List.getElem?_map, List.getElem?_map]
    by_cases hk : i = k
    · subst hk
      have hlt := (List.getElem?_eq_some_iff.mp hc).1
      rw [State.setWorker, State.setDetails, List.getElem?_set_self hlt, hc]
      rfl
    · rw [State.setWorker, State.setDetails, List.getElem?_set_ne hk]
  have hcost : s.tokenCost = cost kind pc + (s.setWorker w kind .leaving).tokenCost :=
    tokenCost_eq hlose
  have hqueued : ((s.setDetails i c₀ d').setWorker w kind pc').queued = s.queued := rfl
  have hleaving : ((s.setDetails i c₀ d').setWorker w kind pc').leaving + pc.isLeaving.toNat =
      s.leaving + pc'.isLeaving.toNat := leaving_setWorker hw _
  have hidle : pc.isLeaving = false := by
    cases pc <;> simp [WorkerPc.job?] at hjob <;> rfl
  rw [hidle, Bool.toNat_false, Nat.add_zero] at hleaving
  have hsteps : StepsTo R H c₀ kind i pc d' pc' := workOn_stepsTo hold hjob hstep
  rcases hsteps with ⟨hjob', hold', hless⟩ | ⟨rfl, hover⟩ | ⟨rfl, hover, e, hfinal⟩
  · -- The worker keeps the job.
    have hgain : ((s.setDetails i c₀ d').setWorker w kind pc').tokens.Perm
        ((i, kind, pc') :: (s.setWorker w kind .leaving).tokens) := tokens_regain hw hjob'
    have hcost' : ((s.setDetails i c₀ d').setWorker w kind pc').tokenCost =
        cost kind pc' + (s.setWorker w kind .leaving).tokenCost := tokenCost_eq hgain
    have hidle' : pc'.isLeaving = false := by
      cases pc' <;> simp [WorkerPc.job?] at hjob' <;> rfl
    rw [hidle', Bool.toNat_false, Nat.add_zero] at hleaving
    refine ⟨hout.place hc rfl hgain hold', ?_, hjobs, kinds_setWorker hw _,
      fun t ht hcrashed => .inl (crashed_setWorker ht hcrashed ?_)⟩
    · unfold State.load
      omega
    · rintro rfl
      cases hjob'
  · -- The event of the job is set.
    have hcost' : ((s.setDetails i c₀ d').setWorker w kind .leaving).tokenCost =
        (s.setWorker w kind .leaving).tokenCost := rfl
    have htwo : 2 ≤ cost kind pc := two_le_cost hjob
    refine ⟨hout.settle rfl (List.Perm.refl _) hover, ?_, hjobs, kinds_setWorker hw _,
      fun t ht hcrashed => .inl (crashed_setWorker ht hcrashed (by simp))⟩
    rw [WorkerPc.isLeaving, Bool.toNat_true] at hleaving
    unfold State.load
    omega
  · -- The worker has ended with an exception.
    have hset : (s.setWorker w kind .crashed).tokens.Perm (s.setWorker w kind .leaving).tokens := by
      have hset : s.setWorker w kind .crashed =
          (s.setWorker w kind .leaving).setWorker w kind .crashed := by
        simp [State.setWorker]
      rw [hset]
      exact tokens_idle (List.getElem?_set_self (List.getElem?_eq_some_iff.mp hw).1) rfl rfl
    have hcost' : ((s.setDetails i c₀ d').setWorker w kind .crashed).tokenCost =
        (s.setWorker w kind .leaving).tokenCost := tokenCost_eq hset
    have htwo : 2 ≤ cost kind pc := two_le_cost hjob
    refine ⟨hout.settle rfl hset hover, ?_, hjobs, kinds_setWorker hw _, fun t _ _ => .inr ?_⟩
    · rw [WorkerPc.isLeaving, Bool.toNat_false] at hleaving
      · unfold State.load
        omega
      · simp
    · exact ⟨c₀.job, List.mem_map.mpr ⟨c₀, List.mem_of_getElem? hc, rfl⟩, ⟨_, hold.accepted⟩, e,
        hfinal⟩

/-- **The step lemma of the workers**. -/
lemma workerStep_keeps (h : Tracked R H s none) (hw : s.workers[w]? = some ⟨kind, pc⟩)
    (hstep : workerStep R H s w kind pc = some s') : WorkerKeeps R H s s' := by
  rcases workerStep_cases hstep with ⟨i, q, rfl, hq, rfl⟩ | ⟨i, rfl, rfl⟩ | ⟨rfl, rfl⟩ |
    ⟨i, c, ⟨d', pc'⟩, hjob, hc, hwork, rfl⟩
  · exact h.take hw hq
  · exact h.put hw
  · exact h.leave hw
  · exact h.work hw hjob hc hwork

/-! ### Steps of the calls -/

/-- A job that is over leaves nothing behind. -/
lemma Tracked.forget (h : Tracked R H s none) (hi : i ∉ s.tokens.map Prod.fst) :
    Tracked R H s (some i) :=
  ⟨h.nodup, h.holds, fun k c hk _ => h.settled k c hk (by simp), fun k hk =>
    Option.some.inj hk ▸ hi⟩

/-- A new call. -/
lemma Tracked.append (h : Tracked R H s none) (c : Call ω) :
    Tracked R H { s with calls := s.calls ++ [c] } (some s.calls.length) := by
  have hlt : ∀ t ∈ s.tokens, t.1 < s.calls.length := by
    intro t ht
    obtain ⟨c', hc', -⟩ := h.holds t ht
    exact (List.getElem?_eq_some_iff.mp hc').1
  refine ⟨h.nodup, fun t ht => ?_, fun k c' hk hout => ?_, fun k hk hmem => ?_⟩
  · rw [List.getElem?_append_left (hlt t ht)]
    exact h.holds t ht
  · rcases Nat.lt_or_ge k s.calls.length with hk' | hk'
    · rw [List.getElem?_append_left hk'] at hk
      exact h.settled k c' hk (by simp)
    · have hle := (List.getElem?_eq_some_iff.mp hk).1
      rw [List.length_append, List.length_singleton] at hle
      exact absurd (congrArg some (by omega : s.calls.length = k)) hout
  · obtain rfl := Option.some.inj hk
    obtain ⟨t, ht, heq⟩ := List.mem_map.mp hmem
    exact absurd (hlt t ht) (by omega)

/-- A call that waits with its event set has the details that the process-based server ends
with. -/
lemma Tracked.done_of_event (h : Tracked R H s none) (hi : s.calls[i]? = some c)
    (hpc : c.pc = .waiting) (hset : c.details.event = true) :
    i ∉ s.tokens.map Prod.fst ∧ checkRegistered R c.job = .ok c.datasetType ∧
      finalDetails R H c.job = .ok c.details ∧ c.details.inst = c.job.inst := by
  have hnot : i ∉ s.tokens.map Prod.fst := by
    intro hmem
    obtain ⟨t, ht, rfl⟩ := List.mem_map.mp hmem
    obtain ⟨c', hc', hold⟩ := h.holds t ht
    obtain rfl := Option.some.inj (hc'.symm.trans hi)
    exact absurd (hset.symm.trans hold.unset) (by decide)
  rcases h.settled i c hi (by simp) with hmem | hover
  · exact absurd hmem hnot
  · cases hover with
    | rejected e _ hpc' => exact absurd (hpc.symm.trans hpc') (by simp)
    | done hcheck hfinal _ hinst _ => exact ⟨hnot, hcheck, hfinal, hinst⟩
    | lost e _ _ hunset _ => exact absurd (hset.symm.trans hunset) (by decide)

/-- A `process` call makes its result. -/
lemma Tracked.finish (h : Tracked R H s none) (hi : s.calls[i]? = some c) (hpc : c.pc = .waiting)
    (hset : c.details.event = true) (timing : PyVal) :
    Tracked R H { s with calls := s.calls.set i { c with pc := makeResult R H timing c } }
      none := by
  obtain ⟨hnot, hcheck, hfinal, hinst⟩ := h.done_of_event hi hpc hset
  exact (h.forget hnot).settle rfl (List.Perm.refl _)
    (.done hcheck hfinal hset hinst (.inr ⟨timing, rfl⟩))

/-- A `process` call begins. -/
lemma Tracked.submit (h : Tracked R H s none) {job : JobRequest ω}
    (hstep : step R H s (.submit job) = some s') : Tracked R H s' none := by
  have hlast : ∀ c : Call ω, (s.calls ++ [c])[s.calls.length]? = some c := fun c =>
    List.getElem?_concat_length
  have hself : ∀ c : Call ω, s.calls ++ [c] = (s.calls ++ [c]).set s.calls.length c := fun c =>
    (set_getElem?_self (hlast c)).symm
  simp only [step] at hstep
  split at hstep
  · rename_i e hcheck
    obtain rfl := Option.some.inj hstep
    exact (h.append _).settle (hself _) (List.Perm.refl _) (.rejected e hcheck rfl)
  · rename_i name hcheck
    obtain rfl := Option.some.inj hstep
    exact (h.append _).place (hlast _) (hself _) (tokens_enqueue _ .init s.calls.length)
      ⟨hcheck, rfl, rfl, rfl, rfl, rfl⟩

end Invariant

/-! ## Runs of the threaded server -/

section Runs

variable (R : Registry φ) (H : Handlers φ ω)

/-- The job is accepted, and an exception function raises on the way. -/
def Breaks (job : JobRequest ω) : Prop :=
  (∃ name, checkRegistered R job = .ok name) ∧ ∃ e, finalDetails R H job = .error e

/-- No job of the server ends a worker. -/
def Undisturbed (s : State ω) : Prop := ∀ job ∈ s.calls.map Call.job, ¬ Breaks R H job

/-- What every run keeps. -/
structure Sound (kinds : List JobType) (s : State ω) : Prop where
  tracked : Tracked R H s none
  kinds : s.workers.map WorkerThread.kind = kinds
  crashed : ∀ t ∈ s.workers, t.pc = .crashed → ∃ job ∈ s.calls.map Call.job, Breaks R H job

variable {R H} {s s' : State ω} {c : Call ω} {i w : ℕ} {kinds : List JobType}

/-- A step of a worker. -/
lemma Sound.work {kind : JobType} {pc : WorkerPc ω} (h : Sound R H kinds s)
    (hw : s.workers[w]? = some ⟨kind, pc⟩) (hstep : workerStep R H s w kind pc = some s') :
    Sound R H kinds s' ∧ s'.load < s.load ∧ s'.calls.map Call.job = s.calls.map Call.job := by
  have hkeeps := workerStep_keeps h.tracked hw hstep
  refine ⟨⟨hkeeps.tracked, hkeeps.kinds.trans h.kinds, fun t ht hcrashed => ?_⟩, hkeeps.load,
    hkeeps.jobs⟩
  rw [hkeeps.jobs]
  rcases hkeeps.crashed t ht hcrashed with ht | hbreaks
  · exact h.crashed t ht hcrashed
  · exact hbreaks

/-- The end of a call changes no job. -/
lemma jobs_finish (hi : s.calls[i]? = some c) (pc : CallPc) :
    (s.calls.set i { c with pc := pc }).map Call.job = s.calls.map Call.job := by
  rw [List.map_set]
  refine List.ext_getElem? fun k => ?_
  by_cases hk : i = k
  · subst hk
    have hlt : i < (s.calls.map Call.job).length := by
      simpa using (List.getElem?_eq_some_iff.mp hi).1
    rw [List.getElem?_set_self hlt, List.getElem?_map, hi]
    rfl
  · rw [List.getElem?_set_ne hk]

/-- A `process` call adds a call and leaves the workers alone. -/
lemma submit_cases {job : JobRequest ω} (hstep : step R H s (.submit job) = some s') :
    ∃ c, s'.calls = s.calls ++ [c] ∧ s'.workers = s.workers := by
  simp only [step] at hstep
  split at hstep
  · obtain rfl := Option.some.inj hstep
    exact ⟨_, rfl, rfl⟩
  · obtain rfl := Option.some.inj hstep
    exact ⟨_, rfl, rfl⟩

/-- **The step lemma**: every step of the threaded server keeps what every run keeps. -/
theorem step_sound (h : Sound R H kinds s) {l : Label ω} (hstep : step R H s l = some s') :
    Sound R H kinds s' := by
  cases l with
  | submit job =>
    obtain ⟨c, hcalls, hworkers⟩ := submit_cases hstep
    refine ⟨h.tracked.submit hstep, by rw [hworkers, h.kinds], fun t ht hcrashed => ?_⟩
    rw [hworkers] at ht
    obtain ⟨job, hjob, hbreaks⟩ := h.crashed t ht hcrashed
    rw [hcalls, List.map_append]
    exact ⟨job, List.mem_append_left _ hjob, hbreaks⟩
  | finish i timing =>
    obtain ⟨c, hc, hstep⟩ := Option.bind_eq_some_iff.mp hstep
    split at hstep
    · rename_i hpc
      split at hstep
      · rename_i hset
        obtain rfl := Option.some.inj hstep
        refine ⟨h.tracked.finish hc hpc hset timing, h.kinds, fun t ht hcrashed => ?_⟩
        rw [jobs_finish hc]
        exact h.crashed t ht hcrashed
      · cases hstep
    · cases hstep
  | work w =>
    obtain ⟨t, hw, hstep⟩ := Option.bind_eq_some_iff.mp hstep
    exact (h.work hw hstep).1

/-- Calls are added at the end and keep their jobs. -/
lemma step_jobs (h : Sound R H kinds s) {l : Label ω} (hstep : step R H s l = some s') :
    s.calls.map Call.job <+: s'.calls.map Call.job := by
  cases l with
  | submit job =>
    obtain ⟨c, hcalls, -⟩ := submit_cases hstep
    rw [hcalls, List.map_append]
    exact List.prefix_append _ _
  | finish i timing =>
    obtain ⟨c, hc, hstep⟩ := Option.bind_eq_some_iff.mp hstep
    split at hstep
    · split at hstep
      · obtain rfl := Option.some.inj hstep
        rw [jobs_finish hc]
      · cases hstep
    · cases hstep
  | work w =>
    obtain ⟨t, hw, hstep⟩ := Option.bind_eq_some_iff.mp hstep
    rw [(h.work hw hstep).2.2]

/-- The threaded server after `start`. -/
lemma sound_initState (kinds : List JobType) : Sound R H kinds (initState kinds) := by
  have hidle : (initState kinds : State ω).workers.filterMap WorkerThread.token? = [] := by
    refine List.filterMap_eq_nil_iff.mpr fun t ht => ?_
    obtain ⟨kind, -, rfl⟩ := List.mem_map.mp ht
    rfl
  have htokens : (initState kinds : State ω).tokens = [] := by
    rw [State.tokens, hidle]
    rfl
  refine ⟨⟨?_, fun t ht => ?_, fun _ _ hi => (by cases hi), fun _ hi => (by cases hi)⟩, ?_,
    fun t ht hcrashed => ?_⟩
  · rw [htokens]
    exact List.nodup_nil
  · rw [htokens] at ht
    cases ht
  · simp [initState, Function.comp_def]
  · obtain ⟨kind, -, rfl⟩ := List.mem_map.mp ht
    cases hcrashed

/-! ### Every job gets its result -/

/-- A worker with a job, or in the `finally` block, can go on. -/
lemma exists_workerStep {kind : JobType} {pc : WorkerPc ω} (h : Tracked R H s none)
    (hw : s.workers[w]? = some ⟨kind, pc⟩) (hwaiting : pc ≠ .waiting) (hcrashed : pc ≠ .crashed) :
    ∃ s', workerStep R H s w kind pc = some s' := by
  have hhold : ∀ {i : ℕ}, pc.job? = some i →
      ∃ c, s.calls[i]? = some c ∧ Holding R H c kind pc := by
    intro i hjob
    refine h.holds (i, kind, pc) (List.mem_append_right _ ?_)
    refine List.mem_filterMap.mpr ⟨⟨kind, pc⟩, List.mem_of_getElem? hw, ?_⟩
    rw [WorkerThread.token?, hjob]
    rfl
  cases pc with
  | waiting => exact absurd rfl hwaiting
  | crashed => exact absurd rfl hcrashed
  | leaving => exact ⟨_, rfl⟩
  | putting i => exact ⟨_, rfl⟩
  | taken i | caught i e =>
    obtain ⟨c, hc, hold⟩ := hhold rfl
    simp [workerStep, WorkerPc.job?, hc, workOn, hold.datasetType_eq]
  | initialized i runtime metadata config | ran i results | evaluated i report | setting i =>
    obtain ⟨c, hc, hold⟩ := hhold rfl
    simp [workerStep, WorkerPc.job?, hc, workOn]

/-- While a job is on a queue or with a worker, some worker can move. -/
lemma Sound.exists_step (h : Sound R H kinds s) (hkinds : ∀ kind, kind ∈ kinds)
    (hundisturbed : Undisturbed R H s) (htokens : s.tokens ≠ []) :
    ∃ w t s', s.workers[w]? = some t ∧ workerStep R H s w t.kind t.pc = some s' := by
  by_cases hbusy : ∃ t ∈ s.workers, t.pc ≠ .waiting
  · obtain ⟨⟨kind, pc⟩, ht, hpc⟩ := hbusy
    obtain ⟨w, hw⟩ := List.mem_iff_getElem?.mp ht
    have hcrashed : pc ≠ .crashed := by
      intro hcrashed
      obtain ⟨job, hjob, hbreaks⟩ := h.crashed _ ht hcrashed
      exact hundisturbed job hjob hbreaks
    obtain ⟨s', hs'⟩ := exists_workerStep h.tracked hw hpc hcrashed
    exact ⟨w, _, s', hw, hs'⟩
  · -- All workers wait, so there is a job on some queue.
    push Not at hbusy
    obtain ⟨kind, i, q, hq⟩ : ∃ kind i q, s.queue kind = i :: q := by
      by_contra hnone
      push Not at hnone
      have hempty : ∀ kind, s.queueTokens kind = [] := by
        intro kind
        cases hq : s.queue kind with
        | nil => simp [State.queueTokens, hq]
        | cons i q => exact absurd hq (hnone kind i q)
      refine htokens ?_
      rw [State.tokens, hempty, hempty, hempty]
      refine List.filterMap_eq_nil_iff.mpr fun t ht => ?_
      rw [WorkerThread.token?, hbusy t ht]
      rfl
    have hmem : kind ∈ s.workers.map WorkerThread.kind := h.kinds ▸ hkinds kind
    obtain ⟨⟨kind', pc⟩, ht, hkind⟩ := List.mem_map.mp hmem
    obtain rfl : kind' = kind := hkind
    obtain rfl : pc = .waiting := hbusy _ ht
    obtain ⟨w, hw⟩ := List.mem_iff_getElem?.mp ht
    have hstep : workerStep R H s w kind' .waiting = some (State.setWorker
        { s with queue := Function.update s.queue kind' q } w kind' (.taken i)) := by
      simp only [workerStep, hq]
    exact ⟨w, _, _, hw, hstep⟩

/-- **Every job is over some time**, when no job ends a worker. -/
lemma Sound.canSettle (h : Sound R H kinds s) (hkinds : ∀ kind, kind ∈ kinds)
    (hundisturbed : Undisturbed R H s) :
    Machine.CanReach (step R H) s fun t =>
      (Sound R H kinds t ∧ t.calls.map Call.job = s.calls.map Call.job) ∧ t.tokens = [] := by
  refine Machine.canReach_of_measure
    (fun t => Sound R H kinds t ∧ t.calls.map Call.job = s.calls.map Call.job) State.load
    (fun t ht => ?_) ⟨h, rfl⟩
  obtain ⟨hsound, hjobs⟩ := ht
  by_cases htokens : t.tokens = []
  · exact .inl htokens
  · have hundisturbed' : Undisturbed R H t := by
      unfold Undisturbed
      rw [hjobs]
      exact hundisturbed
    obtain ⟨w, worker, t', hw, hstep⟩ := hsound.exists_step hkinds hundisturbed' htokens
    obtain ⟨hsound', hless, hjobs'⟩ := hsound.work hw hstep
    refine .inr ⟨.work w, t', ?_, ⟨hsound', hjobs'.trans hjobs⟩, hless⟩
    simp only [step, hw, Option.bind_some, hstep]

end Runs

/-! ## Agreement -/

/-- The same result, timing aside. -/
def SameResult (result result' : ResultDict) : Prop :=
  result.erase "timing" = result'.erase "timing"

/-- **The two servers agree on a job**: in every run of the threaded server, whatever the functions
of the registry do, a result of the job is that of the process-based server; and if the
process-based server has a result, the threaded server comes to it, unless another job ends a
worker. -/
def ServersAgree (R : Registry φ) (job : JobRequest ω) : Prop :=
  ∀ (H : Handlers φ ω) (kinds : List JobType) (ls : List (Label ω)) (s : State ω),
    (∀ kind, kind ∈ kinds) → Machine.run (step R H) (initState kinds) ls = some s →
    ∀ (i : ℕ) (c : Call ω), s.calls[i]? = some c → c.job = job →
      (∀ result, c.pc = .returned result → ∀ timing, ∃ result',
        processServer R H timing job = .ok result' ∧ SameResult result result') ∧
      (Undisturbed R H s → ∀ timing result', processServer R H timing job = .ok result' →
        Machine.CanReach (step R H) s fun t => ∃ c result, t.calls[i]? = some c ∧
          Call.pc c = .returned result ∧ SameResult result result')

/-- **The condition**: the job is not accepted, or the table of its kind and the table of the
ordinary jobs have the same `final_result` for its data source. -/
def SameFinalResult (R : Registry φ) (job : JobRequest ω) : Prop :=
  ∀ name, checkRegistered R job = .ok name →
    R.getRegisteredFunctions .finalResult name job.isReasoningTask =
      R.getRegisteredFunctions .finalResult name

section Agreement

variable {R : Registry φ} {H : Handlers φ ω} {c : Call ω} {result : ResultDict}
  {timing timing' : PyVal}

/-- The timing is set aside. -/
lemma sameResult_set (result : ResultDict) (timing timing' : PyVal) :
    SameResult (result.set "timing" timing) (result.set "timing" timing') := by
  rw [SameResult, Dict.erase_set, Dict.erase_set]

/-- A result of the process-based server for a job whose phases are over. -/
lemma processServer_eq (hcheck : checkRegistered R c.job = .ok c.datasetType)
    (hfinal : finalDetails R H c.job = .ok c.details) (timing : PyVal) :
    processServer R H timing c.job = Worker.getResults R H timing c.details := by
  rw [processServer, hcheck]
  dsimp only
  rw [run_eq, hfinal]

/-- With one `final_result` the two servers make the same result of the same details. -/
lemma makeResult_eq_returned (hdata : datasetType c.details.inst = .ok c.datasetType)
    (hsame : R.getRegisteredFunctions .finalResult c.datasetType c.job.isReasoningTask =
      R.getRegisteredFunctions .finalResult c.datasetType) (timing timing' : PyVal) :
    (∀ result, makeResult R H timing c = .returned result → ∃ result',
      Worker.getResults R H timing' c.details = .ok result' ∧ SameResult result result') ∧
    (∀ result', Worker.getResults R H timing' c.details = .ok result' → ∃ result,
      makeResult R H timing c = .returned result ∧ SameResult result result') := by
  unfold makeResult Worker.getResults
  rw [hdata, hsame]
  dsimp only
  cases R.getRegisteredFunctions .finalResult c.datasetType with
  | none =>
    refine ⟨fun result hresult => ?_, fun result' hresult' => ?_⟩
    · obtain rfl := CallPc.returned.inj hresult
      exact ⟨_, rfl, sameResult_set _ _ _⟩
    · obtain rfl := Except.ok.inj hresult'
      exact ⟨_, rfl, sameResult_set _ _ _⟩
  | some finalResultFunc =>
    dsimp only
    cases H.finalResult finalResultFunc c.details with
    | error e => exact ⟨fun _ hresult => (by cases hresult), fun _ hresult' => (by cases hresult')⟩
    | ok result =>
      refine ⟨fun result hresult => ?_, fun result' hresult' => ?_⟩
      · obtain rfl := CallPc.returned.inj hresult
        exact ⟨_, rfl, sameResult_set _ _ _⟩
      · obtain rfl := Except.ok.inj hresult'
        exact ⟨_, rfl, sameResult_set _ _ _⟩

/-- A call that has returned. -/
lemma Tracked.of_returned {s : State ω} {i : ℕ} (h : Tracked R H s none)
    (hi : s.calls[i]? = some c) (hpc : c.pc = .returned result) :
    checkRegistered R c.job = .ok c.datasetType ∧ finalDetails R H c.job = .ok c.details ∧
      c.details.inst = c.job.inst ∧ ∃ timing, makeResult R H timing c = .returned result := by
  rcases h.settled i c hi (by simp) with hmem | hover
  · obtain ⟨t, ht, rfl⟩ := List.mem_map.mp hmem
    obtain ⟨c', hc', hold⟩ := h.holds t ht
    obtain rfl := Option.some.inj (hc'.symm.trans hi)
    exact absurd (hpc.symm.trans hold.waiting) (by simp)
  · cases hover with
    | rejected e _ hpc' => exact absurd (hpc.symm.trans hpc') (by simp)
    | lost e _ _ _ hpc' => exact absurd (hpc.symm.trans hpc') (by simp)
    | done hcheck hfinal _ hinst hpc' =>
      rcases hpc' with hpc' | ⟨timing, hpc'⟩
      · exact absurd (hpc.symm.trans hpc') (by simp)
      · exact ⟨hcheck, hfinal, hinst, timing, hpc'.symm.trans hpc⟩

/-- The servers agree when the two lookups do. -/
lemma serversAgree_of_sameFinalResult {job : JobRequest ω} (hsame : SameFinalResult R job) :
    ServersAgree R job := by
  intro H kinds ls s hkinds hrun i c hi hjob
  subst hjob
  have hsound : Sound R H kinds s :=
    Machine.run_invariant (Sound R H kinds) (fun s l s' h hstep => step_sound h hstep)
      (sound_initState kinds) hrun
  constructor
  · intro result hpc timing
    obtain ⟨hcheck, hfinal, hinst, timing₀, hmade⟩ := hsound.tracked.of_returned hi hpc
    have hdata : datasetType c.details.inst = .ok c.datasetType :=
      hinst ▸ datasetType_of_checkRegistered hcheck
    rw [processServer_eq hcheck hfinal]
    exact (makeResult_eq_returned hdata (hsame _ hcheck) timing₀ timing).1 result hmade
  · intro hundisturbed timing result' hprocess
    refine (hsound.canSettle hkinds hundisturbed).trans fun t ht => ?_
    obtain ⟨⟨hsound', hjobs⟩, htokens⟩ := ht
    -- The call is still there, and its job is over.
    obtain ⟨c', hc', hjob⟩ : ∃ c', t.calls[i]? = some c' ∧ c'.job = c.job := by
      have hmap : (t.calls.map Call.job)[i]? = some c.job := by
        rw [hjobs, List.getElem?_map, hi]
        rfl
      rw [List.getElem?_map] at hmap
      exact Option.map_eq_some_iff.mp hmap
    have hover : Standing R H c' := by
      rcases hsound'.tracked.settled i c' hc' (by simp) with hmem | hover
      · rw [htokens] at hmem
        cases hmem
      · exact hover
    rw [← hjob] at hprocess hsame
    cases hover with
    | rejected e hcheck _ =>
      rw [processServer, hcheck] at hprocess
      cases hprocess
    | lost e hcheck hfinal _ _ =>
      rw [processServer, hcheck] at hprocess
      dsimp only at hprocess
      rw [run_eq, hfinal] at hprocess
      cases hprocess
    | done hcheck hfinal hset hinst hpc =>
      have hdata : datasetType c'.details.inst = .ok c'.datasetType :=
        hinst ▸ datasetType_of_checkRegistered hcheck
      rw [processServer_eq hcheck hfinal] at hprocess
      have hmake : ∀ timing₀, ∃ result, makeResult R H timing₀ c' = .returned result ∧
          SameResult result result' := fun timing₀ =>
        (makeResult_eq_returned hdata (hsame _ hcheck) timing₀ timing).2 result' hprocess
      rcases hpc with hpc | ⟨timing₀, hpc⟩
      · obtain ⟨result, hmade, hresult⟩ := hmake timing
        have hstep : step R H t (.finish i timing) = some
            { t with calls := t.calls.set i { c' with pc := makeResult R H timing c' } } := by
          simp [step, hc', hpc, hset]
        refine .cons hstep (.here ⟨{ c' with pc := makeResult R H timing c' }, result, ?_, hmade,
          hresult⟩)
        exact List.getElem?_set_self (List.getElem?_eq_some_iff.mp hc').1
      · obtain ⟨result, hmade, hresult⟩ := hmake timing₀
        exact .here ⟨c', result, hc', hpc.trans hmade, hresult⟩

/-! ### Where they do not agree -/

/-- Functions of which every phase raises, and of which `final_result` tells the function `f?` from
the others. -/
noncomputable def tellingHandlers (f? : Option φ) : Handlers φ ω where
  init := fun _ d _ => (d.rest, .error (.exception ""))
  run := fun _ d _ => (d.rest, .error (.exception ""))
  eval := fun _ d _ => (d.rest, .error (.exception ""))
  exception := fun _ d _ => (d.rest, .ok .empty)
  finalResult := fun f _ =>
    open Classical in .ok (Dict.empty.set "resolved" (.bool (decide (some f = f?))))

/-- The result of the functions above for what a lookup finds. -/
noncomputable def tellingResult (f? : Option φ) (name : String) : Option φ → ResultDict
  | none => noFinalResult name
  | some f => open Classical in Dict.empty.set "resolved" (.bool (decide (some f = f?)))

/-- Their jobs are over after the first phase. -/
lemma exists_finalDetails_telling (f? : Option φ) {job : JobRequest ω} {name : String}
    (hdata : datasetType job.inst = .ok name) :
    ∃ d, finalDetails R (tellingHandlers f?) job = .ok d ∧ d.inst = job.inst := by
  -- The phase raises, and the exception function does not.
  have htry : ∃ text, Worker.tryStep R (tellingHandlers f?) name .init job.details =
      (job.details, some (.exception text)) := by
    unfold Worker.tryStep
    split
    · exact ⟨_, rfl⟩
    · exact ⟨_, rfl⟩
  obtain ⟨text, htry⟩ := htry
  have hcatch : ∃ d, Worker.catchStep R (tellingHandlers f?) name .init job.details
      (.exception text) = .ok d ∧ d.inst = job.inst := by
    simp only [Worker.catchStep, Worker.exceptionResults]
    split
    · refine ⟨_, rfl, ?_⟩
      rfl
    · refine ⟨_, rfl, ?_⟩
      rfl
  obtain ⟨d, hcatch, hinst⟩ := hcatch
  refine ⟨d, ?_, hinst⟩
  rw [finalDetails, ← hcatch]
  refine phasesFrom_of_catchStep ?_
  have hinst' : datasetType job.details.inst = .ok name := hdata
  simp only [Worker.runStep, hinst', htry]

/-- The result that the threaded server makes with them. -/
lemma makeResult_telling (f? : Option φ) (timing : PyVal) (c : Call ω) :
    makeResult R (tellingHandlers f?) timing c = .returned ((tellingResult f? c.datasetType
      (R.getRegisteredFunctions .finalResult c.datasetType c.job.isReasoningTask)).set "timing"
      timing) := by
  unfold makeResult
  cases R.getRegisteredFunctions .finalResult c.datasetType c.job.isReasoningTask with
  | none => rfl
  | some g => rfl

/-- What the telling functions give is told by the lookup. -/
lemma eq_of_sameResult {f? g? : Option φ} {name : String}
    (h : SameResult ((tellingResult f? name f?).set "timing" timing)
      ((tellingResult f? name g?).set "timing" timing')) : f? = g? := by
  have hget : ∀ key, key ≠ "timing" →
      (tellingResult f? name f?).get? key = (tellingResult f? name g?).get? key := by
    intro key hkey
    have herase := congrArg (fun d => Dict.get? d key) h
    simpa [Dict.get?_erase, Dict.get?_set, hkey] using herase
  have hresolved := hget "resolved" (by decide)
  cases f? with
  | none =>
    cases g? with
    | none => rfl
    | some g => simp [tellingResult, noFinalResult, Dict.get?_set] at hresolved
  | some f =>
    cases g? with
    | none => simp [tellingResult, noFinalResult, Dict.get?_set] at hresolved
    | some g =>
      have hg : g = f := by simpa [tellingResult, Dict.get?_set] using hresolved
      rw [hg]

/-- The two lookups agree when the servers do. -/
lemma sameFinalResult_of_serversAgree {job : JobRequest ω} (h : ServersAgree R job) :
    SameFinalResult R job := by
  intro name hcheck
  have hdata := datasetType_of_checkRegistered hcheck
  set f? := R.getRegisteredFunctions .finalResult name job.isReasoningTask with hf
  obtain ⟨d, hfinal, hinst⟩ := exists_finalDetails_telling f? hdata (R := R)
  -- The process-based server makes its result with the function of the other lookup.
  have hprocess : processServer R (tellingHandlers f?) .none job = .ok ((tellingResult f? name
      (R.getRegisteredFunctions .finalResult name)).set "timing" .none) := by
    rw [processServer, hcheck]
    dsimp only
    rw [run_eq, hfinal]
    dsimp only
    rw [Worker.getResults, hinst, hdata]
    dsimp only
    cases R.getRegisteredFunctions .finalResult name with
    | none => rfl
    | some g => rfl
  -- The threaded server has only this job.
  have hrun : Machine.run (step R (tellingHandlers f?)) (initState [.init, .run, .eval])
      [.submit job] = some (State.enqueue
        { initState [.init, .run, .eval] with calls := [⟨job, name, job.details, .waiting⟩] }
        .init 0) := by
    refine Machine.run_cons.mpr ⟨_, ?_, rfl⟩
    simp only [step, hcheck]
    rfl
  have hundisturbed : Undisturbed R (tellingHandlers f?) (State.enqueue
      { initState [.init, .run, .eval] with calls := [⟨job, name, job.details, .waiting⟩] }
      .init 0) := by
    rintro job' hjob' ⟨-, e, he⟩
    obtain rfl : job' = job := List.mem_singleton.mp hjob'
    rw [hfinal] at he
    cases he
  obtain ⟨ls, t, hreach, c, result, hc, hpc, hresult⟩ :=
    (h _ _ _ _ (fun kind => by cases kind <;> simp) hrun 0 _ rfl rfl).2 hundisturbed _ _ hprocess
  -- Its result is made with the function of its own lookup.
  have hsound : Sound R (tellingHandlers f?) [.init, .run, .eval] t ∧
      [job] <+: t.calls.map Call.job := by
    refine Machine.run_invariant (fun t => Sound R (tellingHandlers f?) [.init, .run, .eval] t ∧
      [job] <+: t.calls.map Call.job) (fun s l s' hs hstep => ?_) ⟨?_, List.prefix_refl _⟩ hreach
    · exact ⟨step_sound hs.1 hstep, hs.2.trans (step_jobs hs.1 hstep)⟩
    · exact Machine.run_invariant _ (fun s l s' hs hstep => step_sound hs hstep)
        (sound_initState _) hrun
  obtain ⟨hcheck', -, -, timing, hmade⟩ := hsound.1.tracked.of_returned hc hpc
  have hjob : c.job = job := by
    obtain ⟨js, hjs⟩ := hsound.2
    have hfirst : (t.calls.map Call.job)[0]? = some c.job := by
      rw [List.getElem?_map, hc]
      rfl
    rw [← hjs] at hfirst
    exact (Option.some.inj hfirst).symm
  obtain rfl : name = c.datasetType := by
    rw [hjob, hcheck] at hcheck'
    exact Except.ok.inj hcheck'
  rw [makeResult_telling, hjob, ← hf] at hmade
  obtain rfl := CallPc.returned.inj hmade
  exact eq_of_sameResult hresult

/-- **Exactly when the servers agree**: on the jobs that are not accepted, and on those for which
the two tables have the same `final_result`. -/
theorem serversAgree_iff (R : Registry φ) (job : JobRequest ω) :
    ServersAgree R job ↔ SameFinalResult R job :=
  ⟨sameFinalResult_of_serversAgree, serversAgree_of_sameFinalResult⟩

end Agreement

/-- A registry as the package sets it up: an ordinary handler, and a reasoning handler with one of
its data sources. A function is named by its handler. -/
def packageRegistry : Registry String :=
  ((Registry.empty.registerAgentHandler ⟨"swebench", fun _ => "swebench"⟩).registerAgentHandler
    ⟨"prorl", fun _ => "prorl"⟩ true).addNameMapping "tool_call" "prorl" true

/-- Functions that all return. -/
def successHandlers : Handlers String Unit where
  init := fun _ _ _ => ((), .ok (none, none, none))
  run := fun _ _ _ => ((), .ok (Dict.empty.set "success" (.bool true)))
  eval := fun _ _ _ => ((), .ok (.plain (.dict (Dict.empty.set "resolved" (.bool true)))))
  exception := fun _ _ _ => ((), .ok .empty)
  finalResult := fun _ d => .ok (d.runResults.getD .empty)

/-- A reasoning job. -/
def reasoningJob : JobRequest Unit :=
  ⟨"j", Dict.empty.set "data_source" (.str "tool_call"), true, ()⟩

/-- The job goes through the three queues. -/
def reasoningRun : List (Label Unit) :=
  [.submit reasoningJob, .work 0, .work 0, .work 0, .work 0, .work 1, .work 1, .work 1, .work 1,
    .work 2, .work 2, .work 2, .work 2, .finish 0 .none]

/-- The threaded server returns the result of the reasoning handler; the process-based server finds
no `final_result` in the table of the ordinary jobs. -/
theorem not_serversAgree_reasoning :
    (∃ s c result, Machine.run (step packageRegistry successHandlers) (initState
        [.init, .run, .eval]) reasoningRun = some s ∧ s.calls[0]? = some c ∧
      c.job = reasoningJob ∧ c.pc = .returned result ∧
      result.get? "success" = some (.bool true)) ∧
    (∃ result, processServer packageRegistry successHandlers .none reasoningJob = .ok result ∧
      result.get? "critical_error" = some (.str "final_result")) ∧
    ¬ ServersAgree packageRegistry reasoningJob := by
  obtain ⟨s, c, result, hrun, hc, hjob, hpc, hsuccess⟩ : ∃ s c result, Machine.run
      (step packageRegistry successHandlers) (initState [.init, .run, .eval]) reasoningRun =
        some s ∧ s.calls[0]? = some c ∧ c.job = reasoningJob ∧ c.pc = .returned result ∧
        result.get? "success" = some (.bool true) :=
    ⟨_, _, _, rfl, rfl, rfl, rfl, by decide⟩
  obtain ⟨result', hprocess, herror, hnone⟩ : ∃ result', processServer packageRegistry
      successHandlers .none reasoningJob = .ok result' ∧
      result'.get? "critical_error" = some (.str "final_result") ∧
      result'.get? "success" = none := ⟨_, rfl, by decide, by decide⟩
  refine ⟨⟨s, c, result, hrun, hc, hjob, hpc, hsuccess⟩, ⟨result', hprocess, herror⟩, fun h => ?_⟩
  obtain ⟨result'', hprocess', hsame⟩ :=
    (h _ _ _ _ (fun kind => by cases kind <;> decide) hrun 0 c hc hjob).1 result hpc .none
  obtain rfl : result' = result'' := Except.ok.inj (hprocess.symm.trans hprocess')
  have hget := congrArg (fun d => Dict.get? d "success") hsame
  simp [Dict.get?_erase, hsuccess, hnone] at hget

end ProRLAgent.TwoServers
