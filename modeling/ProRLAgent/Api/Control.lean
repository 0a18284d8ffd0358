import Mathlib.Data.List.Basic
import ProRLAgent.Lib.Machine
import ProRLAgent.Api.Server

set_option relaxedAutoImplicit false
set_option autoImplicit false

/-!
# Control requests and their acknowledgements

A control endpoint takes the next message from `control_response_queue`, whichever request it
acknowledges. That is its own acknowledgement as long as the queue holds no other one. Two things
leave one behind: a wait that times out before the child has answered, and the `cancel` request that
a `/process` call sends when it times out, for whose acknowledgement nobody waits.

Along runs that avoid both, the acknowledgements and the requests that are still to be acknowledged
are together the one request that an endpoint waits for, or none.

## Main definitions

* `ApiServer.State.AcksMatched` — the property.
* `ApiServer.AcksAwaited` — the condition on a step.
* `ApiServer.Child.unanswered`, `ApiServer.State.AcksInStep` — the invariant.

## Main results

* `ApiServer.unanswered_handle` — handling a request keeps what is unanswered.
* `ApiServer.step_acksInStep` — a step that meets the condition keeps the invariant.
* `ApiServer.acksMatched_of_acksAwaited` — the property along runs that meet the condition.
* `ApiServer.not_acksMatched_late` — a late acknowledgement, and one that nobody waits for.
-/

namespace ProRLAgent.ApiServer

/-- **Acknowledgements match requests**: every endpoint that has consumed a message has consumed the
acknowledgement of its own request; and when no control call is pending and the request queue is
drained, the acknowledgement queue is empty. -/
structure State.AcksMatched {ρ : Type} (s : State ρ) : Prop where
  own : ∀ x ∈ s.consumed, x.1 = x.2
  drained : s.control = none → ∀ c, s.child = some c → c.requests = [] → c.acks = []

/-- The future has been cancelled by the timer of its call. -/
def FutureState.isTimedOut {ρ : Type} : FutureState ρ → Bool
  | .timedOut => true
  | _ => false

/-- **The condition on a step**: while the child is alive, no wait for an acknowledgement times out
except that of a stop, and no `/process` call ends with a timeout. -/
def AcksAwaited {ρ : Type} (s : State ρ) : Label ρ → Prop
  | .ackTimeout => s.serverRunning.isNone = true ∨ s.control.all (fun x => x.1 = .stop) = true
  | .wake i =>
    ∀ c ∈ s.calls[i]?, c.future.isTimedOut = true → s.serverRunning.isNone = true
  | _ => True

instance {ρ : Type} (s : State ρ) (l : Label ρ) : Decidable (AcksAwaited s l) := by
  cases l <;> unfold AcksAwaited <;> infer_instance

/-! ## The invariant -/

/-- The request id of a request that the child acknowledges. -/
def Request.controlId? : Request → Option ℕ
  | .process _ _ => none
  | .cancel _ requestId _ | .addLlmServer _ requestId | .clearLlmServer requestId
  | .status requestId | .stop requestId => some requestId

/-- The requests whose acknowledgement has not been consumed, in their order. -/
def Child.unanswered (c : Child) : List ℕ :=
  c.acks.map Ack.requestId ++ c.requests.filterMap Request.controlId?

/-- **The invariant**: what is unanswered is the request that the waiting endpoint has sent. Without
a waiting endpoint no acknowledgement is there, and nothing is unanswered while the child lives. -/
structure State.AcksInStep {ρ : Type} (s : State ρ) : Prop where
  waiting : ∀ kind requestId c, s.control = some (kind, requestId) → s.child = some c →
    c.unanswered = [requestId]
  idle : ∀ c, s.control = none → s.child = some c →
    c.acks = [] ∧ (c.alive = true → c.unanswered = [])
  own : ∀ x ∈ s.consumed, x.1 = x.2

section Steps

variable {ρ : Type} {s s' : State ρ} {c c' : Child}

/-- What is unanswered after one more request. -/
lemma unanswered_put (c : Child) (r : Request) :
    (c.put r).unanswered = c.unanswered ++ r.controlId?.toList := by
  simp only [Child.unanswered, Child.put, List.filterMap_append, List.append_assoc]
  cases hr : r.controlId? <;> simp [hr]

/-- **Handling a request** keeps what is unanswered: its acknowledgement takes its place. -/
lemma unanswered_handle (c : Child) (heap : List (ℕ × String)) {r : Request}
    {requests : List Request} (hrequests : c.requests = r :: requests) :
    (Child.handle { c with requests := requests } heap r).1.unanswered = c.unanswered := by
  cases r with
  | cancel jobId requestId sender =>
    simp only [Child.handle]
    split <;> simp [Child.unanswered, hrequests, Request.controlId?]
  | process jobId call =>
    simp only [Child.handle, Child.unanswered, hrequests]
    rfl
  | _ => simp [Child.handle, Child.unanswered, hrequests, Request.controlId?]

/-- A step that keeps the endpoint and what has been consumed, and of the child what is
unanswered. -/
lemma State.AcksInStep.same (h : s.AcksInStep) (hcontrol : s'.control = s.control)
    (hconsumed : s'.consumed = s.consumed)
    (hchild : ∀ c', s'.child = some c' → ∃ c, s.child = some c ∧ c'.unanswered = c.unanswered ∧
      (c'.alive = true → c.alive = true) ∧ (s.control = none → c.acks = [] → c'.acks = [])) :
    s'.AcksInStep := by
  refine ⟨fun kind requestId c' hc hd => ?_, fun c' hc hd => ?_, fun x hx => ?_⟩
  · obtain ⟨c, hchild, hun, -, -⟩ := hchild c' hd
    rw [hun]
    exact h.waiting kind requestId c (hcontrol ▸ hc) hchild
  · obtain ⟨c, hchild, hun, halive, hacks⟩ := hchild c' hd
    obtain ⟨hnil, hlive⟩ := h.idle c (hcontrol ▸ hc) hchild
    exact ⟨hacks (hcontrol ▸ hc) hnil, fun ha => hun.trans (hlive (halive ha))⟩
  · exact h.own x (hconsumed ▸ hx)

/-- A step that does not touch the child. -/
lemma State.AcksInStep.frame (h : s.AcksInStep) (hcontrol : s'.control = s.control)
    (hconsumed : s'.consumed = s.consumed) (hchild : s'.child = s.child) : s'.AcksInStep :=
  h.same hcontrol hconsumed fun c' hc' => ⟨c', hchild ▸ hc', rfl, id, fun _ => id⟩

/-- A control endpoint sends its request to a live child. -/
lemma State.AcksInStep.sendControl (h : s.AcksInStep) (hc : s.serverRunning = some c)
    (hnone : s.control = none) {kind : ControlKind} {r : ℕ → Request}
    (hr : ∀ n, (r n).controlId? = some n) (hconsumed : s'.consumed = s.consumed) :
    (s'.sendControl c kind r).AcksInStep := by
  obtain ⟨hchild, halive⟩ := serverRunning_eq_some.mp hc
  refine ⟨fun kind' requestId c' hk hd => ?_, fun c' hk hd => ?_, fun x hx => ?_⟩
  · obtain rfl := Option.some.inj hd
    obtain ⟨-, rfl⟩ := Prod.mk.inj (Option.some.inj hk)
    rw [unanswered_put, (h.idle c hnone hchild).2 halive, hr]
    rfl
  · cases hk
  · exact h.own x (hconsumed ▸ hx)

/-- The end of a failed `/process` call leaves the control queues alone. -/
lemma State.AcksInStep.popAndCancel (h : s.AcksInStep) (i : ℕ) (jobId : JobId) :
    (s.popAndCancel i jobId).AcksInStep := by
  obtain ⟨-, hchild, hcontrol, hconsumed⟩ := s.popAndCancel_frame i jobId
  exact h.frame hcontrol hconsumed hchild

/-- A step of the event loop that meets the condition keeps the invariant. -/
lemma loopStep_acksInStep (h : s.AcksInStep) (hnone : s.control = none) {l : Label ρ}
    (hcond : AcksAwaited s l) (hstep : s.loopStep l = some s') : s'.AcksInStep := by
  cases l <;> simp only [State.loopStep, reduceCtorEq] at hstep
  case start =>
    split at hstep
    · cases hstep
    · obtain rfl := Option.some.inj hstep
      refine ⟨fun kind requestId c hk hc => ?_, fun c hk hc => ?_, h.own⟩
      · exact absurd (hk.symm.trans hnone) (by simp)
      · obtain rfl := Option.some.inj hc
        exact ⟨rfl, fun _ => rfl⟩
  case stop =>
    obtain ⟨c, hc, rfl⟩ := Option.map_eq_some_iff.mp hstep
    exact h.sendControl hc hnone (fun _ => rfl) rfl
  case status =>
    obtain ⟨c, hc, rfl⟩ := Option.map_eq_some_iff.mp hstep
    exact h.sendControl hc hnone (fun _ => rfl) rfl
  case cancel jobId =>
    obtain ⟨c, hc, rfl⟩ := Option.map_eq_some_iff.mp hstep
    exact h.sendControl hc hnone (fun _ => rfl) rfl
  case addLlmServer address =>
    split at hstep
    · obtain rfl := Option.some.inj hstep
      exact h.sendControl ‹_› hnone (fun _ => rfl) rfl
    · obtain rfl := Option.some.inj hstep
      exact h.frame rfl rfl rfl
  case clearLlmServer =>
    split at hstep
    · obtain rfl := Option.some.inj hstep
      exact h.sendControl ‹_› hnone (fun _ => rfl) rfl
    · obtain rfl := Option.some.inj hstep
      exact h.frame rfl rfl rfl
  case process jobId =>
    split at hstep
    · obtain ⟨c, hc, hs'⟩ := Option.map_eq_some_iff.mp hstep
      have hsubmit : ∀ (id : JobId) (n : ℕ),
          State.AcksInStep { s.submit c id with nextUuid := n } := by
        intro id n
        refine h.same rfl rfl fun d hd => ⟨c, (serverRunning_eq_some.mp hc).1, ?_⟩
        obtain rfl := Option.some.inj hd
        refine ⟨?_, fun ha => ha, fun _ hacks => hacks⟩
        rw [unanswered_put]
        exact List.append_nil _
      split at hs'
      · split at hs'
        · exact hs' ▸ hsubmit _ _
        · exact hs' ▸ hsubmit _ _
      · exact hs' ▸ hsubmit _ _
    · cases hstep
  case timeout i =>
    obtain ⟨d, hd, hstep⟩ := Option.bind_eq_some_iff.mp hstep
    split at hstep
    · obtain rfl := Option.some.inj hstep
      exact h.frame rfl rfl rfl
    · cases hstep
  case cleanup i =>
    obtain ⟨d, hd, hstep⟩ := Option.bind_eq_some_iff.mp hstep
    split at hstep
    · split at hstep
      · split at hstep <;> obtain rfl := Option.some.inj hstep <;> exact h.frame rfl rfl rfl
      · cases hstep
    · cases hstep
  case wake i =>
    obtain ⟨d, hd, hstep⟩ := Option.bind_eq_some_iff.mp hstep
    split at hstep
    · obtain rfl := Option.some.inj hstep
      unfold State.finish
      split
      · exact h
      · exact h.frame rfl rfl rfl
      · refine State.AcksInStep.popAndCancel ?_ i d.jobId
        exact h.frame rfl rfl rfl
      · exact h.frame rfl rfl rfl
      · -- The request goes to a child that is dead already.
        rename_i hfuture
        have hdead := hcond d hd (by rw [hfuture]; rfl)
        refine State.AcksInStep.popAndCancel ?_ i d.jobId
        refine ⟨fun kind requestId c hk hc => ?_, fun c hk hc => ?_, h.own⟩
        · exact absurd (hk.symm.trans hnone) (by simp)
        · obtain ⟨c₀, hc₀, rfl⟩ := Option.map_eq_some_iff.mp hc
          refine ⟨(h.idle c₀ hnone hc₀).1, fun ha => ?_⟩
          rw [serverRunning_eq_some.mpr ⟨hc₀, ha⟩] at hdead
          cases hdead
    · cases hstep

/-- A step of the child keeps the invariant. -/
lemma childStep_acksInStep (h : s.AcksInStep) (hc : s.child = some c) (halive : c.alive = true)
    {l : Label ρ} (hstep : s.childStep c l = some s') : s'.AcksInStep := by
  -- The new state has this child, with the same requests and acknowledgements.
  have hnext : ∀ {d : Child}, s'.control = s.control → s'.consumed = s.consumed →
      s'.child = some d → d.requests = c.requests → d.acks = c.acks → s'.AcksInStep := by
    intro d hcontrol hconsumed hchild hrequests hacks
    refine h.same hcontrol hconsumed fun e he => ⟨c, hc, ?_⟩
    obtain rfl := Option.some.inj (hchild.symm.trans he)
    refine ⟨by rw [Child.unanswered, hrequests, hacks, Child.unanswered], fun _ => halive, ?_⟩
    exact fun _ hnil => hacks.trans hnil
  cases l <;> simp only [State.childStep, reduceCtorEq] at hstep
  case boot =>
    split at hstep
    · obtain rfl := Option.some.inj hstep
      exact hnext rfl rfl rfl rfl rfl
    · cases hstep
  case handle =>
    split at hstep
    · rename_i heap r requests _ _ hrequests
      obtain rfl := Option.some.inj hstep
      refine h.same rfl rfl fun d hd => ⟨c, hc, ?_⟩
      obtain rfl := Option.some.inj hd
      have hun := unanswered_handle c heap hrequests
      refine ⟨hun, fun _ => halive, fun hnone _ => ?_⟩
      -- Nothing is unanswered, so the child has handled nothing that it acknowledges.
      rw [(h.idle c hnone hc).2 halive] at hun
      exact List.map_eq_nil_iff.mp (List.append_eq_nil_iff.mp hun).1
    · cases hstep
  case runJob n =>
    obtain ⟨job, hjob, hstep⟩ := Option.bind_eq_some_iff.mp hstep
    split at hstep
    · obtain rfl := Option.some.inj hstep
      exact hnext rfl rfl rfl rfl rfl
    · cases hstep
  case endJob n reply =>
    obtain ⟨job, hjob, hstep⟩ := Option.bind_eq_some_iff.mp hstep
    split at hstep
    · obtain rfl := Option.some.inj hstep
      exact hnext rfl rfl rfl rfl rfl
    · cases hstep
  case selectAddress =>
    obtain ⟨heap, hheap, rfl⟩ := Option.map_eq_some_iff.mp hstep
    exact hnext rfl rfl rfl rfl rfl
  case die =>
    obtain rfl := Option.some.inj hstep
    exact hnext rfl rfl rfl rfl rfl

/-- The end of a control endpoint, when nothing is left that it has not consumed. -/
lemma State.AcksInStep.endControl (hown : ∀ x ∈ s.consumed, x.1 = x.2) (kind : ControlKind)
    (hchild : kind ≠ .stop → ∀ c, s.child = some c →
      c.acks = [] ∧ (c.alive = true → c.unanswered = [])) :
    (s.endControl kind).AcksInStep := by
  cases kind with
  | stop =>
    refine ⟨fun _ _ _ hk => (by cases hk), fun c _ hc => (by cases hc), hown⟩
  | _ => exact ⟨fun _ _ _ hk => (by cases hk), fun c _ hc => hchild (by simp) c hc, hown⟩

/-- The end of a control endpoint that meets the condition keeps the invariant. -/
lemma controlStep_acksInStep (h : s.AcksInStep) {kind : ControlKind} {requestId : ℕ}
    (hcontrol : s.control = some (kind, requestId)) (hc : s.child = some c) {l : Label ρ}
    (hcond : AcksAwaited s l) (hstep : s.controlStep kind requestId c l = some s') :
    s'.AcksInStep := by
  have hun := h.waiting kind requestId c hcontrol hc
  cases l <;> simp only [State.controlStep, reduceCtorEq] at hstep
  case ack =>
    split at hstep
    · cases hstep
    · rename_i ack acks hacks
      obtain rfl := Option.some.inj hstep
      -- The one message is the acknowledgement of the request.
      rw [Child.unanswered, hacks, List.map_cons, List.cons_append] at hun
      obtain ⟨hid, hrest⟩ := List.cons.inj hun
      obtain ⟨hacks', hrequests⟩ := List.append_eq_nil_iff.mp hrest
      refine State.AcksInStep.endControl (fun x hx => ?_) kind fun _ d hd => ?_
      · rcases List.mem_append.mp hx with hx | hx
        · exact h.own x hx
        · rw [List.mem_singleton.mp hx]
          exact hid.symm
      · obtain rfl := Option.some.inj hd
        refine ⟨List.map_eq_nil_iff.mp hacks', fun _ => ?_⟩
        rw [Child.unanswered]
        exact hrest
  case ackTimeout =>
    split at hstep
    · rename_i hacks
      obtain rfl := Option.some.inj hstep
      refine State.AcksInStep.endControl h.own kind fun hstop d hd => ?_
      obtain rfl := Option.some.inj (hc.symm.trans hd)
      refine ⟨hacks, fun ha => ?_⟩
      -- Only the wait of a stop may end like this while the child is alive.
      rcases hcond with hdead | hall
      · rw [serverRunning_eq_some.mpr ⟨hc, ha⟩] at hdead
        cases hdead
      · rw [hcontrol] at hall
        exact absurd (of_decide_eq_true hall) hstop
    · cases hstep

/-- A step of the listener keeps the invariant. -/
lemma listenerStep_acksInStep (h : s.AcksInStep) {l : Label ρ}
    (hstep : s.listenerStep l = some s') : s'.AcksInStep := by
  cases l <;> simp only [State.listenerStep, reduceCtorEq] at hstep
  case listen =>
    split at hstep
    · cases hstep
    · split at hstep <;> obtain rfl := Option.some.inj hstep <;> exact h.frame rfl rfl rfl
  case resolve =>
    split at hstep
    · cases hstep
    · obtain ⟨c, hc, rfl⟩ := Option.map_eq_some_iff.mp hstep
      split <;> exact h.frame rfl rfl rfl

/-- **The step lemma**: a step that meets the condition keeps the invariant. -/
theorem step_acksInStep (h : s.AcksInStep) {l : Label ρ} (hcond : AcksAwaited s l)
    (hstep : step s l = some s') : s'.AcksInStep := by
  rcases step_cases hstep with hstep | ⟨c, hc, ha, hstep⟩ | ⟨kind, requestId, c, hk, hc, hstep⟩ |
    ⟨hnone, hstep⟩
  · exact listenerStep_acksInStep h hstep
  · exact childStep_acksInStep h hc ha hstep
  · exact controlStep_acksInStep h hk hc hcond hstep
  · exact loopStep_acksInStep h hnone hcond hstep

end Steps

/-! ## Runs -/

/-- **Control acknowledgements match requests**: in every run of the API server and its child whose
steps all meet the condition, every endpoint consumes the acknowledgement of its own request, and
the acknowledgement queue is empty when no control call is pending and the request queue is
drained. -/
theorem acksMatched_of_acksAwaited {ρ : Type} (ls : List (Label ρ)) (s : State ρ)
    (hrun : Machine.run (Machine.guarded step AcksAwaited) initState ls = some s) :
    s.AcksMatched := by
  have hinv : s.AcksInStep := by
    refine Machine.run_invariant State.AcksInStep (fun s l s' h hstep => ?_) ?_ hrun
    · obtain ⟨hcond, hstep⟩ := Machine.guarded_eq_some.mp hstep
      exact step_acksInStep h hcond hstep
    · refine ⟨fun _ _ _ hk => (by cases hk), fun c _ hc => (by cases hc), fun x hx => ?_⟩
      cases hx
  exact ⟨hinv.own, fun hnone c hc _ => (hinv.idle c hnone hc).1⟩

/-- The child is started and answers a status request in time. -/
def statusRun : List (Label Unit) := [.start, .boot, .status, .handle, .ack]

theorem acksMatched_statusRun :
    ∃ s, Machine.run (Machine.guarded step AcksAwaited) initState statusRun = some s ∧
      s.consumed = [(0, 0)] ∧ s.AcksMatched := by
  obtain ⟨s, hrun, hconsumed⟩ : ∃ s, Machine.run (Machine.guarded step AcksAwaited) initState
      statusRun = some s ∧ s.consumed = [(0, 0)] := ⟨_, rfl, rfl⟩
  exact ⟨s, hrun, hconsumed, acksMatched_of_acksAwaited statusRun s hrun⟩

/-- The wait of a status request times out, the child answers it, and the next request consumes the
answer. -/
def lateRun : List (Label Unit) :=
  [.start, .boot, .status, .ackTimeout, .handle, .addLlmServer "a", .ack]

/-- A `/process` call times out, and its `cancel` request is acknowledged. -/
def timedOutRun : List (Label Unit) :=
  [.start, .boot, .process (some "j"), .handle, .timeout 0, .cleanup 0, .wake 0, .handle]

/-- After a late acknowledgement an endpoint consumes one that is not its own; and the
acknowledgement of the request that a timed-out call has sent stays in the queue. -/
theorem not_acksMatched_late :
    (∃ s, Machine.run step initState lateRun = some s ∧ s.consumed = [(1, 0)] ∧ ¬ s.AcksMatched) ∧
    ∃ s, Machine.run step initState timedOutRun = some s ∧ s.control = none ∧
      s.child.map Child.requests = some [] ∧ ¬ s.AcksMatched := by
  constructor
  · refine ⟨_, rfl, rfl, fun h => ?_⟩
    exact absurd (h.own (1, 0) (List.mem_singleton.mpr rfl)) (by decide)
  · refine ⟨_, rfl, rfl, rfl, fun h => ?_⟩
    exact absurd (h.drained rfl _ rfl rfl) (by decide)

end ProRLAgent.ApiServer
