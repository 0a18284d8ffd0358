import Mathlib.Data.List.Basic
import ProRLAgent.Lib.Machine
import ProRLAgent.Lib.Pool
import ProRLAgent.Process.Server
import ProRLAgent.Process.Semaphores

set_option relaxedAutoImplicit false
set_option autoImplicit false

/-!
# The way of a result to its `process` call

A child puts its result on `result_queue`, the result thread hands it to the job state that stands
under the id in `self.jobs`, and the `process` call reads it from there. The child is started before
the job state is registered, and a result whose id has no entry is dropped without a word. The
dead-job sweep deletes the entry of a child that has ended, also when its result is still on the
queue. And the tail of `process` kills its child, which then may hold the lock of `job_status` that
every later tail needs.

Along runs that avoid these three steps the results of a child that are on the queue or in its job
state are together exactly what the child has reported (`CallFits.results`), and every call whose
child has reported can return.

## Main definitions

* `ProcessServer.ResultRun` — the runs in question: distinct ids, no `cancel_job`.
* `ProcessServer.ResultsKept` — no result is lost.
* `ProcessServer.Attended` — the condition on a step.
* `ProcessServer.Sound` — the invariant.

## Main results

* `ProcessServer.step_sound` — a step that meets the condition keeps the invariant.
* `ProcessServer.Sound.canReturn` — a call whose child has reported can return the result.
* `ProcessServer.resultsKept_of_attended` — along runs that meet the condition no result is lost.
* `ProcessServer.not_resultsKept_dropped` — a child that is faster than the registration.
-/

namespace ProRLAgent.ProcessServer

variable {ρ : Type}

/-! ## The property -/

/-- The result that the child of call `i` puts on the queue with this label. -/
def Label.reportOf (i : ℕ) : Label ρ → Option ρ
  | .child k (.report r) => if k = i then some r else none
  | _ => none

/-- The results that the child of call `i` has put on the queue along the labels. -/
def reportsOf (ls : List (Label ρ)) (i : ℕ) : List ρ := ls.filterMap (Label.reportOf i)

/-- The runs of `process` calls with distinct ids, their children, the result thread and the
dead-job sweep: no `cancel_job`, and nobody else closes a job state. -/
def ResultRun (s : State ρ) : Label ρ → Prop
  | .start j => ∀ c ∈ s.calls, c.id ≠ j
  | .terminate _ | .cancelBegin _ | .cancel _ => False
  | _ => True

instance (s : State ρ) (l : Label ρ) : Decidable (ResultRun s l) :=
  match l with
  | .start j => inferInstanceAs (Decidable (∀ c ∈ s.calls, c.id ≠ j))
  | .terminate _ | .cancelBegin _ | .cancel _ => inferInstanceAs (Decidable False)
  | .call _ | .child _ _ | .deliver | .sweepBegin _ | .sweep _ => inferInstanceAs (Decidable True)

/-- The call has returned this result. -/
def State.Returned (s : State ρ) (i : ℕ) (r : ρ) : Prop :=
  ∃ c, s.calls[i]? = some c ∧ c.pc = .returned (.ok r)

/-- **No result is lost**: a result that the child of a call has put on the queue is still there or
has reached the job state of that call; the call can still return it and ends in no other way; and a
job state holds no result but those of its own child. -/
structure ResultsKept (ls : List (Label ρ)) (s : State ρ) : Prop where
  kept : ∀ i, ∀ r ∈ reportsOf ls i, ∃ c, s.calls[i]? = some c ∧
    ((c.id, r) ∈ s.resultQueue ∨ (c.result = some r ∧ c.finished = true))
  returns : ∀ i, ∀ r ∈ reportsOf ls i,
    Machine.CanReach (Machine.guarded step ResultRun) s fun t => t.Returned i r
  exact : ∀ i, ∀ r ∈ reportsOf ls i, ∀ c, s.calls[i]? = some c → c.pc.ended = true → s.Returned i r
  own : ∀ i c r, s.calls[i]? = some c → c.result = some r → r ∈ reportsOf ls i

/-! ## The condition -/

/-- The job state of the call is not in `self.jobs` yet. -/
def CallPc.unregistered : CallPc ρ → Bool
  | .starting => true
  | _ => false

/-- The call is at the section that closes its job state. -/
def CallPc.atClose : CallPc ρ → Bool
  | .closing _ => true
  | _ => false

/-- The call has read its result. -/
def CallPc.resultRead : CallPc ρ → Bool
  | .tail _ | .closing _ | .returning _ | .returned _ => true
  | _ => false

/-- **The condition on a step**: the result thread takes a result only when the call that started
the child has registered its job state; `process` closes a job state only when its child does not
hold the status lock; the sweep deletes an entry only when its call has read the result. -/
def Attended (s : State ρ) : Label ρ → Prop
  | .deliver => ∀ x ∈ s.resultQueue.head?, ∀ c ∈ s.calls, c.id = x.1 → c.pc.unregistered = false
  | .call i => ∀ c ∈ s.calls[i]?, c.pc.atClose = true → ∀ k ∈ s.jobs c.id, s.statusLock ≠ some k
  | .sweep k => ∀ x ∈ s.sweeps[k]?, x.2 = .close →
      ∀ i ∈ s.jobs x.1, ∀ c ∈ s.calls[i]?, c.pc.resultRead = true
  | _ => True

instance (s : State ρ) (l : Label ρ) : Decidable (Attended s l) :=
  match l with
  | .deliver =>
    inferInstanceAs (Decidable (∀ x ∈ s.resultQueue.head?, ∀ c ∈ s.calls,
      c.id = x.1 → c.pc.unregistered = false))
  | .call i =>
    inferInstanceAs (Decidable (∀ c ∈ s.calls[i]?, c.pc.atClose = true →
      ∀ k ∈ s.jobs c.id, s.statusLock ≠ some k))
  | .sweep k =>
    inferInstanceAs (Decidable (∀ x ∈ s.sweeps[k]?, x.2 = .close →
      ∀ i ∈ s.jobs x.1, ∀ c ∈ s.calls[i]?, c.pc.resultRead = true))
  | .start _ | .child _ _ | .terminate _ | .cancelBegin _ | .cancel _ | .sweepBegin _ =>
    inferInstanceAs (Decidable True)

/-! ## The invariant -/

/-- The child has put its result on the queue. -/
def ChildPc.reported : ChildPc → Bool
  | .finalLock | .finalLocked | .finalPopped _ | .finalUnlock | .fallback _ | .exited => true
  | _ => false

/-- The child holds the status lock. -/
def ChildPc.hasLock : ChildPc → Bool
  | .locked _ | .written _ | .popping _ _ | .popped _ _ | .finalLocked | .finalPopped _
  | .finalUnlock => true
  | _ => false

/-- The results on the queue under the id. -/
def queuedFor (q : List (String × ρ)) (j : String) : List ρ :=
  (q.filter fun x => x.1 = j).map Prod.snd

/-- What holds of call `i` where it stands; `entry` is what `self.jobs` has under its id. -/
def PlaceFits (entry : Option ℕ) (i : ℕ) (c : ProcessCall ρ) : CallPc ρ → Prop
  | .starting => True
  | .registered => entry = some i
  | .waiting k => k = i ∧ entry = some i
  | .reading => entry = some i ∧ c.result.isSome
  | .tail x | .closing x =>
    (∃ r, c.result = some r ∧ x = .ok r) ∧ (entry = some i ∨ c.alive = false)
  | .returning x | .returned x => (∃ r, c.result = some r ∧ x = .ok r) ∧ c.alive = false
  | .raised _ => False

/-- What holds of call `i` on its own: `reports` are the results that its child has put on the
queue, `queued` those that are still there. -/
structure CallFits (reports queued : List ρ) (entry : Option ℕ) (i : ℕ) (c : ProcessCall ρ) :
    Prop where
  results : c.result.toList ++ queued = reports
  once : reports.length = if c.child.reported then 1 else 0
  finished : c.finished = c.result.isSome
  alive : c.child.reported = false → c.alive = true
  place : PlaceFits entry i c c.pc

/-- **The invariant**; `reports` are the results that the children have put on the queue so far. -/
structure Sound (reports : ℕ → List ρ) (s : State ρ) : Prop where
  ids : ∀ (i k : ℕ) (c d : ProcessCall ρ), s.calls[i]? = some c → s.calls[k]? = some d →
    c.id = d.id → i = k
  entry : ∀ j k, s.jobs j = some k → ∃ c, s.calls[k]? = some c ∧ c.id = j
  queue : ∀ x ∈ s.resultQueue, ∃ (i : ℕ) (c : ProcessCall ρ), s.calls[i]? = some c ∧ c.id = x.1
  calls : ∀ i c, s.calls[i]? = some c →
    CallFits (reports i) (queuedFor s.resultQueue c.id) (s.jobs c.id) i c
  fresh : ∀ i, s.calls[i]? = none → reports i = []
  sweeps : ∀ x ∈ s.sweeps, ∃ (i : ℕ) (c : ProcessCall ρ),
    s.calls[i]? = some c ∧ c.id = x.1 ∧ c.alive = false
  lock : ∀ k, s.statusLock = some k →
    ∃ c, s.calls[k]? = some c ∧ c.alive = true ∧ c.child.hasLock = true

section Steps

variable {reports : ℕ → List ρ} {s s' : State ρ} {i : ℕ} {c c' : ProcessCall ρ}

/-- The entry under the id of a call is that of the call. -/
lemma Sound.entry_eq (h : Sound reports s) (hi : s.calls[i]? = some c) {k : ℕ}
    (hk : s.jobs c.id = some k) : k = i := by
  obtain ⟨d, hd, hid⟩ := h.entry c.id k hk
  exact h.ids k i d c hd hi hid

/-- **A step about one call**: the records of the other calls stay as they are, and the queue, the
entries and the reports change only under the id of the call. -/
lemma Sound.change {reports' : ℕ → List ρ} (h : Sound reports s) (hi : s.calls[i]? = some c)
    (hcalls : s'.calls = s.calls.set i c') (hid : c'.id = c.id)
    (halive : c'.alive = true → c.alive = true)
    (hqueue : ∀ x ∈ s'.resultQueue, x ∈ s.resultQueue ∨ x.1 = c.id)
    (hqueued : ∀ j, j ≠ c.id → queuedFor s'.resultQueue j = queuedFor s.resultQueue j)
    (hjobs : ∀ j, j ≠ c.id → s'.jobs j = s.jobs j) (hentry : ∀ k, s'.jobs c.id = some k → k = i)
    (hreports : ∀ k, k ≠ i → reports' k = reports k)
    (hsweeps : ∀ x ∈ s'.sweeps, ∃ y ∈ s.sweeps, y.1 = x.1)
    (hfits : CallFits (reports' i) (queuedFor s'.resultQueue c.id) (s'.jobs c.id) i c')
    (hlock : ∀ k, s'.statusLock = some k → (k ≠ i ∧ s.statusLock = some k) ∨
      (k = i ∧ c'.alive = true ∧ c'.child.hasLock = true)) :
    Sound reports' s' := by
  have hlt : i < s.calls.length := (List.getElem?_eq_some_iff.mp hi).1
  have hself : s'.calls[i]? = some c' := by
    rw [hcalls]
    exact List.getElem?_set_self hlt
  -- Every record has the same id before and after the step.
  have hback : ∀ (k : ℕ) (d : ProcessCall ρ), s'.calls[k]? = some d →
      ∃ d₀, s.calls[k]? = some d₀ ∧ d₀.id = d.id := by
    intro k d hk
    rw [hcalls] at hk
    rcases Pool.getElem?_set_eq_some hk with ⟨rfl, rfl⟩ | ⟨-, hk⟩
    · exact ⟨c, hi, hid.symm⟩
    · exact ⟨d, hk, rfl⟩
  have hforth : ∀ (k : ℕ) (d : ProcessCall ρ), s.calls[k]? = some d →
      ∃ d', s'.calls[k]? = some d' ∧ d'.id = d.id ∧ (d'.alive = true → d.alive = true) := by
    intro k d hk
    by_cases hik : i = k
    · subst hik
      obtain rfl := Option.some.inj (hi.symm.trans hk)
      exact ⟨c', hself, hid, halive⟩
    · exact ⟨d, by rw [hcalls, List.getElem?_set_ne hik]; exact hk, rfl, id⟩
  refine ⟨fun k l d e hd he hde => ?_, fun j k hk => ?_, fun x hx => ?_, fun k d hk => ?_,
    fun k hk => ?_, fun x hx => ?_, fun k hk => ?_⟩
  · obtain ⟨d₀, hd₀, hdid⟩ := hback k d hd
    obtain ⟨e₀, he₀, heid⟩ := hback l e he
    exact h.ids k l d₀ e₀ hd₀ he₀ (by rw [hdid, heid, hde])
  · by_cases hj : j = c.id
    · subst hj
      obtain rfl := hentry k hk
      exact ⟨c', hself, hid⟩
    · obtain ⟨d, hd, hdid⟩ := h.entry j k (by rwa [hjobs j hj] at hk)
      obtain ⟨d', hd', hdid', -⟩ := hforth k d hd
      exact ⟨d', hd', hdid'.trans hdid⟩
  · rcases hqueue x hx with hx | hx
    · obtain ⟨k, d, hd, hdid⟩ := h.queue x hx
      obtain ⟨d', hd', hdid', -⟩ := hforth k d hd
      exact ⟨k, d', hd', hdid'.trans hdid⟩
    · exact ⟨i, c', hself, hid.trans hx.symm⟩
  · rw [hcalls] at hk
    rcases Pool.getElem?_set_eq_some hk with ⟨rfl, rfl⟩ | ⟨hki, hk⟩
    · rw [hid]
      exact hfits
    · have hne : d.id ≠ c.id := fun he => hki (h.ids k i d c hk hi he)
      rw [hqueued _ hne, hjobs _ hne, hreports k hki]
      exact h.calls k d hk
  · have hki : k ≠ i := by
      rintro rfl
      exact absurd (hself.symm.trans hk) (by simp)
    rw [hreports k hki]
    apply h.fresh k
    rw [hcalls] at hk
    simpa using hk
  · obtain ⟨y, hy, hyx⟩ := hsweeps x hx
    obtain ⟨k, d, hd, hdid, hdead⟩ := h.sweeps y hy
    obtain ⟨d', hd', hdid', hmono⟩ := hforth k d hd
    refine ⟨k, d', hd', (hdid'.trans hdid).trans hyx, ?_⟩
    cases hda : d'.alive with
    | false => rfl
    | true => exact absurd (hmono hda) (by simp [hdead])
  · rcases hlock k hk with ⟨hki, hold⟩ | ⟨rfl, ha, hl⟩
    · obtain ⟨d, hd, hda, hdl⟩ := h.lock k hold
      exact ⟨d, by rw [hcalls, List.getElem?_set_ne (Ne.symm hki)]; exact hd, hda, hdl⟩
    · exact ⟨c', hself, ha, hl⟩

/-- A step that replaces the record of one call and leaves the queue, `self.jobs` and the sweeps
as they are. -/
lemma Sound.replace (h : Sound reports s) (hi : s.calls[i]? = some c)
    (hcalls : s'.calls = s.calls.set i c') (hqueue : s'.resultQueue = s.resultQueue)
    (hjobs : s'.jobs = s.jobs) (hsweeps : s'.sweeps = s.sweeps) (hid : c'.id = c.id)
    (halive : c'.alive = true → c.alive = true)
    (hfits : CallFits (reports i) (queuedFor s.resultQueue c.id) (s.jobs c.id) i c')
    (hlock : ∀ k, s'.statusLock = some k → (k ≠ i ∧ s.statusLock = some k) ∨
      (k = i ∧ c'.alive = true ∧ c'.child.hasLock = true)) :
    Sound reports s' := by
  refine h.change hi hcalls hid halive (fun x hx => .inl (hqueue ▸ hx)) (fun j _ => by rw [hqueue])
    (fun j _ => by rw [hjobs]) (fun k hk => h.entry_eq hi (hjobs ▸ hk)) (fun _ _ => rfl)
    (fun x hx => ⟨x, hsweeps ▸ hx, rfl⟩) ?_ hlock
  rw [hqueue, hjobs]
  exact hfits

/-- A call stays where it fits when its child is killed. -/
lemma PlaceFits.mono {entry : Option ℕ} {pc : CallPc ρ} (h : PlaceFits entry i c pc)
    (hresult : c'.result = c.result) (halive : c'.alive = true → c.alive = true) :
    PlaceFits entry i c' pc := by
  have hdead : c.alive = false → c'.alive = false := by
    intro hc
    cases hc' : c'.alive with
    | false => rfl
    | true => exact absurd (halive hc') (by simp [hc])
  cases pc with
  | reading => exact ⟨h.1, hresult ▸ h.2⟩
  | tail x => exact ⟨hresult ▸ h.1, h.2.imp_right hdead⟩
  | closing x => exact ⟨hresult ▸ h.1, h.2.imp_right hdead⟩
  | returning x => exact ⟨hresult ▸ h.1, hdead h.2⟩
  | returned x => exact ⟨hresult ▸ h.1, hdead h.2⟩
  | _ => exact h

/-- A step of the child that puts no result on the queue. -/
lemma CallFits.child {rs queued : List ρ} {entry : Option ℕ} (h : CallFits rs queued entry i c)
    {x : ChildPc} {a : Bool} {o : Option JobType} (hrep : x.reported = c.child.reported)
    (ha : x.reported = false → a = true) (halive : a = true → c.alive = true) :
    CallFits rs queued entry i { c with child := x, alive := a, owed := o } where
  results := h.results
  once := by
    rw [hrep]
    exact h.once
  finished := h.finished
  alive := ha
  place := h.place.mono rfl halive

/-- A step of the child of call `i` that puts no result on the queue: it keeps the status lock as it
is, or has it afterwards, or gives it back. -/
lemma Sound.child (h : Sound reports s) (hi : s.calls[i]? = some c) {x : ChildPc} {a : Bool}
    {o : Option JobType}
    (hcalls : s'.calls = s.calls.set i { c with child := x, alive := a, owed := o })
    (hqueue : s'.resultQueue = s.resultQueue) (hjobs : s'.jobs = s.jobs)
    (hsweeps : s'.sweeps = s.sweeps) (hrep : x.reported = c.child.reported)
    (ha : x.reported = false → a = true) (halive : a = true → c.alive = true)
    (hlock : (s'.statusLock = s.statusLock ∧ c.child.hasLock = false) ∨
      (s'.statusLock = s.statusLock ∧ a = true ∧ x.hasLock = true) ∨
      (s'.statusLock = some i ∧ a = true ∧ x.hasLock = true) ∨
      s'.statusLock = none) :
    Sound reports s' := by
  refine h.replace hi hcalls hqueue hjobs hsweeps rfl halive ((h.calls i c hi).child hrep ha halive)
    fun k hk => ?_
  rcases hlock with ⟨hl, hno⟩ | ⟨hl, ha', hx⟩ | ⟨hl, ha', hx⟩ | hl
  · refine .inl ⟨?_, hl ▸ hk⟩
    rintro rfl
    obtain ⟨d, hd, -, hdl⟩ := h.lock k (hl ▸ hk)
    obtain rfl := Option.some.inj (hi.symm.trans hd)
    exact absurd hdl (by simp [hno])
  · by_cases hki : k = i
    · exact .inr ⟨hki, ha', hx⟩
    · exact .inl ⟨hki, hl ▸ hk⟩
  · exact .inr ⟨Option.some.inj (hk.symm.trans hl), ha', hx⟩
  · exact absurd (hk.symm.trans hl) (by simp)

/-- The status lock at a step that leaves the child of call `i` as it is. -/
lemma Sound.lock_same (h : Sound reports s) (hi : s.calls[i]? = some c)
    (halive : c'.alive = c.alive) (hchild : c'.child = c.child) (k : ℕ)
    (hk : s.statusLock = some k) : (k ≠ i ∧ s.statusLock = some k) ∨
      (k = i ∧ c'.alive = true ∧ c'.child.hasLock = true) := by
  by_cases hki : k = i
  · subst hki
    obtain ⟨d, hd, hda, hdl⟩ := h.lock k hk
    obtain rfl := Option.some.inj (hi.symm.trans hd)
    exact .inr ⟨rfl, halive.trans hda, by rwa [hchild]⟩
  · exact .inl ⟨hki, hk⟩

/-- The history of the permits is not part of the invariant. -/
lemma Sound.settle (h : Sound reports s) (w : ℕ) :
    Sound reports { s with calls := ProcessServer.settle s.calls w } := by
  unfold ProcessServer.settle
  split
  · rename_i d hd
    exact h.replace hd rfl rfl rfl rfl rfl id
      ((h.calls w d hd).child rfl (h.calls w d hd).alive id) fun k hk => h.lock_same hd rfl rfl k hk
  · exact h

/-- **A step of a child** that puts no result on the queue keeps the invariant. -/
lemma childStep_sound (h : Sound reports s) (hi : s.calls[i]? = some c) (ha : c.alive = true)
    {a : ChildAct ρ} (hquiet : ∀ r, a ≠ .report r) (hstep : childStep s i c c.child a = some s') :
    Sound reports s' := by
  generalize hpc : c.child = pc at hstep
  cases pc <;> cases a <;> simp only [childStep, reduceCtorEq] at hstep
  case acquiring.go p =>
    split at hstep
    · obtain rfl := Option.some.inj hstep
      exact h.child hi rfl rfl rfl rfl (by rw [hpc]; rfl) (fun _ => ha) (fun _ => ha)
        (.inl ⟨rfl, by rw [hpc]; rfl⟩)
    · cases hstep
  case acquired.go p =>
    split at hstep
    · obtain rfl := Option.some.inj hstep
      exact h.child hi rfl rfl rfl rfl (by rw [hpc]; rfl) (fun _ => ha) (fun _ => ha)
        (.inr (.inr (.inl ⟨rfl, ha, rfl⟩)))
    · cases hstep
  case locked.go p =>
    obtain rfl := Option.some.inj hstep
    exact h.child hi rfl rfl rfl rfl (by rw [hpc]; rfl) (fun _ => ha) (fun _ => ha)
      (.inr (.inl ⟨rfl, ha, rfl⟩))
  case written.go p =>
    obtain rfl := Option.some.inj hstep
    exact h.child hi rfl rfl rfl rfl (by rw [hpc]; rfl) (fun _ => ha) (fun _ => ha)
      (.inr (.inr (.inr rfl)))
  case working.work p e =>
    obtain rfl := Option.some.inj hstep
    exact h.child hi rfl rfl rfl rfl (by rw [hpc]; rfl) (fun _ => ha) (fun _ => ha)
      (.inl ⟨rfl, by rw [hpc]; rfl⟩)
  case released.go p e =>
    split at hstep
    · obtain rfl := Option.some.inj hstep
      exact h.child hi rfl rfl rfl rfl (by rw [hpc]; rfl) (fun _ => ha) (fun _ => ha)
        (.inr (.inr (.inl ⟨rfl, ha, rfl⟩)))
    · cases hstep
  case popping.go p e =>
    obtain rfl := Option.some.inj hstep
    exact h.child hi rfl rfl rfl rfl (by rw [hpc]; rfl) (fun _ => ha) (fun _ => ha)
      (.inr (.inl ⟨rfl, ha, rfl⟩))
  case popped.go p e =>
    obtain rfl := Option.some.inj hstep
    exact h.child hi rfl rfl rfl rfl (by rw [hpc]; cases p <;> cases e <;> rfl) (fun _ => ha)
      (fun _ => ha) (.inr (.inr (.inr rfl)))
  case reporting.report r => exact absurd rfl (hquiet r)
  case finalLock.go =>
    split at hstep
    · obtain rfl := Option.some.inj hstep
      exact h.child hi rfl rfl rfl rfl (by rw [hpc]; rfl) (fun _ => ha) (fun _ => ha)
        (.inr (.inr (.inl ⟨rfl, ha, rfl⟩)))
    · cases hstep
  case finalLocked.go =>
    split at hstep
    · obtain rfl := Option.some.inj hstep
      exact h.child hi rfl rfl rfl rfl (by rw [hpc]; rfl) (fun _ => ha) (fun _ => ha)
        (.inr (.inl ⟨rfl, ha, rfl⟩))
    · obtain rfl := Option.some.inj hstep
      exact h.child hi rfl rfl rfl rfl (by rw [hpc]; rfl) (fun _ => ha) (fun _ => ha)
        (.inr (.inl ⟨rfl, ha, rfl⟩))
  case finalPopped.go w =>
    obtain rfl := Option.some.inj hstep
    have hnext : Sound reports ((s.release w.phase).setCall i { c with child := .finalUnlock }) :=
      h.child hi rfl rfl rfl rfl (by rw [hpc]; rfl) (fun _ => ha) (fun _ => ha)
        (.inr (.inl ⟨rfl, ha, rfl⟩))
    exact hnext.settle w.writer
  case finalUnlock.go =>
    obtain rfl := Option.some.inj hstep
    exact h.child hi rfl rfl rfl rfl (by rw [hpc]; rfl) (fun hx => by cases hx) (fun _ => ha)
      (.inr (.inr (.inr rfl)))
  case finalLock.cleanupError =>
    obtain rfl := Option.some.inj hstep
    exact h.child hi rfl rfl rfl rfl (by rw [hpc]; rfl) (fun _ => ha) (fun _ => ha)
      (.inl ⟨rfl, by rw [hpc]; rfl⟩)
  case finalLocked.cleanupError =>
    obtain rfl := Option.some.inj hstep
    exact h.child hi rfl rfl rfl rfl (by rw [hpc]; rfl) (fun _ => ha) (fun _ => ha)
      (.inr (.inr (.inr rfl)))
  case finalPopped.cleanupError w =>
    obtain rfl := Option.some.inj hstep
    exact h.child hi rfl rfl rfl rfl (by rw [hpc]; rfl) (fun _ => ha) (fun _ => ha)
      (.inr (.inr (.inr rfl)))
  case fallback.go ps =>
    cases ps with
    | nil =>
      obtain rfl := Option.some.inj hstep
      exact h.child hi rfl rfl rfl rfl (by rw [hpc]; rfl) (fun hx => by cases hx) (fun _ => ha)
        (.inl ⟨rfl, by rw [hpc]; rfl⟩)
    | cons p ps =>
      obtain rfl := Option.some.inj hstep
      exact h.child hi rfl rfl rfl rfl (by rw [hpc]; rfl) (fun _ => ha) (fun _ => ha)
        (.inl ⟨rfl, by rw [hpc]; rfl⟩)

/-! ### The queue -/

/-- The queue under an id, with a result in front. -/
lemma queuedFor_cons (j j' : String) (r : ρ) (q : List (String × ρ)) :
    queuedFor ((j', r) :: q) j = if j' = j then r :: queuedFor q j else queuedFor q j := by
  simp only [queuedFor, List.filter_cons, decide_eq_true_eq]
  split <;> rfl

/-- The queue under an id, with a result at the end. -/
lemma queuedFor_concat (j j' : String) (r : ρ) (q : List (String × ρ)) :
    queuedFor (q ++ [(j', r)]) j = queuedFor q j ++ if j' = j then [r] else [] := by
  simp only [queuedFor, List.filter_append, List.map_append, List.filter_cons, List.filter_nil,
    decide_eq_true_eq]
  split <;> rfl

/-- The child of call `i` puts its result on the queue. -/
lemma Sound.report (h : Sound reports s) (hi : s.calls[i]? = some c) (ha : c.alive = true)
    (hpc : c.child = .reporting) (r : ρ) :
    Sound (fun k => reports k ++ ((Label.child i (.report r)).reportOf k).toList)
      { s.setCall i { c with child := .finalLock } with
        resultQueue := s.resultQueue ++ [(c.id, r)] } := by
  have hfit := h.calls i c hi
  refine h.change hi rfl rfl id (fun x hx => ?_) (fun j hj => ?_) (fun _ _ => rfl)
    (fun k hk => h.entry_eq hi hk) (fun k hk => ?_) (fun x hx => ⟨x, hx, rfl⟩) ?_ fun k hk => ?_
  · rcases List.mem_append.mp hx with hx | hx
    · exact .inl hx
    · exact .inr (by rw [List.mem_singleton.mp hx])
  · rw [queuedFor_concat, if_neg (Ne.symm hj), List.append_nil]
  · simp [Label.reportOf, Ne.symm hk]
  · have hnone : (reports i).length = 0 := by
      have honce := hfit.once
      rwa [hpc] at honce
    refine ⟨?_, ?_, hfit.finished, fun _ => ha, hfit.place.mono rfl id⟩
    · rw [queuedFor_concat, if_pos rfl, ← List.append_assoc, hfit.results]
      simp [Label.reportOf]
    · simp [Label.reportOf, hnone, ChildPc.reported]
  · refine .inl ⟨?_, hk⟩
    rintro rfl
    obtain ⟨d, hd, -, hdl⟩ := h.lock k hk
    obtain rfl := Option.some.inj (hi.symm.trans hd)
    rw [hpc] at hdl
    cases hdl

/-- A call whose result is still on the queue has its entry once it has registered. -/
lemma CallFits.entry_of_queued {rs q : List ρ} {r : ρ} {entry : Option ℕ}
    (h : CallFits rs (r :: q) entry i c) (hreg : c.pc.unregistered = false) :
    entry = some i ∧ c.result = none ∧ q = [] := by
  have hlen : rs.length ≤ 1 := by
    rw [h.once]
    split <;> omega
  have hsum : c.result.toList.length + (q.length + 1) = rs.length := by
    rw [← h.results, List.length_append, List.length_cons]
  have hresult : c.result = none := by
    cases hr : c.result with
    | none => rfl
    | some x =>
      rw [hr] at hsum
      simp at hsum
      omega
  have hq : q = [] := List.eq_nil_of_length_eq_zero (by omega)
  refine ⟨?_, hresult, hq⟩
  have hplace := h.place
  cases hpc : c.pc <;> simp only [hpc, PlaceFits, hresult, CallPc.unregistered, Option.isSome_none,
    Bool.false_eq_true, and_false, reduceCtorEq, false_and, exists_false] at hplace hreg
  · exact hplace
  · exact hplace.2

/-- The result thread hands a result to a call that has registered its job state. -/
lemma deliver_sound (h : Sound reports s) (hcond : Attended s .deliver)
    (hstep : deliver s = some s') : Sound reports s' := by
  unfold deliver at hstep
  split at hstep
  · cases hstep
  · rename_i j r q hq
    obtain ⟨i, c, hi, hid⟩ := h.queue (j, r) (by rw [hq]; exact List.mem_cons_self)
    obtain rfl : c.id = j := hid
    have hreg := hcond (c.id, r) (by rw [hq]; rfl) c (List.mem_of_getElem? hi) rfl
    have hfit := h.calls i c hi
    rw [hq, queuedFor_cons, if_pos rfl] at hfit
    obtain ⟨hentry, hnone, hrest⟩ := hfit.entry_of_queued hreg
    simp only [hentry, Option.bind_some, hi, Option.map_some] at hstep
    obtain rfl := Option.some.inj hstep
    have hresults := hfit.results
    rw [hnone] at hresults
    refine h.change hi rfl rfl id (fun x hx => .inl ?_) (fun j hj => ?_) (fun _ _ => rfl)
      (fun k hk => h.entry_eq hi hk) (fun _ _ => rfl) (fun x hx => ⟨x, hx, rfl⟩) ?_ fun k hk => ?_
    · rw [hq]
      exact List.mem_cons_of_mem _ hx
    · rw [hq, queuedFor_cons, if_neg (Ne.symm hj)]
      rfl
    · refine ⟨?_, hfit.once, rfl, hfit.alive, ?_⟩
      · simpa [State.setCall] using hresults
      · have hplace := hfit.place
        cases hpc : c.pc <;> simp only [hpc, PlaceFits, hnone, Option.isSome_none,
          Bool.false_eq_true, and_false, reduceCtorEq, false_and, exists_false] at hplace ⊢
        · exact hplace
        · exact hplace
    · exact h.lock_same hi rfl rfl k hk

/-! ### The server -/

/-- Settling a permit changes a record only in its history. -/
lemma settle_getElem? {calls : List (ProcessCall ρ)} {w : ℕ}
    (h : (ProcessServer.settle calls w)[i]? = some c') :
    ∃ c, calls[i]? = some c ∧ c' = { c with owed := c'.owed } := by
  unfold ProcessServer.settle at h
  split at h
  · rename_i d hd
    rcases Pool.getElem?_set_eq_some h with ⟨rfl, rfl⟩ | ⟨-, hk⟩
    · exact ⟨d, hd, rfl⟩
    · exact ⟨c', hk, rfl⟩
  · exact ⟨c', h, rfl⟩

@[simp] lemma length_settle (calls : List (ProcessCall ρ)) (w : ℕ) :
    (ProcessServer.settle calls w).length = calls.length := by
  unfold ProcessServer.settle
  split <;> simp

/-- Popping a status word concerns no result. -/
lemma Sound.popRelease (h : Sound reports s) (j : String) : Sound reports (s.popRelease j) := by
  unfold State.popRelease
  split
  · exact h
  · rename_i w _
    exact { h.settle w.writer with }

/-- Popping a status word changes a record only in its history. -/
lemma popRelease_getElem? {j : String} (h : (s.popRelease j).calls[i]? = some c') :
    ∃ c, s.calls[i]? = some c ∧ c' = { c with owed := c'.owed } := by
  unfold State.popRelease at h
  split at h
  · exact ⟨c', h, rfl⟩
  · exact settle_getElem? h

@[simp] lemma length_popRelease (s : State ρ) (j : String) :
    (s.popRelease j).calls.length = s.calls.length := by
  unfold State.popRelease
  split
  · rfl
  · exact length_settle ..

@[simp] lemma popRelease_sweeps (s : State ρ) (j : String) :
    (s.popRelease j).sweeps = s.sweeps := by
  unfold State.popRelease
  split <;> rfl

@[simp] lemma popRelease_statusLock (s : State ρ) (j : String) :
    (s.popRelease j).statusLock = s.statusLock := by
  unfold State.popRelease
  split <;> rfl

@[simp] lemma popRelease_resultQueue (s : State ρ) (j : String) :
    (s.popRelease j).resultQueue = s.resultQueue := by
  unfold State.popRelease
  split <;> rfl

/-- The section that closes and deletes an entry, when the call has read its result and the child
does not hold the status lock. -/
lemma Sound.closeEntry (h : Sound reports s) {j : String}
    (hread : ∀ k d, s.jobs j = some k → s.calls[k]? = some d → d.pc.resultRead = true)
    (hlock : ∀ k, s.jobs j = some k → s.statusLock ≠ some k) : Sound reports (s.closeEntry j) := by
  unfold State.closeEntry
  split
  · rename_i k hk
    obtain ⟨d, hd, rfl⟩ := h.entry j k hk
    have hfit := h.calls k d hd
    have hplace := hfit.place
    -- A call that has read a result has one, so its child has reported.
    have hsome : ∃ r, d.result = some r := by
      have hpast := hread k d hk hd
      cases hpc : d.pc <;> simp only [hpc, CallPc.resultRead, PlaceFits, Bool.false_eq_true] at *
      all_goals
        obtain ⟨⟨r, hr, -⟩, -⟩ := hplace
        exact ⟨r, hr⟩
    obtain ⟨r, hr⟩ := hsome
    have hrep : d.child.reported = true := by
      cases hrep : d.child.reported with
      | true => rfl
      | false =>
        have honce := hfit.once
        rw [← hfit.results, hr, hrep] at honce
        simp at honce
    simp only [State.close, hd]
    refine h.change hd rfl rfl (fun ha => by cases ha) (fun x hx => .inl hx) (fun _ _ => rfl)
      (fun j hj => Function.update_of_ne hj _ _) (fun l hl => ?_) (fun _ _ => rfl)
      (fun x hx => ⟨x, hx, rfl⟩) ?_ fun l hl => .inl ⟨?_, hl⟩
    · simp at hl
    · refine ⟨hfit.results, hfit.once, by simp [hr], fun hno => ?_, ?_⟩
      · rw [hrep] at hno
        cases hno
      · have hpast := hread k d hk hd
        cases hpc : d.pc <;> simp only [hpc, CallPc.resultRead, PlaceFits, Bool.false_eq_true] at *
        all_goals exact ⟨hplace.1, by simp⟩
    · rintro rfl
      exact hlock l hk hl
  · exact h

/-- The record of a call whose entry has been closed. -/
lemma closeEntry_getElem? {j : String} (h : (s.closeEntry j).calls[i]? = some c') :
    ∃ c, s.calls[i]? = some c ∧ c'.id = c.id ∧ c'.pc = c.pc := by
  unfold State.closeEntry at h
  split at h
  · rename_i k _
    dsimp only [State.close] at h
    split at h
    · rename_i d hd
      rcases Pool.getElem?_set_eq_some h with ⟨rfl, rfl⟩ | ⟨-, hk⟩
      · exact ⟨d, hd, rfl, rfl⟩
      · exact ⟨c', hk, rfl, rfl⟩
    · exact ⟨c', h, rfl, rfl⟩
  · exact ⟨c', h, rfl, rfl⟩

/-- After the section there is no entry under the id. -/
lemma closeEntry_jobs (s : State ρ) (j : String) : (s.closeEntry j).jobs j = none := by
  unfold State.closeEntry
  split
  · exact Function.update_self ..
  · assumption

@[simp] lemma length_closeEntry (s : State ρ) (j : String) :
    (s.closeEntry j).calls.length = s.calls.length := by
  unfold State.closeEntry State.close
  split
  · dsimp only
    split <;> simp [State.setCall]
  · rfl

@[simp] lemma closeEntry_sweeps (s : State ρ) (j : String) :
    (s.closeEntry j).sweeps = s.sweeps := by
  unfold State.closeEntry State.close
  split
  · dsimp only
    split <;> rfl
  · rfl

@[simp] lemma closeEntry_statusLock (s : State ρ) (j : String) :
    (s.closeEntry j).statusLock = s.statusLock := by
  unfold State.closeEntry State.close
  split
  · dsimp only
    split <;> rfl
  · rfl

@[simp] lemma closeEntry_resultQueue (s : State ρ) (j : String) :
    (s.closeEntry j).resultQueue = s.resultQueue := by
  unfold State.closeEntry State.close
  split
  · dsimp only
    split <;> rfl
  · rfl

/-- A step of a `process` call that moves on without its child. -/
lemma Sound.callMove (h : Sound reports s) (hi : s.calls[i]? = some c) {pc : CallPc ρ}
    (hplace : PlaceFits (s.jobs c.id) i c pc) :
    Sound reports (s.setCall i { c with pc := pc }) := by
  have hfit := h.calls i c hi
  exact h.replace hi rfl rfl rfl rfl rfl id
    ⟨hfit.results, hfit.once, hfit.finished, hfit.alive, hplace.mono rfl id⟩
    fun k hk => h.lock_same hi rfl rfl k hk

/-- **A step of a `process` call** that meets the condition keeps the invariant. -/
lemma callStep_sound (h : Sound reports s) (hi : s.calls[i]? = some c)
    (hcond : Attended s (.call i)) (hstep : callStep s i c c.pc = some s') : Sound reports s' := by
  have hfit := h.calls i c hi
  have hplace := hfit.place
  have hclose := hcond c hi
  generalize hpc : c.pc = pc at hstep hplace hclose
  cases pc with
  | starting =>
    obtain rfl := Option.some.inj hstep
    refine h.change hi rfl rfl id (fun x hx => .inl hx) (fun _ _ => rfl)
      (fun j hj => Function.update_of_ne hj _ _) (fun k hk => ?_) (fun _ _ => rfl)
      (fun x hx => ⟨x, hx, rfl⟩) ?_ fun k hk => h.lock_same hi rfl rfl k hk
    · simpa using hk.symm
    · exact ⟨hfit.results, hfit.once, hfit.finished, hfit.alive, Function.update_self ..⟩
  | registered =>
    have hentry : s.jobs c.id = some i := hplace
    simp only [callStep, hentry] at hstep
    obtain rfl := Option.some.inj hstep
    exact h.callMove hi ⟨rfl, hentry⟩
  | waiting k =>
    obtain ⟨rfl, hentry⟩ := hplace
    simp only [callStep, hi] at hstep
    split at hstep
    · rename_i hfin
      obtain rfl := Option.some.inj hstep
      exact h.callMove hi ⟨hentry, hfit.finished.symm.trans hfin⟩
    · cases hstep
  | reading =>
    obtain ⟨hentry, hsome⟩ := hplace
    obtain ⟨r, hr⟩ := Option.isSome_iff_exists.mp hsome
    obtain rfl := Option.some.inj hstep
    refine h.callMove hi ⟨⟨r, hr, ?_⟩, .inl hentry⟩
    simp only [readResult, hentry, hi, hr]
  | tail x =>
    simp only [callStep] at hstep
    split at hstep
    · obtain ⟨d, hd, rfl⟩ := Option.map_eq_some_iff.mp hstep
      have hpop := h.popRelease c.id
      refine hpop.callMove hd ?_
      obtain ⟨c₀, hc₀, hd₀⟩ := popRelease_getElem? hd
      obtain rfl := Option.some.inj (hi.symm.trans hc₀)
      have hat := (hpop.calls i d hd).place
      rw [hd₀] at hat ⊢
      rw [hpc] at hat
      exact hat
    · cases hstep
  | closing x =>
    obtain ⟨d, hd, rfl⟩ := Option.map_eq_some_iff.mp hstep
    have hclosed : Sound reports (s.closeEntry c.id) := by
      refine h.closeEntry (fun k e hk he => ?_) fun k hk => hclose rfl k hk
      obtain rfl := h.entry_eq hi hk
      obtain rfl := Option.some.inj (hi.symm.trans he)
      rw [hpc]
      rfl
    refine hclosed.callMove hd ?_
    obtain ⟨c₀, hc₀, hid, hd₀⟩ := closeEntry_getElem? hd
    obtain rfl := Option.some.inj (hi.symm.trans hc₀)
    have hat := (hclosed.calls i d hd).place
    rw [hd₀, hpc, hid, closeEntry_jobs] at hat
    refine ⟨hat.1, ?_⟩
    simpa using hat.2
  | returning x =>
    obtain ⟨⟨r, hr, rfl⟩, hdead⟩ := hplace
    obtain rfl := Option.some.inj hstep
    refine h.replace hi rfl rfl rfl rfl rfl (fun ha => by cases ha) ?_ fun k hk => .inl ⟨?_, hk⟩
    · refine ⟨hfit.results, hfit.once, by simp [hr], fun hno => ?_, ⟨⟨r, hr, rfl⟩, rfl⟩⟩
      exact absurd (hfit.alive hno) (by simp [hdead])
    · rintro rfl
      obtain ⟨d, hd, hda, -⟩ := h.lock k hk
      obtain rfl := Option.some.inj (hi.symm.trans hd)
      exact absurd hda (by simp [hdead])
  | returned x => cases hstep
  | raised e => cases hstep

/-- A step of a sweep keeps the invariant as far as its own place is concerned. -/
lemma Sound.setSweep (h : Sound reports s) {k : ℕ} {j : String} {pc : SweepPc}
    (hk : s.sweeps[k]? = some (j, pc)) (pc' : SweepPc) :
    Sound reports { s with sweeps := s.sweeps.set k (j, pc') } := by
  refine ⟨h.ids, h.entry, h.queue, h.calls, h.fresh, fun x hx => ?_, h.lock⟩
  rcases List.mem_or_eq_of_mem_set hx with hx | rfl
  · exact h.sweeps x hx
  · exact h.sweeps (j, pc) (List.mem_of_getElem? hk)

/-- **A step of the dead-job sweep** that meets the condition keeps the invariant. -/
lemma sweepStep_sound (h : Sound reports s) {k : ℕ} {j : String} {pc : SweepPc}
    (hk : s.sweeps[k]? = some (j, pc)) (hcond : Attended s (.sweep k))
    (hstep : sweepStep s k j pc = some s') : Sound reports s' := by
  cases pc with
  | check =>
    obtain rfl := Option.some.inj hstep
    exact h.setSweep hk _
  | pop =>
    simp only [sweepStep] at hstep
    split at hstep
    · obtain rfl := Option.some.inj hstep
      have hnext := (h.popRelease j).setSweep (by rwa [popRelease_sweeps]) .close
      rwa [popRelease_sweeps] at hnext
    · cases hstep
  | close =>
    obtain rfl := Option.some.inj hstep
    have hclosed : Sound reports (s.closeEntry j) := by
      refine h.closeEntry (fun i d hi hd => hcond (j, .close) hk rfl i hi d hd) fun i hi hl => ?_
      -- The child is dead, and a dead child has no lock.
      obtain ⟨l, d, hd, hdid, hdead⟩ := h.sweeps (j, .close) (List.mem_of_getElem? hk)
      obtain ⟨e, he, hea, -⟩ := h.lock i hl
      obtain ⟨c, hc, hcid⟩ := h.entry j i hi
      obtain rfl := Option.some.inj (hc.symm.trans he)
      obtain rfl := h.ids i l c d hc hd (hcid.trans hdid.symm)
      obtain rfl := Option.some.inj (hc.symm.trans hd)
      exact absurd hea (by simp [hdead])
    have hnext := hclosed.setSweep (by rwa [closeEntry_sweeps]) .done
    rwa [closeEntry_sweeps] at hnext
  | done => cases hstep

/-- A `process` call with a fresh id starts its child. -/
lemma Sound.start (h : Sound reports s) {j : String} (hj : ∀ c ∈ s.calls, c.id ≠ j) :
    Sound reports { s with calls := s.calls ++ [newCall j] } := by
  -- A record after the step is one from before, or the new one.
  have hback : ∀ (k : ℕ) (d : ProcessCall ρ), (s.calls ++ [newCall j])[k]? = some d →
      s.calls[k]? = some d ∨ (k = s.calls.length ∧ d = newCall j) := by
    intro k d hk
    rcases Nat.lt_or_ge k s.calls.length with hlt | hge
    · rw [List.getElem?_append_left hlt] at hk
      exact .inl hk
    · rw [List.getElem?_append_right hge] at hk
      obtain ⟨hlt, hd⟩ := List.getElem?_eq_some_iff.mp hk
      have hzero : k - s.calls.length = 0 := by simpa using hlt
      refine .inr ⟨by omega, ?_⟩
      simpa [hzero] using hd.symm
  have hforth : ∀ {k : ℕ} {d : ProcessCall ρ}, s.calls[k]? = some d →
      (s.calls ++ [newCall j])[k]? = some d := by
    intro k d hk
    rw [List.getElem?_append_left (List.getElem?_eq_some_iff.mp hk).1]
    exact hk
  have hnone : s.calls[s.calls.length]? = none := List.getElem?_eq_none (Nat.le_refl _)
  refine ⟨fun k l d e hd he hde => ?_, fun j' k hk => ?_, fun x hx => ?_, fun k d hk => ?_,
    fun k hk => ?_, fun x hx => ?_, fun k hk => ?_⟩
  · rcases hback k d hd with hd | ⟨rfl, rfl⟩ <;> rcases hback l e he with he | ⟨rfl, rfl⟩
    · exact h.ids k l d e hd he hde
    · exact absurd hde (hj d (List.mem_of_getElem? hd))
    · exact absurd hde.symm (hj e (List.mem_of_getElem? he))
    · rfl
  · obtain ⟨d, hd, hid⟩ := h.entry j' k hk
    exact ⟨d, hforth hd, hid⟩
  · obtain ⟨k, d, hd, hid⟩ := h.queue x hx
    exact ⟨k, d, hforth hd, hid⟩
  · rcases hback k d hk with hk | ⟨rfl, rfl⟩
    · exact h.calls k d hk
    · have hempty : queuedFor s.resultQueue j = [] := by
        simp only [queuedFor, List.map_eq_nil_iff, List.filter_eq_nil_iff, decide_eq_true_eq]
        intro x hx hxj
        obtain ⟨k, d, hd, hid⟩ := h.queue x hx
        exact hj d (List.mem_of_getElem? hd) (hid.trans hxj)
      refine ⟨?_, ?_, rfl, fun _ => rfl, trivial⟩
      · rw [h.fresh _ hnone]
        exact hempty
      · rw [h.fresh _ hnone]
        rfl
  · apply h.fresh k
    rw [List.getElem?_eq_none_iff, List.length_append] at hk
    exact List.getElem?_eq_none (by omega)
  · obtain ⟨k, d, hd, hid, hdead⟩ := h.sweeps x hx
    exact ⟨k, d, hforth hd, hid, hdead⟩
  · obtain ⟨d, hd, hda, hdl⟩ := h.lock k hk
    exact ⟨d, hforth hd, hda, hdl⟩

/-- **The step lemma**: a step of a run in question that meets the condition keeps the invariant. -/
theorem step_sound (h : Sound reports s) {l : Label ρ} (hrun : ResultRun s l) (hcond : Attended s l)
    (hstep : step s l = some s') : Sound (fun k => reports k ++ (l.reportOf k).toList) s' := by
  have hquiet : (∀ k, l.reportOf k = none) → Sound reports s' →
      Sound (fun k => reports k ++ (l.reportOf k).toList) s' := by
    intro hno hs
    simpa [hno] using hs
  cases l with
  | start j =>
    obtain rfl := Option.some.inj hstep
    exact hquiet (fun _ => rfl) (h.start hrun)
  | call i =>
    obtain ⟨c, hc, hstep⟩ := Option.bind_eq_some_iff.mp hstep
    exact hquiet (fun _ => rfl) (callStep_sound h hc hcond hstep)
  | child i a =>
    obtain ⟨c, hc, hstep⟩ := Option.bind_eq_some_iff.mp hstep
    split at hstep
    · rename_i ha
      cases a with
      | report r =>
        cases hpc : c.child <;> simp only [hpc, childStep, reduceCtorEq] at hstep
        obtain rfl := Option.some.inj hstep
        exact h.report hc ha hpc r
      | go => exact hquiet (fun _ => rfl) (childStep_sound h hc ha (by simp) hstep)
      | work e => exact hquiet (fun _ => rfl) (childStep_sound h hc ha (by simp) hstep)
      | cleanupError => exact hquiet (fun _ => rfl) (childStep_sound h hc ha (by simp) hstep)
    · cases hstep
  | terminate i => exact hrun.elim
  | deliver => exact hquiet (fun _ => rfl) (deliver_sound h hcond hstep)
  | cancelBegin j => exact hrun.elim
  | cancel k => exact hrun.elim
  | sweepBegin j =>
    obtain ⟨i, hi, hstep⟩ := Option.bind_eq_some_iff.mp hstep
    obtain ⟨c, hc, hstep⟩ := Option.bind_eq_some_iff.mp hstep
    split at hstep
    · cases hstep
    · rename_i hdead
      obtain rfl := Option.some.inj hstep
      refine hquiet (fun _ => rfl)
        ⟨h.ids, h.entry, h.queue, h.calls, h.fresh, fun x hx => ?_, h.lock⟩
      rcases List.mem_append.mp hx with hx | hx
      · exact h.sweeps x hx
      · obtain rfl := List.mem_singleton.mp hx
        obtain ⟨d, hd, hid⟩ := h.entry j i hi
        obtain rfl := Option.some.inj (hc.symm.trans hd)
        exact ⟨i, c, hc, hid, by simpa using hdead⟩
  | sweep k =>
    obtain ⟨⟨j, pc⟩, hx, hstep⟩ := Option.bind_eq_some_iff.mp hstep
    exact hquiet (fun _ => rfl) (sweepStep_sound h hx hcond hstep)

end Steps

/-! ## Progress -/

/-- A step of a run in question that meets the condition. -/
def AttendedRun (s : State ρ) (l : Label ρ) : Prop := ResultRun s l ∧ Attended s l

instance (s : State ρ) (l : Label ρ) : Decidable (AttendedRun s l) := by
  unfold AttendedRun; infer_instance

/-- The steps that a child with the status lock takes until it gives it back. -/
def ChildPc.untilUnlock : ChildPc → ℕ
  | .written _ | .popped _ _ | .finalUnlock => 1
  | .locked _ | .popping _ _ | .finalPopped _ => 2
  | .finalLocked => 3
  | _ => 0

/-- The steps until the status lock is free. -/
def State.untilUnlock (s : State ρ) : ℕ :=
  match s.statusLock with
  | some k => ((s.calls[k]?).map fun c => c.child.untilUnlock).getD 0
  | none => 0

/-- The steps of a `process` call until it returns. -/
def CallPc.untilReturn : CallPc ρ → ℕ
  | .starting => 7
  | .registered => 6
  | .waiting _ => 5
  | .reading => 4
  | .tail _ => 3
  | .closing _ => 2
  | .returning _ => 1
  | .returned _ | .raised _ => 0

/-- The steps of call `i` until it returns. -/
def State.untilReturn (i : ℕ) (s : State ρ) : ℕ :=
  ((s.calls[i]?).map fun c => c.pc.untilReturn).getD 0

section Progress

variable {reports : ℕ → List ρ} {s s' : State ρ} {i : ℕ} {c c' : ProcessCall ρ}

/-- A child with the status lock comes nearer to giving it back. -/
lemma childStep_untilUnlock (hi : s.calls[i]? = some c) (hlock : s.statusLock = some i)
    (hhas : c.child.hasLock = true) :
    ∃ t, childStep s i c c.child .go = some t ∧ t.untilUnlock < s.untilUnlock := by
  have hlt : i < s.calls.length := (List.getElem?_eq_some_iff.mp hi).1
  have hbefore : s.untilUnlock = c.child.untilUnlock := by simp [State.untilUnlock, hlock, hi]
  -- The next place of the child, when it still has the lock.
  have hat : ∀ {t : State ρ} {m n : ℕ}, t.statusLock = some i →
      (t.calls[i]?).map (fun c => c.child.untilUnlock) = some m → m < n → t.untilUnlock < n := by
    intro t m n htl htc hm
    simpa [State.untilUnlock, htl, htc] using hm
  have hafter : ∀ {t : State ρ} {x : ChildPc} {n : ℕ}, t.statusLock = some i →
      t.calls = s.calls.set i { c with child := x } → x.untilUnlock < n → t.untilUnlock < n := by
    intro t x n htl htc hx
    exact hat htl (by simp [htc, hlt]) hx
  have hfree : ∀ {t : State ρ} {n : ℕ}, t.statusLock = none → 0 < n → t.untilUnlock < n := by
    intro t n htl hn
    simpa [State.untilUnlock, htl] using hn
  rw [hbefore]
  generalize hpc : c.child = pc at hhas
  cases pc <;> simp only [ChildPc.hasLock, Bool.false_eq_true] at hhas
  case locked p => exact ⟨_, rfl, hafter hlock rfl (by simp [ChildPc.untilUnlock])⟩
  case written p => exact ⟨_, rfl, hfree rfl (by simp [ChildPc.untilUnlock])⟩
  case popping p e => exact ⟨_, rfl, hafter hlock rfl (by simp [ChildPc.untilUnlock])⟩
  case popped p e => exact ⟨_, rfl, hfree rfl (by simp [ChildPc.untilUnlock])⟩
  case finalLocked =>
    simp only [childStep]
    split
    · exact ⟨_, rfl, hafter hlock rfl (by simp [ChildPc.untilUnlock])⟩
    · exact ⟨_, rfl, hafter hlock rfl (by simp [ChildPc.untilUnlock])⟩
  case finalPopped w =>
    refine ⟨_, rfl, ?_⟩
    have hunlock : (ProcessServer.settle (s.calls.set i { c with child := .finalUnlock })
        w.writer)[i]?.map (fun c => c.child.untilUnlock) = some 1 := by
      have hmem : i < (ProcessServer.settle (s.calls.set i { c with child := .finalUnlock })
          w.writer).length := by simpa using hlt
      obtain ⟨d, hd, hd'⟩ := settle_getElem? (List.getElem?_eq_getElem hmem)
      rw [List.getElem?_set_self hlt] at hd
      obtain rfl := Option.some.inj hd
      rw [List.getElem?_eq_getElem hmem, Option.map_some, hd']
      rfl
    exact hat hlock hunlock Nat.one_lt_two
  case finalUnlock => exact ⟨_, rfl, hfree rfl (by simp [ChildPc.untilUnlock])⟩

/-- The status lock can become free. -/
lemma Sound.canUnlock (h : Sound reports s) :
    Machine.CanReach (Machine.guarded step AttendedRun) s
      fun t => Sound reports t ∧ t.statusLock = none := by
  refine Machine.canReach_of_measure (Sound reports) State.untilUnlock (fun s h => ?_) h
  cases hlock : s.statusLock with
  | none => exact .inl rfl
  | some k =>
    obtain ⟨c, hc, ha, hhas⟩ := h.lock k hlock
    obtain ⟨t, ht, hlt⟩ := childStep_untilUnlock hc hlock hhas
    refine .inr ⟨.child k .go, t, ?_, childStep_sound h hc ha (by simp) ht, hlt⟩
    rw [Machine.guarded_eq_some]
    refine ⟨⟨trivial, trivial⟩, ?_⟩
    simp [step, hc, ha, ht]

/-- What a step of a `process` call leaves as it is, and that it brings the call nearer to its
end. -/
lemma callStep_untilReturn (hi : s.calls[i]? = some c) (hstep : callStep s i c c.pc = some s') :
    s'.statusLock = s.statusLock ∧ s'.resultQueue = s.resultQueue ∧
      s'.untilReturn i < s.untilReturn i := by
  have hlt : i < s.calls.length := (List.getElem?_eq_some_iff.mp hi).1
  have hbefore : s.untilReturn i = c.pc.untilReturn := by simp [State.untilReturn, hi]
  have hset : ∀ {t u : State ρ} {d : ProcessCall ρ} {n : ℕ}, i < t.calls.length →
      u.calls = t.calls.set i d → d.pc.untilReturn < n → u.untilReturn i < n := by
    intro t u d n ht hu hd
    simpa [State.untilReturn, hu, ht] using hd
  rw [hbefore]
  generalize hpc : c.pc = pc at hstep
  cases pc with
  | starting =>
    obtain rfl := Option.some.inj hstep
    exact ⟨rfl, rfl, hset hlt rfl (by simp [CallPc.untilReturn])⟩
  | registered =>
    simp only [callStep] at hstep
    split at hstep <;> obtain rfl := Option.some.inj hstep
    · exact ⟨rfl, rfl, hset hlt rfl (by simp [CallPc.untilReturn])⟩
    · exact ⟨rfl, rfl, hset hlt rfl (by simp [CallPc.untilReturn])⟩
  | waiting k =>
    simp only [callStep] at hstep
    split at hstep
    · split at hstep
      · obtain rfl := Option.some.inj hstep
        exact ⟨rfl, rfl, hset hlt rfl (by simp [CallPc.untilReturn])⟩
      · cases hstep
    · cases hstep
  | reading =>
    obtain rfl := Option.some.inj hstep
    exact ⟨rfl, rfl, hset hlt rfl (by simp [CallPc.untilReturn])⟩
  | tail x =>
    simp only [callStep] at hstep
    split at hstep
    · obtain ⟨d, hd, rfl⟩ := Option.map_eq_some_iff.mp hstep
      have hlt' : i < (s.popRelease c.id).calls.length := by simpa using hlt
      exact ⟨popRelease_statusLock .., popRelease_resultQueue ..,
        hset hlt' rfl (by simp [CallPc.untilReturn])⟩
    · cases hstep
  | closing x =>
    obtain ⟨d, hd, rfl⟩ := Option.map_eq_some_iff.mp hstep
    have hlt' : i < (s.closeEntry c.id).calls.length := by simpa using hlt
    exact ⟨closeEntry_statusLock .., closeEntry_resultQueue ..,
      hset hlt' rfl (by simp [CallPc.untilReturn])⟩
  | returning x =>
    obtain rfl := Option.some.inj hstep
    exact ⟨rfl, rfl, hset hlt rfl (by simp [CallPc.untilReturn])⟩
  | returned x => cases hstep
  | raised e => cases hstep

/-- Every result on the queue can be delivered, and every call can register its job state. -/
lemma Sound.canDrain (h : Sound reports s) (hlock : s.statusLock = none) :
    Machine.CanReach (Machine.guarded step AttendedRun) s
      fun t => (Sound reports t ∧ t.statusLock = none) ∧ t.resultQueue = [] := by
  refine Machine.canReach_of_measure (fun t => Sound reports t ∧ t.statusLock = none)
    (fun t => t.resultQueue.length + t.calls.countP fun c => c.pc.unregistered)
    (fun s ⟨h, hlock⟩ => ?_) ⟨h, hlock⟩
  cases hq : s.resultQueue with
  | nil => exact .inl rfl
  | cons x q =>
    by_cases hall : ∀ c ∈ s.calls, c.pc.unregistered = false
    · -- Every call has registered, so the result thread may take the next result.
      have hcond : Attended s .deliver := fun _ _ c hc _ => hall c hc
      have hcount : ∀ t : State ρ, deliver s = some t → t.statusLock = none ∧
          t.resultQueue.length + t.calls.countP (fun c => c.pc.unregistered) <
            (x :: q).length + s.calls.countP fun c => c.pc.unregistered := by
        intro t ht
        simp only [deliver, hq] at ht
        split at ht <;> obtain rfl := Option.some.inj ht
        · rename_i i c hic
          obtain ⟨k, -, hk⟩ := Option.bind_eq_some_iff.mp hic
          obtain ⟨d, hd, hkd⟩ := Option.map_eq_some_iff.mp hk
          obtain ⟨rfl, rfl⟩ := Prod.mk.inj hkd
          have hswap := Pool.countP_set_add (fun c : ProcessCall ρ => c.pc.unregistered)
            { d with result := some x.2, finished := true } hd
          simp only [State.setCall, List.length_cons] at hswap ⊢
          exact ⟨hlock, by omega⟩
        · simp only [List.length_cons]
          exact ⟨hlock, by omega⟩
      obtain ⟨t, ht⟩ : ∃ t, deliver s = some t := by
        simp only [deliver, hq]
        split <;> exact ⟨_, rfl⟩
      obtain ⟨htl, hlt⟩ := hcount t ht
      exact .inr ⟨.deliver, t, Machine.guarded_eq_some.mpr ⟨⟨trivial, hcond⟩, ht⟩,
        ⟨deliver_sound h hcond ht, htl⟩, hlt⟩
    · -- Some call has not registered, and nothing keeps it from that.
      push Not at hall
      obtain ⟨c, hc, hun⟩ := hall
      obtain ⟨k, hk⟩ := List.mem_iff_getElem?.mp hc
      have hpc : c.pc = .starting := by
        cases hpc : c.pc <;> simp [hpc, CallPc.unregistered] at hun
        rfl
      have hcond : Attended s (.call k) := by
        intro d hd hclose
        obtain rfl := Option.some.inj (hk.symm.trans hd)
        rw [hpc] at hclose
        cases hclose
      have hstep : callStep s k c c.pc = some { s.setCall k { c with pc := .registered } with
          jobs := Function.update s.jobs c.id (some k) } := by
        rw [hpc]
        rfl
      have hswap := Pool.countP_set_add (fun c : ProcessCall ρ => c.pc.unregistered)
        { c with pc := .registered } hk
      refine .inr ⟨.call k, _, Machine.guarded_eq_some.mpr ⟨⟨trivial, hcond⟩, ?_⟩,
        ⟨callStep_sound h hk hcond hstep, hlock⟩, ?_⟩
      · simp only [step, hk, Option.bind_some, hstep]
      · simp only [hpc, CallPc.unregistered, Bool.toNat_true, Bool.toNat_false, State.setCall,
          hq] at hswap ⊢
        omega

/-- A call whose result has been delivered can take its next step while the status lock is free. -/
lemma Sound.exists_callStep (h : Sound reports s) (hlock : s.statusLock = none)
    (hi : s.calls[i]? = some c) {r : ρ} (hr : c.result = some r) (hpc : c.pc.ended = false) :
    ∃ t, callStep s i c c.pc = some t := by
  have hfit := h.calls i c hi
  have hplace := hfit.place
  have hlt : i < s.calls.length := (List.getElem?_eq_some_iff.mp hi).1
  generalize hpc' : c.pc = pc at hplace hpc
  cases pc with
  | starting => exact ⟨_, rfl⟩
  | registered =>
    have hentry : s.jobs c.id = some i := hplace
    simp only [callStep, hentry]
    exact ⟨_, rfl⟩
  | waiting k =>
    obtain ⟨rfl, -⟩ := hplace
    have hfin : c.finished = true := by rw [hfit.finished, hr]; rfl
    simp only [callStep, hi, hfin, if_true]
    exact ⟨_, rfl⟩
  | reading => exact ⟨_, rfl⟩
  | tail x =>
    have hlt' : i < (s.popRelease c.id).calls.length := by simpa using hlt
    simp only [callStep, hlock, if_true, List.getElem?_eq_getElem hlt', Option.map_some]
    exact ⟨_, rfl⟩
  | closing x =>
    have hlt' : i < (s.closeEntry c.id).calls.length := by simpa using hlt
    simp only [callStep, List.getElem?_eq_getElem hlt', Option.map_some]
    exact ⟨_, rfl⟩
  | returning x => exact ⟨_, rfl⟩
  | returned x => cases hpc
  | raised e => cases hpc

/-- The result that a call has, when its child has reported and the queue is empty. -/
lemma Sound.result_of_drained (h : Sound reports s) (hq : s.resultQueue = []) {r : ρ}
    (hr : reports i = [r]) : ∃ c, s.calls[i]? = some c ∧ c.result = some r := by
  cases hc : s.calls[i]? with
  | none => exact absurd (h.fresh i hc) (by simp [hr])
  | some c =>
    refine ⟨c, rfl, ?_⟩
    have hresults := (h.calls i c hc).results
    rw [hq, hr] at hresults
    cases hres : c.result with
    | none => simp [hres, queuedFor] at hresults
    | some x => simpa [hres, queuedFor] using hresults

/-- A call that is over has returned the result of its child. -/
lemma Sound.returned_of_ended (h : Sound reports s) (hi : s.calls[i]? = some c)
    (hend : c.pc.ended = true) {r : ρ} (hr : reports i = [r]) : s.Returned i r := by
  have hfit := h.calls i c hi
  have hplace := hfit.place
  cases hpc : c.pc <;> simp only [hpc, CallPc.ended, PlaceFits, Bool.false_eq_true] at hend hplace
  obtain ⟨⟨r', hr', rfl⟩, -⟩ := hplace
  have hresults := hfit.results
  rw [hr', hr] at hresults
  have hrr : r' = r := by
    simp only [Option.toList_some, List.singleton_append, List.cons.injEq] at hresults
    exact hresults.1
  exact ⟨c, hi, by rw [hpc, hrr]⟩

/-- **A call whose child has reported can return**, and what it returns is the result of the
child. -/
theorem Sound.canReturn (h : Sound reports s) {r : ρ} (hr : reports i = [r]) :
    Machine.CanReach (Machine.guarded step AttendedRun) s fun t => t.Returned i r := by
  refine h.canUnlock.trans fun t ⟨ht, htl⟩ => (ht.canDrain htl).trans fun u ⟨⟨hu, hul⟩, huq⟩ => ?_
  refine (Machine.canReach_of_measure
    (fun v => (Sound reports v ∧ v.statusLock = none) ∧ v.resultQueue = []) (State.untilReturn i)
    (fun v ⟨⟨hv, hvl⟩, hvq⟩ => ?_) ⟨⟨hu, hul⟩, huq⟩).trans
    fun v hv => .here hv.2
  obtain ⟨c, hc, hres⟩ := hv.result_of_drained hvq hr
  cases hend : c.pc.ended with
  | true => exact .inl (hv.returned_of_ended hc hend hr)
  | false =>
    obtain ⟨w, hw⟩ := hv.exists_callStep hvl hc hres hend
    obtain ⟨hwl, hwq, hlt⟩ := callStep_untilReturn hc hw
    have hcond : Attended v (.call i) := by
      intro d _ _ k _
      simp [hvl]
    refine .inr ⟨.call i, w, Machine.guarded_eq_some.mpr ⟨⟨trivial, hcond⟩, ?_⟩,
      ⟨⟨callStep_sound hv hc hcond hw, hwl.trans hvl⟩, hwq.trans hvq⟩, hlt⟩
    simp only [step, hc, Option.bind_some, hw]

end Progress

/-! ## Runs -/

/-- The reports along one more label. -/
lemma reportsOf_concat (ls : List (Label ρ)) (l : Label ρ) :
    reportsOf (ls ++ [l]) = fun i => reportsOf ls i ++ (l.reportOf i).toList := by
  funext i
  simp only [reportsOf, List.filterMap_append, List.filterMap_cons, List.filterMap_nil]
  cases l.reportOf i <;> rfl

/-- The invariant holds at the start. -/
lemma sound_initState (max : JobType → ℕ) : Sound (reportsOf []) (initState (ρ := ρ) max) := by
  refine ⟨fun i k c d hc => ?_, fun j k hk => ?_, fun x hx => ?_, fun i c hc => ?_, fun _ _ => rfl,
    fun x hx => ?_, fun k hk => ?_⟩
  · simp [initState] at hc
  · simp [initState] at hk
  · simp [initState] at hx
  · simp [initState] at hc
  · simp [initState] at hx
  · simp [initState] at hk

/-- The invariant gives the property. -/
lemma Sound.resultsKept {ls : List (Label ρ)} {s : State ρ} (h : Sound (reportsOf ls) s) :
    ResultsKept ls s := by
  -- A child reports at most once, and only the child of a call reports.
  have hone : ∀ i, ∀ r ∈ reportsOf ls i, reportsOf ls i = [r] ∧ ∃ c, s.calls[i]? = some c := by
    intro i r hr
    cases hc : s.calls[i]? with
    | none => simp [h.fresh i hc] at hr
    | some c =>
      have hlen : (reportsOf ls i).length ≤ 1 := by
        rw [(h.calls i c hc).once]
        split <;> omega
      refine ⟨?_, c, rfl⟩
      cases hls : reportsOf ls i with
      | nil => simp [hls] at hr
      | cons x xs =>
        rw [hls] at hlen hr
        obtain rfl : xs = [] := List.eq_nil_of_length_eq_zero (by simpa using hlen)
        rw [List.mem_singleton.mp hr]
  refine ⟨fun i r hr => ?_, fun i r hr => ?_, fun i r hr c hc hend => ?_, fun i c r hc hres => ?_⟩
  · obtain ⟨heq, c, hc⟩ := hone i r hr
    have hfit := h.calls i c hc
    have hresults := hfit.results
    refine ⟨c, hc, ?_⟩
    cases hres : c.result with
    | none =>
      left
      have hmem : r ∈ queuedFor s.resultQueue c.id := by
        rw [hres] at hresults
        simpa [← hresults] using hr
      obtain ⟨x, hx, rfl⟩ := List.mem_map.mp hmem
      obtain ⟨hx, hid⟩ := List.mem_filter.mp hx
      rw [← of_decide_eq_true hid]
      exact hx
    | some x =>
      right
      rw [hres, heq] at hresults
      refine ⟨?_, by rw [hfit.finished, hres]; rfl⟩
      simp only [Option.toList_some, List.singleton_append, List.cons.injEq] at hresults
      rw [hresults.1]
  · obtain ⟨heq, -⟩ := hone i r hr
    exact (h.canReturn heq).weaken fun _ _ hrun => hrun.1
  · obtain ⟨heq, -⟩ := hone i r hr
    exact h.returned_of_ended hc hend heq
  · rw [← (h.calls i c hc).results, hres]
    simp

/-- **No lost result**: in every run of `process` calls with distinct ids, their children, the
result thread and the dead-job sweep whose steps all meet the condition, in every state that is
reached each result that a child has put on `result_queue` is still there or in the job state of the
call that started the child, and this call can return it and returns nothing else. -/
theorem resultsKept_of_attended (max : JobType → ℕ) (ls : List (Label ρ)) (s : State ρ)
    (hrun : Machine.run (Machine.guarded step AttendedRun) (initState max) ls = some s) :
    ResultsKept ls s := by
  have hinv : Sound (reportsOf ([] ++ ls)) s := by
    refine Machine.run_trace_invariant (fun ls s => Sound (reportsOf ls) s)
      (fun ls s l s' h hstep => ?_) (sound_initState max) hrun
    obtain ⟨⟨hin, hcond⟩, hstep⟩ := Machine.guarded_eq_some.mp hstep
    rw [reportsOf_concat]
    exact step_sound h hin hcond hstep
  exact hinv.resultsKept

/-- The child of the first call fails in its first phase and reports. -/
def failAndReport : List (Label Unit) :=
  enterPhase ++ [Label.child 0 (.work .fail), .child 0 .go, .child 0 .go, .child 0 .go,
    .child 0 (.report ())]

/-- The job state is registered before the result comes. -/
def deliveredRun : List (Label Unit) :=
  [Label.start "a", .call 0, .call 0] ++ failAndReport ++ [Label.deliver]

theorem resultsKept_deliveredRun :
    ∃ s, Machine.run (Machine.guarded step AttendedRun) (initState onePermit) deliveredRun =
      some s ∧ () ∈ reportsOf deliveredRun 0 ∧ ResultsKept deliveredRun s := by
  obtain ⟨s, hrun⟩ : ∃ s, Machine.run (Machine.guarded step AttendedRun) (initState onePermit)
      deliveredRun = some s := ⟨_, rfl⟩
  exact ⟨s, hrun, by decide, resultsKept_of_attended onePermit deliveredRun s hrun⟩

/-- The result comes before the job state is registered. -/
def droppedRun : List (Label Unit) :=
  [Label.start "a"] ++ failAndReport ++ [Label.deliver, .call 0, .call 0]

/-- The child ends, and the sweep deletes its entry before the result is delivered. -/
def sweptRun : List (Label Unit) :=
  [Label.start "a", .call 0, .call 0] ++ failAndReport ++
    [Label.child 0 .go, .child 0 .go, .child 0 .go, .sweepBegin "a", .sweep 0, .sweep 0, .deliver]

/-- Results are lost: one that is taken from the queue before the job state of its call is
registered, and one whose entry the dead-job sweep has deleted. -/
theorem not_resultsKept_dropped :
    (∃ s, Machine.run (Machine.guarded step ResultRun) (initState onePermit) droppedRun = some s ∧
      ¬ ResultsKept droppedRun s) ∧
    ∃ s, Machine.run (Machine.guarded step ResultRun) (initState onePermit) sweptRun = some s ∧
      ¬ ResultsKept sweptRun s := by
  constructor
  · refine ⟨_, rfl, fun h => ?_⟩
    obtain ⟨c, hc, hkept⟩ := h.kept 0 () (by decide)
    obtain rfl := Option.some.inj hc
    rcases hkept with hq | ⟨hres, -⟩
    · exact absurd hq (by decide)
    · exact absurd hres (by decide)
  · refine ⟨_, rfl, fun h => ?_⟩
    obtain ⟨c, hc, hkept⟩ := h.kept 0 () (by decide)
    obtain rfl := Option.some.inj hc
    rcases hkept with hq | ⟨hres, -⟩
    · exact absurd hq (by decide)
    · exact absurd hres (by decide)

end ProRLAgent.ProcessServer
