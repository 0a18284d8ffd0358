import Mathlib.Data.List.Basic
import Mathlib.Data.Bool.Basic
import ProRLAgent.Lib.Machine
import ProRLAgent.Lib.Pool
import ProRLAgent.Process.Server

set_option relaxedAutoImplicit false
set_option autoImplicit false

/-!
# Conservation of the semaphores' permits

Five places return permits, guided by the status word of the job. They do not exclude each other:
a child whose word has been popped by `cancel_job` or by the tail of `process` goes on working and
releases its semaphore again, and a child that is killed with a permit and without a word takes
the permit with it.

`Undisturbed` names the steps at which this happens. Along a run that avoids them every permit is
either free or owed by exactly one child: a live child that has not written its word yet, or one
whose word is still in `job_status`. That invariant (`Conserved`) gives the bound on the free
permits, and at the end of all calls nothing is owed.

## Main definitions

* `ProcessServer.Undisturbed` — the condition on a step.
* `ProcessServer.Conserved` — the invariant.

## Main results

* `ProcessServer.step_conserved` — an undisturbed step keeps the invariant.
* `ProcessServer.permits_conserved_of_undisturbed` — along undisturbed runs the free permits never
  exceed the maximum and are all there in the end.
* `ProcessServer.not_permits_conserved` — a cancelled job releases its permit twice, and a killed
  one loses it.
-/

namespace ProRLAgent.ProcessServer

variable {ρ : Type}

/-! ## The condition -/

/-- The child has released its permit itself and has not popped its status word. -/
def ChildPc.betweenReleaseAndPop : ChildPc → Bool
  | .released _ _ | .popping _ _ => true
  | _ => false

/-- The status word of the id may be popped: no child of that id stands, or was killed, between
its own release and its own pop. -/
def State.popSafe (s : State ρ) (j : String) : Prop :=
  ∀ c ∈ s.calls, c.id = j → c.child.betweenReleaseAndPop = false

/-- The child may be killed here: it has no permit and no status word, or it works and its permit
has already been returned, or it works and the call that started it will still look for its
word. -/
def State.killSafeAt (s : State ρ) (c : ProcessCall ρ) : ChildPc → Bool
  | .acquired _ | .locked _ | .released _ _ | .popping _ _ | .finalPopped _ => false
  | .written _ | .working _ => s.status c.id = none ∨ c.pc.tailAhead
  | _ => true

/-- Call `k`'s child is dead or may be killed. -/
def State.killSafe (s : State ρ) (k : ℕ) : Prop :=
  ∀ c ∈ s.calls[k]?, c.alive → s.killSafeAt c c.child

/-- Call `i` may end, and with it its child: the job has no status word and the child may be
killed. -/
def State.exitSafe (s : State ρ) (i : ℕ) (j : String) : Prop :=
  s.status j = none ∧ s.killSafe i

/-- The entry of the id in `self.jobs` may be closed. -/
def State.closeSafe (s : State ρ) (j : String) : Prop :=
  ∀ k ∈ s.jobs j, s.killSafe k

/-- The condition on the next step of a `process` call. -/
def State.callSafe (s : State ρ) (i : ℕ) (c : ProcessCall ρ) : CallPc ρ → Prop
  | .registered => s.jobs c.id = none → s.exitSafe i c.id
  | .tail _ => s.popSafe c.id
  | .closing _ => s.closeSafe c.id
  | .returning _ => s.exitSafe i c.id
  | _ => True

/-- **The condition on a step**: a call starts only for an id that no other unfinished call has; a
child releases its own permit only while its status word is there; a status word is popped by
another thread, a child is killed and a call ends only where that is safe; the last resort of
`process_job` is not taken. -/
def Undisturbed (s : State ρ) : Label ρ → Prop
  | .start j => ∀ c ∈ s.calls, c.id = j → c.pc.ended
  | .call i => ∀ c ∈ s.calls[i]?, s.callSafe i c c.pc
  | .child i (.work _) => ∀ c ∈ s.calls[i]?, (s.status c.id).isSome
  | .child _ .cleanupError => False
  | .cancel k => ∀ x ∈ s.cancels[k]?, x.2 = .pop → s.popSafe x.1
  | .sweep k =>
    ∀ x ∈ s.sweeps[k]?, (x.2 = .pop → s.popSafe x.1) ∧ (x.2 = .close → s.closeSafe x.1)
  | .terminate i => s.killSafe i
  | _ => True

instance (s : State ρ) (j : String) : Decidable (s.popSafe j) := by
  unfold State.popSafe; infer_instance

instance (s : State ρ) (k : ℕ) : Decidable (s.killSafe k) := by
  unfold State.killSafe; infer_instance

instance (s : State ρ) (i : ℕ) (j : String) : Decidable (s.exitSafe i j) := by
  unfold State.exitSafe; infer_instance

instance (s : State ρ) (j : String) : Decidable (s.closeSafe j) := by
  unfold State.closeSafe; infer_instance

instance (s : State ρ) (i : ℕ) (c : ProcessCall ρ) (pc : CallPc ρ) :
    Decidable (s.callSafe i c pc) := by
  cases pc <;> unfold State.callSafe <;> infer_instance

instance (s : State ρ) (l : Label ρ) : Decidable (Undisturbed s l) := by
  cases l with
  | child i a => cases a <;> unfold Undisturbed <;> infer_instance
  | _ => unfold Undisturbed; infer_instance

/-! ## The invariant -/

/-- The child of call `i` can owe a permit of phase `p` where it stands: it is alive and has not
written its word, or its word is in `job_status` and somebody will still look at it. -/
def OwesAt (status : String → Option StatusWord) (i : ℕ) (c : ProcessCall ρ) (p : JobType) :
    ChildPc → Prop
  | .acquired q | .locked q => q = p ∧ c.alive
  | .written q | .working q => q = p ∧ status c.id = some ⟨p, i⟩ ∧ (c.alive ∨ c.pc.tailAhead)
  | _ => False

/-- What holds of call `i` on its own. -/
structure CallOk (status : String → Option StatusWord) (i : ℕ) (c : ProcessCall ρ) : Prop where
  owes : ∀ p, c.owed = some p → OwesAt status i c p c.child
  holds : ∀ p, c.child = .acquired p ∨ c.child = .locked p → c.owed = some p
  ended : c.pc.ended → c.alive = false
  noLeftover : ∀ w, c.child ≠ .finalPopped w
  noFallback : ∀ ps, c.child ≠ .fallback ps

/-- What a status word says about the child that wrote it: the permit is still owed, or the child
is alive and has just returned it. -/
def WordOk (w : StatusWord) (c : ProcessCall ρ) : Prop :=
  c.pc.ended = false ∧
    ((c.owed = some w.phase ∧ (c.child = .written w.phase ∨ c.child = .working w.phase)) ∨
      (c.alive ∧ c.owed = none ∧
        ∃ e, c.child = .released w.phase e ∨ c.child = .popping w.phase e))

/-- **The invariant**: every permit is free or owed, and the status words say by whom. -/
structure Conserved (max free : JobType → ℕ) (status : String → Option StatusWord)
    (calls : List (ProcessCall ρ)) : Prop where
  count : ∀ p, free p + calls.countP (fun c => c.owed = some p) = max p
  ok : ∀ i c, calls[i]? = some c → CallOk status i c
  words : ∀ j w, status j = some w → ∃ c, calls[w.writer]? = some c ∧ c.id = j ∧ WordOk w c
  unique : ∀ (i k : ℕ) (c d : ProcessCall ρ), calls[i]? = some c → calls[k]? = some d →
    c.pc.ended = false → d.pc.ended = false → c.id = d.id → i = k

section Replace

variable {max free free' : JobType → ℕ} {status status' : String → Option StatusWord}
  {calls : List (ProcessCall ρ)} {i : ℕ} {c c' : ProcessCall ρ}

/-- A status word under the id of an unfinished call was written by that call's child. -/
lemma Conserved.writer_eq (h : Conserved max free status calls) (hi : calls[i]? = some c)
    (hc : c.pc.ended = false) {w : StatusWord} (hw : status c.id = some w) : w.writer = i := by
  obtain ⟨d, hd, hid, hok, -⟩ := h.words c.id w hw
  exact h.unique w.writer i d c hd hi hok hc hid

/-- A live child belongs to an unfinished call. -/
lemma CallOk.not_ended (h : CallOk status i c) (ha : c.alive = true) : c.pc.ended = false := by
  by_contra hne
  rw [h.ended (by simpa using hne)] at ha
  exact Bool.false_ne_true ha

/-- **The replacement rule**: a step that changes one call, the free permits and the status word
of that call's id keeps the invariant, if the new record is in order, its words are accounted for
and the permits balance. -/
lemma Conserved.replace (h : Conserved max free status calls) (hi : calls[i]? = some c)
    (hid : c'.id = c.id) (hend : c'.pc.ended = false → c.pc.ended = false)
    (hoff : ∀ j, j ≠ c.id → status' j = status j)
    (hkeep : ∀ w, status c.id = some w → w.writer ≠ i → status' c.id = some w)
    (hbal : ∀ p, free' p + (decide (c'.owed = some p)).toNat =
      free p + (decide (c.owed = some p)).toNat)
    (hok : CallOk status' i c')
    (hwords : ∀ w, status' c.id = some w →
      (w.writer = i ∧ WordOk w c') ∨ (w.writer ≠ i ∧ status c.id = some w)) :
    Conserved max free' status' (calls.set i c') := by
  have hlt : i < calls.length := (List.getElem?_eq_some_iff.mp hi).1
  have hset : (calls.set i c')[i]? = some c' := by simp [hlt]
  have hother : ∀ k, k ≠ i → (calls.set i c')[k]? = calls[k]? := fun k hk =>
    List.getElem?_set_ne (Ne.symm hk)
  refine ⟨fun p => ?_, fun k d hk => ?_, fun j w hw => ?_, fun k l d e hk hl hd he hde => ?_⟩
  · have hcount := Pool.countP_set_add (fun c => decide (c.owed = some p)) c' hi
    have hmax := h.count p
    have := hbal p
    omega
  · by_cases hki : k = i
    · subst hki
      obtain rfl : c' = d := by simpa [hset] using hk
      exact hok
    · rw [hother k hki] at hk
      have hd := h.ok k d hk
      refine ⟨fun p hp => ?_, hd.holds, hd.ended, hd.noLeftover, hd.noFallback⟩
      have howes := hd.owes p hp
      -- Only the clause about the status word reads the dictionary.
      have hword : status d.id = some ⟨p, k⟩ → status' d.id = some ⟨p, k⟩ := by
        intro hw
        by_cases hdc : d.id = c.id
        · rw [hdc] at hw ⊢
          exact hkeep _ hw hki
        · rw [hoff _ hdc, hw]
      cases hpc : d.child <;> simp only [hpc, OwesAt] at howes ⊢
      case acquired => exact howes
      case locked => exact howes
      case written => exact ⟨howes.1, hword howes.2.1, howes.2.2⟩
      case working => exact ⟨howes.1, hword howes.2.1, howes.2.2⟩
  · by_cases hj : j = c.id
    · subst hj
      rcases hwords w hw with ⟨rfl, hword⟩ | ⟨hne, hold⟩
      · exact ⟨c', hset, hid, hword⟩
      · obtain ⟨d, hd, hdid, hword⟩ := h.words _ w hold
        exact ⟨d, by rw [hother _ hne, hd], hdid, hword⟩
    · rw [hoff j hj] at hw
      obtain ⟨d, hd, hdid, hword⟩ := h.words j w hw
      have hne : w.writer ≠ i := by
        rintro rfl
        rw [hi] at hd
        obtain rfl := Option.some.inj hd
        exact hj hdid.symm
      exact ⟨d, by rw [hother _ hne, hd], hdid, hword⟩
  · -- A record is compared by its old version, which is unfinished too.
    have hback : ∀ (m : ℕ) (x : ProcessCall ρ), (calls.set i c')[m]? = some x →
        x.pc.ended = false →
          ∃ y : ProcessCall ρ, calls[m]? = some y ∧ y.pc.ended = false ∧ y.id = x.id := by
      intro m x hm hx
      by_cases hmi : m = i
      · subst hmi
        obtain rfl : c' = x := by simpa [hset] using hm
        exact ⟨c, hi, hend hx, hid.symm⟩
      · exact ⟨x, by rw [← hother m hmi, hm], hx, rfl⟩
    obtain ⟨d', hd', hd'e, hd'i⟩ := hback k d hk hd
    obtain ⟨e', he', he'e, he'i⟩ := hback l e hl he
    exact h.unique k l d' e' hd' he' hd'e he'e (by rw [hd'i, he'i, hde])

/-- The replacement rule for a step that touches neither the permits nor the status words. -/
lemma Conserved.frame (h : Conserved max free status calls) (hi : calls[i]? = some c)
    (hid : c'.id = c.id) (hend : c'.pc.ended = false → c.pc.ended = false)
    (howed : c'.owed = c.owed) (hok : CallOk status i c')
    (hword : ∀ w, status c.id = some w → WordOk w c → WordOk w c') :
    Conserved max free status (calls.set i c') := by
  refine h.replace hi hid hend (fun _ _ => rfl) (fun w hw _ => hw)
    (fun p => by rw [howed]) hok fun w hw => ?_
  by_cases hwi : w.writer = i
  · obtain ⟨d, hd, -, hwd⟩ := h.words _ w hw
    rw [hwi, hi] at hd
    obtain rfl := Option.some.inj hd
    exact .inl ⟨hwi, hword w hw hwd⟩
  · exact .inr ⟨hwi, hw⟩

end Replace

/-! ## Steps of a child -/

/-- The child holds no permit and has no status word here. -/
def ChildPc.idle : ChildPc → Bool
  | .acquiring _ | .popped _ _ | .reporting | .finalLock | .finalLocked | .finalUnlock
  | .exited => true
  | _ => false

section Child

variable {max : JobType → ℕ} {s s' : State ρ} {i : ℕ} {c : ProcessCall ρ}

/-- An idle child owes nothing. -/
lemma CallOk.owed_of_idle {status : String → Option StatusWord} (h : CallOk status i c)
    (hc : c.child.idle = true) : c.owed = none := by
  cases howed : c.owed with
  | none => rfl
  | some p =>
    have := h.owes p howed
    cases hpc : c.child <;> simp_all [OwesAt, ChildPc.idle]

/-- No status word is about an idle child. -/
lemma WordOk.not_idle {w : StatusWord} (h : WordOk w c) : c.child.idle = false := by
  rcases h.2 with ⟨-, h | h⟩ | ⟨-, -, e, h | h⟩ <;> rw [h] <;> rfl

/-- A record with an idle child that owes nothing is in order. -/
lemma CallOk.of_idle {status : String → Option StatusWord} (hc : c.child.idle = true)
    (howed : c.owed = none) (hend : c.pc.ended → c.alive = false) : CallOk status i c := by
  refine ⟨fun p hp => ?_, fun p hp => ?_, hend, fun w hw => ?_, fun ps hps => ?_⟩
  · rw [howed] at hp
    exact absurd hp (by simp)
  · rcases hp with hp | hp <;> rw [hp] at hc <;> exact absurd hc (by simp [ChildPc.idle])
  · rw [hw] at hc
    exact absurd hc (by simp [ChildPc.idle])
  · rw [hps] at hc
    exact absurd hc (by simp [ChildPc.idle])

/-- A child that goes from one idle place to another keeps the invariant. -/
lemma Conserved.idle_step (h : Conserved max s.free s.status s.calls)
    (hi : s.calls[i]? = some c) (hc : c.child.idle = true) {x : ChildPc} (hx : x.idle = true)
    {b : Bool}
    (hb : c.pc.ended → b = false) :
    Conserved max s.free s.status (s.calls.set i { c with child := x, alive := b }) := by
  have howed := (h.ok i c hi).owed_of_idle hc
  refine h.frame hi rfl id rfl (CallOk.of_idle hx howed hb) fun w _ hw => ?_
  rw [hw.not_idle] at hc
  exact absurd hc Bool.false_ne_true

/-- The `acquire` of a phase's semaphore. -/
lemma Conserved.acquire (h : Conserved max s.free s.status s.calls)
    (hi : s.calls[i]? = some c) (ha : c.alive = true) {p : JobType}
    (hpc : c.child = .acquiring p) (hfree : 0 < s.free p) :
    Conserved max (Function.update s.free p (s.free p - 1)) s.status
      (s.calls.set i { c with child := .acquired p, owed := some p }) := by
  have hok := h.ok i c hi
  have howed : c.owed = none := hok.owed_of_idle (by rw [hpc]; rfl)
  refine h.replace hi rfl id (fun _ _ => rfl) (fun w hw _ => hw) (fun q => ?_)
    ⟨fun q hq => ?_, fun q hq => ?_, hok.ended, fun w => ?_, fun ps => ?_⟩ fun w hw => ?_
  · rw [howed]
    by_cases hq : q = p
    · subst hq
      simp only [Function.update_self, decide_true, Bool.toNat_true, reduceCtorEq, decide_false,
        Bool.toNat_false]
      omega
    · simp [Function.update_of_ne hq, Ne.symm hq]
  · exact ⟨by simpa using hq, ha⟩
  · simpa using hq
  · simp
  · simp
  · refine .inr ⟨fun hwi => ?_, hw⟩
    obtain ⟨d, hd, -, hword⟩ := h.words _ w hw
    rw [hwi, hi] at hd
    obtain rfl := Option.some.inj hd
    have := hword.not_idle
    rw [hpc] at this
    exact absurd this (by simp [ChildPc.idle])

/-- The child takes the status lock. -/
lemma Conserved.lockStatus (h : Conserved max s.free s.status s.calls)
    (hi : s.calls[i]? = some c) {p : JobType} (hpc : c.child = .acquired p) :
    Conserved max s.free s.status (s.calls.set i { c with child := .locked p }) := by
  have hok := h.ok i c hi
  have howed : c.owed = some p := hok.holds p (.inl hpc)
  refine h.frame hi rfl id rfl ⟨fun q hq => ?_, fun q hq => ?_, hok.ended, fun w => ?_,
    fun ps => ?_⟩ fun w _ hword => ?_
  · have howes := hok.owes q hq
    rw [hpc] at howes
    exact howes
  · obtain rfl : p = q := by simpa using hq
    exact howed
  · simp
  · simp
  · rcases hword.2 with ⟨-, hw | hw⟩ | ⟨-, -, e, hw | hw⟩ <;> rw [hpc] at hw <;> cases hw

/-- The child writes its status word. -/
lemma Conserved.writeStatus (h : Conserved max s.free s.status s.calls)
    (hi : s.calls[i]? = some c) (ha : c.alive = true) {p : JobType} (hpc : c.child = .locked p) :
    Conserved max s.free (Function.update s.status c.id (some ⟨p, i⟩))
      (s.calls.set i { c with child := .written p }) := by
  have hok := h.ok i c hi
  have howed : c.owed = some p := hok.holds p (.inr hpc)
  have hend := hok.not_ended ha
  refine h.replace hi rfl id (fun j hj => Function.update_of_ne hj _ _) (fun w hw hne => ?_)
    (fun _ => rfl) ⟨fun q hq => ?_, fun q hq => ?_, hok.ended, fun w => ?_, fun ps => ?_⟩
    fun w hw => ?_
  · exact absurd (h.writer_eq hi hend hw) hne
  · obtain rfl : p = q := by simpa [howed] using hq
    exact ⟨rfl, by simp, .inl ha⟩
  · simp at hq
  · simp
  · simp
  · obtain rfl : ⟨p, i⟩ = w := by simpa using hw
    exact .inl ⟨rfl, hend, .inl ⟨howed, .inl rfl⟩⟩

/-- The child gives the status lock back and starts to work. -/
lemma Conserved.startWork (h : Conserved max s.free s.status s.calls)
    (hi : s.calls[i]? = some c) {p : JobType} (hpc : c.child = .written p) :
    Conserved max s.free s.status (s.calls.set i { c with child := .working p }) := by
  have hok := h.ok i c hi
  refine h.frame hi rfl id rfl ⟨fun q hq => ?_, fun q hq => ?_, hok.ended, fun w => ?_,
    fun ps => ?_⟩ fun w _ hword => ?_
  · have howes := hok.owes q hq
    rw [hpc] at howes
    exact howes
  · simp at hq
  · simp
  · simp
  · refine ⟨hword.1, ?_⟩
    rcases hword.2 with ⟨ho, hw | hw⟩ | ⟨-, -, e, hw | hw⟩ <;> rw [hpc] at hw <;> cases hw
    exact .inl ⟨ho, .inr rfl⟩

/-- The child releases its own permit while its status word is there. -/
lemma Conserved.releaseOwn (h : Conserved max s.free s.status s.calls)
    (hi : s.calls[i]? = some c) (ha : c.alive = true) {p : JobType} {e : StepEnd}
    (hpc : c.child = .working p)
    (hword : (s.status c.id).isSome) :
    Conserved max (s.release p).free s.status
      (s.calls.set i { c with child := .released p e, owed := none }) := by
  have hok := h.ok i c hi
  have hend := hok.not_ended ha
  obtain ⟨w, hw⟩ := Option.isSome_iff_exists.mp hword
  have hwi := h.writer_eq hi hend hw
  -- The word is the child's own, so the permit is still owed.
  have hwp : c.owed = some w.phase ∧ w.phase = p := by
    obtain ⟨d, hd, -, -, hwd⟩ := h.words _ w hw
    rw [hwi, hi] at hd
    obtain rfl := Option.some.inj hd
    rcases hwd with ⟨ho, hw | hw⟩ | ⟨-, -, e, hw | hw⟩ <;> rw [hpc] at hw <;> cases hw
    exact ⟨ho, rfl⟩
  obtain ⟨howed, rfl⟩ := hwp
  refine h.replace hi rfl id (fun _ _ => rfl) (fun v hv _ => hv) (fun q => ?_)
    ⟨fun q hq => ?_, fun q hq => ?_, hok.ended, fun w => ?_, fun ps => ?_⟩ fun v hv => ?_
  · rw [howed]
    by_cases hq : q = w.phase
    · subst hq
      simp [State.release]
    · simp [State.release, Function.update_of_ne hq, Ne.symm hq]
  · simp at hq
  · simp at hq
  · simp
  · simp
  · obtain rfl : w = v := by simpa [hw] using hv
    exact .inl ⟨hwi, hend, .inr ⟨ha, rfl, e, .inl rfl⟩⟩

/-- The child takes the status lock to pop its word. -/
lemma Conserved.lockPop (h : Conserved max s.free s.status s.calls)
    (hi : s.calls[i]? = some c) {p : JobType} {e : StepEnd} (hpc : c.child = .released p e) :
    Conserved max s.free s.status (s.calls.set i { c with child := .popping p e }) := by
  have hok := h.ok i c hi
  refine h.frame hi rfl id rfl ⟨fun q hq => ?_, fun q hq => ?_, hok.ended, fun w => ?_,
    fun ps => ?_⟩ fun w _ hword => ?_
  · simpa only [hpc, OwesAt] using hok.owes q hq
  · simp at hq
  · simp
  · simp
  · refine ⟨hword.1, ?_⟩
    rcases hword.2 with ⟨-, hw | hw⟩ | ⟨ha, ho, e, hw | hw⟩ <;> rw [hpc] at hw <;> cases hw
    exact .inr ⟨ha, ho, e, .inr rfl⟩

/-- The child pops its own status word. -/
lemma Conserved.popOwn (h : Conserved max s.free s.status s.calls)
    (hi : s.calls[i]? = some c) (ha : c.alive = true) {p : JobType} {e : StepEnd}
    (hpc : c.child = .popping p e) :
    Conserved max s.free (Function.update s.status c.id none)
      (s.calls.set i { c with child := .popped p e }) := by
  have hok := h.ok i c hi
  have hend := hok.not_ended ha
  have howed : c.owed = none := by
    cases howed : c.owed with
    | none => rfl
    | some q =>
      have := hok.owes q howed
      simp [hpc, OwesAt] at this
  refine h.replace hi rfl id (fun j hj => Function.update_of_ne hj _ _) (fun w hw hne => ?_)
    (fun _ => rfl) (CallOk.of_idle rfl howed hok.ended) fun w hw => ?_
  · exact absurd (h.writer_eq hi hend hw) hne
  · simp at hw

/-- An idle live child finds no status word under its id. -/
lemma Conserved.status_of_idle (h : Conserved max s.free s.status s.calls)
    (hi : s.calls[i]? = some c) (ha : c.alive = true) (hc : c.child.idle = true) :
    s.status c.id = none := by
  cases hw : s.status c.id with
  | none => rfl
  | some w =>
    have hwi := h.writer_eq hi ((h.ok i c hi).not_ended ha) hw
    obtain ⟨d, hd, -, hword⟩ := h.words _ w hw
    rw [hwi, hi] at hd
    obtain rfl := Option.some.inj hd
    rw [hword.not_idle] at hc
    exact absurd hc Bool.false_ne_true

/-- **A step of a child** that meets the condition keeps the invariant. -/
lemma childStep_conserved (h : Conserved max s.free s.status s.calls)
    (hi : s.calls[i]? = some c) (ha : c.alive = true) {a : ChildAct ρ}
    (hcond : Undisturbed s (.child i a))
    (hstep : childStep s i c c.child a = some s') :
    Conserved max s'.free s'.status s'.calls := by
  have hok := h.ok i c hi
  have hidle : ∀ {x : ChildPc} {b : Bool}, c.child.idle = true → x.idle = true →
      (b = false ∨ b = c.alive) →
      Conserved max s.free s.status (s.calls.set i { c with child := x, alive := b }) := by
    intro x b hc hx hb
    refine h.idle_step hi hc hx fun he => ?_
    rcases hb with hb | hb
    · exact hb
    · rw [hb, hok.ended he]
  generalize hpc : c.child = pc at hstep
  cases pc <;> cases a <;> simp only [childStep, reduceCtorEq] at hstep
  case acquiring.go p =>
    split at hstep
    · obtain rfl := Option.some.inj hstep
      exact h.acquire hi ha hpc ‹_›
    · cases hstep
  case acquired.go p =>
    split at hstep
    · obtain rfl := Option.some.inj hstep
      exact h.lockStatus hi hpc
    · cases hstep
  case locked.go p =>
    obtain rfl := Option.some.inj hstep
    exact h.writeStatus hi ha hpc
  case written.go p =>
    obtain rfl := Option.some.inj hstep
    exact h.startWork hi hpc
  case working.work p e =>
    obtain rfl := Option.some.inj hstep
    exact h.releaseOwn hi ha hpc (hcond c hi)
  case released.go p e =>
    split at hstep
    · obtain rfl := Option.some.inj hstep
      exact h.lockPop hi hpc
    · cases hstep
  case popping.go p e =>
    obtain rfl := Option.some.inj hstep
    exact h.popOwn hi ha hpc
  case popped.go p e =>
    obtain rfl := Option.some.inj hstep
    exact hidle (by rw [hpc]; rfl) (by cases p <;> cases e <;> rfl) (.inr rfl)
  case reporting.report r =>
    obtain rfl := Option.some.inj hstep
    exact hidle (by rw [hpc]; rfl) rfl (.inr rfl)
  case finalLock.go =>
    split at hstep
    · obtain rfl := Option.some.inj hstep
      exact hidle (by rw [hpc]; rfl) rfl (.inr rfl)
    · cases hstep
  case finalLocked.go =>
    rw [h.status_of_idle hi ha (by rw [hpc]; rfl)] at hstep
    obtain rfl := Option.some.inj hstep
    exact hidle (by rw [hpc]; rfl) rfl (.inr rfl)
  case finalUnlock.go =>
    obtain rfl := Option.some.inj hstep
    exact hidle (by rw [hpc]; rfl) rfl (.inl rfl)
  case finalPopped.go w => exact absurd hpc (hok.noLeftover w)
  case fallback.go ps => exact absurd hpc (hok.noFallback ps)
  all_goals exact hcond.elim

end Child

/-! ## Steps of the server process -/

section Server

variable {max : JobType → ℕ} {s s' : State ρ} {i k : ℕ} {j : String} {c c' d d' : ProcessCall ρ}

/-- Replacing a record by one with the same id and program counter changes no id and no program
counter. -/
lemma id_pc_of_getElem?_set {calls : List (ProcessCall ρ)} (hk : calls[k]? = some d)
    (hi : calls[i]? = some c) (hi' : (calls.set k d')[i]? = some c') (hid : d'.id = d.id)
    (hpc : d'.pc = d.pc) : c'.id = c.id ∧ c'.pc = c.pc := by
  have hlt : k < calls.length := (List.getElem?_eq_some_iff.mp hk).1
  by_cases hik : k = i
  · subst hik
    rw [hk] at hi
    obtain rfl := Option.some.inj hi
    obtain rfl : d' = c' := by simpa [hlt] using hi'
    exact ⟨hid, hpc⟩
  · rw [List.getElem?_set_ne hik, hi] at hi'
    obtain rfl := Option.some.inj hi'
    exact ⟨rfl, rfl⟩

/-- After the shared section the job has no status word. -/
lemma status_popRelease (s : State ρ) (j : String) : (s.popRelease j).status j = none := by
  unfold State.popRelease
  cases hw : s.status j with
  | none => exact hw
  | some w => simp

/-- The shared section moves no call. -/
lemma id_pc_popRelease (hi : s.calls[i]? = some c)
    (hi' : (s.popRelease j).calls[i]? = some c') : c'.id = c.id ∧ c'.pc = c.pc := by
  unfold State.popRelease at hi'
  cases hw : s.status j with
  | none =>
    rw [hw] at hi'
    exact Option.some.inj (hi.symm.trans hi') ▸ ⟨rfl, rfl⟩
  | some w =>
    simp only [hw, settle] at hi'
    cases hd : s.calls[w.writer]? with
    | none =>
      rw [hd] at hi'
      exact Option.some.inj (hi.symm.trans hi') ▸ ⟨rfl, rfl⟩
    | some d =>
      rw [hd] at hi'
      have hset : (s.calls.set w.writer { d with owed := none })[i]? = some c' := hi'
      exact id_pc_of_getElem?_set hd hi hset rfl rfl

/-- Closing an entry of `self.jobs` moves no call. -/
lemma id_pc_closeEntry (hi : s.calls[i]? = some c)
    (hi' : (s.closeEntry j).calls[i]? = some c') : c'.id = c.id ∧ c'.pc = c.pc := by
  unfold State.closeEntry State.close State.setCall at hi'
  cases hk : s.jobs j with
  | none =>
    rw [hk] at hi'
    exact Option.some.inj (hi.symm.trans hi') ▸ ⟨rfl, rfl⟩
  | some k =>
    simp only [hk] at hi'
    cases hd : s.calls[k]? with
    | none =>
      rw [hd] at hi'
      exact Option.some.inj (hi.symm.trans hi') ▸ ⟨rfl, rfl⟩
    | some d =>
      rw [hd] at hi'
      have hset : (s.calls.set k { d with alive := false, finished := true })[i]? = some c' := hi'
      exact id_pc_of_getElem?_set hd hi hset rfl rfl

/-- **The shared section**: popping a status word whose permit is owed, and releasing the
semaphore it names, keeps the invariant. -/
lemma Conserved.popRelease (h : Conserved max s.free s.status s.calls) (hsafe : s.popSafe j) :
    Conserved max (s.popRelease j).free (s.popRelease j).status (s.popRelease j).calls := by
  unfold State.popRelease
  cases hw : s.status j with
  | none => exact h
  | some w =>
    obtain ⟨c, hc, rfl, hend, hword⟩ := h.words j w hw
    have hown : c.owed = some w.phase ∧
        (c.child = .written w.phase ∨ c.child = .working w.phase) := by
      rcases hword with hword | ⟨-, -, e, hpc | hpc⟩
      · exact hword
      all_goals
        have hsafe := hsafe c (List.mem_of_getElem? hc) rfl
        simp [hpc, ChildPc.betweenReleaseAndPop] at hsafe
    obtain ⟨howed, hpc⟩ := hown
    have hok := h.ok _ c hc
    simp only [settle, hc]
    refine h.replace hc rfl id (fun j hj => Function.update_of_ne hj _ _) (fun v hv hne => ?_)
      (fun q => ?_) ⟨fun q hq => ?_, fun q hq => ?_, hok.ended, hok.noLeftover, hok.noFallback⟩
      fun v hv => ?_
    · exact absurd (h.writer_eq hc hend hv) hne
    · rw [howed]
      by_cases hq : q = w.phase
      · subst hq
        simp
      · simp [Function.update_of_ne hq, Ne.symm hq]
    · simp at hq
    · rcases hpc with hpc | hpc <;> simp [hpc] at hq
    · simp at hv

/-- **Killing a child** where that is safe keeps the invariant. -/
lemma Conserved.close (h : Conserved max s.free s.status s.calls) (hsafe : s.killSafe k) :
    Conserved max (s.close k).free (s.close k).status (s.close k).calls := by
  unfold State.close
  cases hc : s.calls[k]? with
  | none => exact h
  | some c =>
    have hok := h.ok k c hc
    have hkill := hsafe c hc
    refine h.frame hc rfl id rfl ⟨fun p hp => ?_, hok.holds, fun _ => rfl, hok.noLeftover,
      hok.noFallback⟩ fun w _ hword => ⟨hword.1, ?_⟩
    · have howes := hok.owes p hp
      cases hpc : c.child <;>
        simp only [hpc, OwesAt, State.killSafeAt, Bool.false_eq_true, imp_false,
          decide_eq_true_eq] at howes hkill ⊢
      case acquired => exact absurd howes.2 hkill
      case locked => exact absurd howes.2 hkill
      -- The word is there, so the call that started the child has still to look for it.
      case written =>
        refine ⟨howes.1, howes.2.1, ?_⟩
        rcases howes.2.2 with ha | ht
        · simpa [howes.2.1] using hkill ha
        · exact .inr ht
      case working =>
        refine ⟨howes.1, howes.2.1, ?_⟩
        rcases howes.2.2 with ha | ht
        · simpa [howes.2.1] using hkill ha
        · exact .inr ht
    · rcases hword.2 with hw | ⟨ha, -, e, hw | hw⟩
      · exact .inl hw
      · exact absurd (hkill ha) (by simp [hw, State.killSafeAt])
      · exact absurd (hkill ha) (by simp [hw, State.killSafeAt])

/-- Closing an entry of `self.jobs` where that is safe keeps the invariant. -/
lemma Conserved.closeEntry (h : Conserved max s.free s.status s.calls) (hsafe : s.closeSafe j) :
    Conserved max (s.closeEntry j).free (s.closeEntry j).status (s.closeEntry j).calls := by
  unfold State.closeEntry
  cases hk : s.jobs j with
  | none => exact h
  | some k => exact h.close (hsafe k hk)

/-- A call that goes on keeps the invariant, if it passes its pop only when there is no status
word left. -/
lemma Conserved.setPc (h : Conserved max s.free s.status s.calls) (hi : s.calls[i]? = some c)
    {pc : CallPc ρ} (hpc : pc.ended = false) (hc : c.pc.ended = false)
    (htail : c.pc.tailAhead → pc.tailAhead ∨ s.status c.id = none) :
    Conserved max s.free s.status (s.calls.set i { c with pc := pc }) := by
  have hok := h.ok i c hi
  refine h.frame hi rfl (fun _ => hc) rfl ⟨fun p hp => ?_, hok.holds, fun he => ?_,
    hok.noLeftover, hok.noFallback⟩ fun w _ hword => ⟨hpc, hword.2⟩
  · have howes := hok.owes p hp
    have hgo : ∀ q, (c.alive ∨ c.pc.tailAhead) → s.status c.id = some ⟨p, q⟩ →
        (c.alive ∨ pc.tailAhead) := by
      rintro q (ha | ht) hw
      · exact .inl ha
      · exact .inr ((htail ht).resolve_right (by simp [hw]))
    cases hpc : c.child <;> simp only [hpc, OwesAt] at howes ⊢
    case acquired => exact howes
    case locked => exact howes
    case written => exact ⟨howes.1, howes.2.1, hgo _ howes.2.2 howes.2.1⟩
    case working => exact ⟨howes.1, howes.2.1, hgo _ howes.2.2 howes.2.1⟩
  · exact absurd he (by simp [hpc])

/-- A call that ends, and with it its child, keeps the invariant where that is safe. -/
lemma Conserved.exit (h : Conserved max s.free s.status s.calls) (hi : s.calls[i]? = some c)
    (hsafe : s.exitSafe i c.id) {pc : CallPc ρ} (hpc : pc.ended = true) :
    Conserved max s.free s.status
      (s.calls.set i { c with pc := pc, alive := false, finished := true }) := by
  have hok := h.ok i c hi
  have hkill := hsafe.2 c hi
  refine h.frame hi rfl (fun he => ?_) rfl ⟨fun p hp => ?_, hok.holds, fun _ => rfl,
    hok.noLeftover, hok.noFallback⟩ fun w hw _ => ?_
  · exact absurd he (by simp [hpc])
  · have howes := hok.owes p hp
    cases hpc : c.child <;>
      simp only [hpc, OwesAt, State.killSafeAt, Bool.false_eq_true, imp_false, hsafe.1,
        reduceCtorEq, false_and, and_false] at howes hkill ⊢
    case acquired => exact absurd howes.2 hkill
    case locked => exact absurd howes.2 hkill
  · exact absurd hw (by simp [hsafe.1])

/-- The result and the `finished` event of a job state play no part in the invariant. -/
lemma Conserved.setResult (h : Conserved max s.free s.status s.calls)
    (hi : s.calls[i]? = some c) (r : Option ρ) (b : Bool) :
    Conserved max s.free s.status (s.calls.set i { c with result := r, finished := b }) := by
  have hok := h.ok i c hi
  exact h.frame hi rfl id rfl ⟨hok.owes, hok.holds, hok.ended, hok.noLeftover, hok.noFallback⟩
    fun _ _ hword => hword

/-- **A step of a `process` call** that meets the condition keeps the invariant. -/
lemma callStep_conserved (h : Conserved max s.free s.status s.calls) (hi : s.calls[i]? = some c)
    (hsafe : s.callSafe i c c.pc) (hstep : callStep s i c c.pc = some s') :
    Conserved max s'.free s'.status s'.calls := by
  generalize hpc : c.pc = pc at hstep hsafe
  cases pc with
  | starting =>
    obtain rfl := Option.some.inj hstep
    exact h.setPc hi rfl (by rw [hpc]; rfl) fun _ => .inl rfl
  | registered =>
    simp only [callStep] at hstep
    split at hstep
    · obtain rfl := Option.some.inj hstep
      exact h.setPc hi rfl (by rw [hpc]; rfl) fun _ => .inl rfl
    · obtain rfl := Option.some.inj hstep
      exact h.exit hi (hsafe ‹_›) rfl
  | waiting k =>
    simp only [callStep] at hstep
    split at hstep
    · split at hstep
      · obtain rfl := Option.some.inj hstep
        exact h.setPc hi rfl (by rw [hpc]; rfl) fun _ => .inl rfl
      · cases hstep
    · cases hstep
  | reading =>
    obtain rfl := Option.some.inj hstep
    exact h.setPc hi rfl (by rw [hpc]; rfl) fun _ => .inl rfl
  | tail r =>
    simp only [callStep] at hstep
    split at hstep
    · obtain ⟨c', hc', rfl⟩ := Option.map_eq_some_iff.mp hstep
      obtain ⟨hid, hpc'⟩ := id_pc_popRelease hi hc'
      refine (h.popRelease hsafe).setPc hc' rfl (by rw [hpc', hpc]; rfl) fun _ => .inr ?_
      rw [hid]
      exact status_popRelease s c.id
    · cases hstep
  | closing r =>
    simp only [callStep] at hstep
    obtain ⟨c', hc', rfl⟩ := Option.map_eq_some_iff.mp hstep
    obtain ⟨-, hpc'⟩ := id_pc_closeEntry hi hc'
    refine (h.closeEntry hsafe).setPc hc' rfl (by rw [hpc', hpc]; rfl) fun ht => ?_
    rw [hpc', hpc] at ht
    exact absurd ht Bool.false_ne_true
  | returning r =>
    obtain rfl := Option.some.inj hstep
    exact h.exit hi hsafe rfl
  | returned r => cases hstep
  | raised e => cases hstep

/-- A step of a `cancel_job` call that meets the condition keeps the invariant. -/
lemma cancelStep_conserved (h : Conserved max s.free s.status s.calls) {pc : CancelPc}
    (hsafe : pc = .pop → s.popSafe j) (hstep : cancelStep s k j pc = some s') :
    Conserved max s'.free s'.status s'.calls := by
  cases pc with
  | check =>
    simp only [cancelStep] at hstep
    split at hstep <;> obtain rfl := Option.some.inj hstep <;> exact h
  | signal =>
    simp only [cancelStep] at hstep
    split at hstep
    · rename_i i c hentry
      obtain rfl := Option.some.inj hstep
      obtain ⟨i', -, hpair⟩ := Option.bind_eq_some_iff.mp hentry
      obtain ⟨c', hc, heq⟩ := Option.map_eq_some_iff.mp hpair
      obtain ⟨rfl, rfl⟩ := Prod.mk.inj heq
      exact h.setResult hc _ _
    · obtain rfl := Option.some.inj hstep
      exact h
  | pop =>
    simp only [cancelStep] at hstep
    split at hstep
    · obtain rfl := Option.some.inj hstep
      exact h.popRelease (hsafe rfl)
    · cases hstep
  | done => cases hstep
  | raised e => cases hstep

/-- A step of a `_cleanup_dead_job` call that meets the condition keeps the invariant. -/
lemma sweepStep_conserved (h : Conserved max s.free s.status s.calls) {pc : SweepPc}
    (hpop : pc = .pop → s.popSafe j) (hclose : pc = .close → s.closeSafe j)
    (hstep : sweepStep s k j pc = some s') : Conserved max s'.free s'.status s'.calls := by
  cases pc with
  | check =>
    obtain rfl := Option.some.inj hstep
    exact h
  | pop =>
    simp only [sweepStep] at hstep
    split at hstep
    · obtain rfl := Option.some.inj hstep
      exact h.popRelease (hpop rfl)
    · cases hstep
  | close =>
    obtain rfl := Option.some.inj hstep
    exact h.closeEntry (hclose rfl)
  | done => cases hstep

/-- A round of the result thread keeps the invariant. -/
lemma deliver_conserved (h : Conserved max s.free s.status s.calls)
    (hstep : deliver s = some s') : Conserved max s'.free s'.status s'.calls := by
  unfold deliver at hstep
  split at hstep
  · cases hstep
  · split at hstep
    · rename_i i c hentry
      obtain rfl := Option.some.inj hstep
      obtain ⟨i', -, hpair⟩ := Option.bind_eq_some_iff.mp hentry
      obtain ⟨c', hc, heq⟩ := Option.map_eq_some_iff.mp hpair
      obtain ⟨rfl, rfl⟩ := Prod.mk.inj heq
      exact h.setResult hc _ _
    · obtain rfl := Option.some.inj hstep
      exact h

/-- A new call for an id that no unfinished call has keeps the invariant. -/
lemma Conserved.start (h : Conserved max s.free s.status s.calls)
    (hfresh : ∀ c ∈ s.calls, c.id = j → c.pc.ended) :
    Conserved max s.free s.status (s.calls ++ [newCall j]) := by
  have hold : ∀ {i : ℕ} {c : ProcessCall ρ}, (s.calls ++ [newCall j])[i]? = some c →
      s.calls[i]? = some c ∨ (i = s.calls.length ∧ c = newCall j) := by
    intro i c hc
    rcases Nat.lt_or_ge i s.calls.length with hlt | hge
    · exact .inl (by rwa [List.getElem?_append_left hlt] at hc)
    · rw [List.getElem?_append_right hge, List.getElem?_singleton] at hc
      split at hc
      · exact .inr ⟨by omega, (Option.some.inj hc).symm⟩
      · cases hc
  have hnew : ∀ {i : ℕ} {c : ProcessCall ρ}, s.calls[i]? = some c → c.pc.ended = false →
      c.id ≠ j := by
    intro i c hc he hid
    exact absurd (hfresh c (List.mem_of_getElem? hc) hid) (by simp [he])
  refine ⟨fun p => ?_, fun i c hc => ?_, fun j' w hw => ?_, fun i k c d hc hd hce hde hid => ?_⟩
  · rw [List.countP_append, ← h.count p]
    simp [newCall]
  · rcases hold hc with hc | ⟨-, rfl⟩
    · exact h.ok i c hc
    · exact CallOk.of_idle rfl rfl fun he => absurd he Bool.false_ne_true
  · obtain ⟨c, hc, hid, hword⟩ := h.words j' w hw
    refine ⟨c, ?_, hid, hword⟩
    rw [List.getElem?_append_left (List.getElem?_eq_some_iff.mp hc).1, hc]
  · rcases hold hc with hc | ⟨hi, rfl⟩ <;> rcases hold hd with hd | ⟨hk, rfl⟩
    · exact h.unique i k c d hc hd hce hde hid
    · exact absurd hid (hnew hc hce)
    · exact absurd hid.symm (hnew hd hde)
    · rw [hi, hk]

/-- **The step lemma**: a step that meets the condition keeps the invariant. -/
theorem step_conserved {l : Label ρ} (h : Conserved max s.free s.status s.calls)
    (hcond : Undisturbed s l) (hstep : step s l = some s') :
    Conserved max s'.free s'.status s'.calls := by
  cases l with
  | start j =>
    obtain rfl := Option.some.inj hstep
    exact h.start hcond
  | call i =>
    obtain ⟨c, hc, hstep⟩ := Option.bind_eq_some_iff.mp hstep
    exact callStep_conserved h hc (hcond c hc) hstep
  | child i a =>
    obtain ⟨c, hc, hstep⟩ := Option.bind_eq_some_iff.mp hstep
    split at hstep
    · exact childStep_conserved h hc ‹_› hcond hstep
    · cases hstep
  | terminate i =>
    obtain ⟨c, hc, hstep⟩ := Option.bind_eq_some_iff.mp hstep
    split at hstep
    · cases hstep
    · obtain rfl := Option.some.inj hstep
      exact h.close hcond
  | deliver => exact deliver_conserved h hstep
  | cancelBegin j =>
    obtain rfl := Option.some.inj hstep
    exact h
  | cancel k =>
    obtain ⟨x, hx, hstep⟩ := Option.bind_eq_some_iff.mp hstep
    exact cancelStep_conserved h (hcond x hx) hstep
  | sweepBegin j =>
    obtain ⟨i, -, hstep⟩ := Option.bind_eq_some_iff.mp hstep
    obtain ⟨c, -, hstep⟩ := Option.bind_eq_some_iff.mp hstep
    split at hstep
    · cases hstep
    · obtain rfl := Option.some.inj hstep
      exact h
  | sweep k =>
    obtain ⟨x, hx, hstep⟩ := Option.bind_eq_some_iff.mp hstep
    exact sweepStep_conserved h (hcond x hx).1 (hcond x hx).2 hstep

end Server

/-! ## Runs -/

/-- Every `process` call is over and every child is dead. -/
def State.quiescent (s : State ρ) : Prop :=
  ∀ c ∈ s.calls, c.pc.ended = true ∧ c.alive = false

instance (s : State ρ) : Decidable s.quiescent := by
  unfold State.quiescent; infer_instance

/-- The semaphores are conserved: the free permits never exceed the configured maximum, and they
are all there when every call is over and every child is dead. -/
def State.PermitsConserved (max : JobType → ℕ) (s : State ρ) : Prop :=
  (∀ p, s.free p ≤ max p) ∧ (s.quiescent → ∀ p, s.free p = max p)

/-- The invariant holds at the start. -/
lemma conserved_initState (max : JobType → ℕ) :
    Conserved max (initState (ρ := ρ) max).free (initState (ρ := ρ) max).status
      (initState (ρ := ρ) max).calls := by
  refine ⟨fun p => rfl, fun i c hc => ?_, fun j w hw => ?_, fun i k c d hc => ?_⟩
  · simp [initState] at hc
  · simp [initState] at hw
  · simp [initState] at hc

/-- The invariant gives what is promised about the permits. -/
lemma Conserved.permitsConserved {max : JobType → ℕ} {s : State ρ}
    (h : Conserved max s.free s.status s.calls) : s.PermitsConserved max := by
  refine ⟨fun p => ?_, fun hq p => ?_⟩
  · have := h.count p
    omega
  · -- A dead child of a call that is over owes nothing.
    have hnone : s.calls.countP (fun c => c.owed = some p) = 0 := by
      rw [List.countP_eq_zero]
      intro c hc howed
      obtain ⟨i, hi⟩ := List.mem_iff_getElem?.mp hc
      obtain ⟨hend, ha⟩ := hq c hc
      have howes := (h.ok i c hi).owes p (by simpa using howed)
      have htail : c.pc.tailAhead = false := by
        cases hpc : c.pc <;> simp [hpc, CallPc.ended] at hend <;> rfl
      cases hpc : c.child <;> simp [hpc, OwesAt, ha, htail] at howes
    have := h.count p
    omega

/-- **Conservation of the permits**: in every run of the children, the `process` calls,
`cancel_job`, the dead-job sweep, the result thread and kills whose steps all meet the condition,
in every state that is reached the free permits of each phase are at most the configured maximum,
and equal to it when every `process` call is over and every child is dead. -/
theorem permits_conserved_of_undisturbed (max : JobType → ℕ) (ls : List (Label ρ)) (s : State ρ)
    (hrun : Machine.run (Machine.guarded step Undisturbed) (initState max) ls = some s) :
    s.PermitsConserved max := by
  have hinv : Conserved max s.free s.status s.calls := by
    refine Machine.run_invariant (fun s => Conserved max s.free s.status s.calls)
      (fun s l s' h hstep => ?_) (conserved_initState max) hrun
    obtain ⟨hcond, hstep⟩ := Machine.guarded_eq_some.mp hstep
    exact step_conserved h hcond hstep
  exact hinv.permitsConserved

/-- A server with one worker of each kind. -/
def onePermit : JobType → ℕ := fun _ => 1

/-- Four steps of the first child: take the permit and write the status word. -/
def enterPhase : List (Label Unit) :=
  [.child 0 .go, .child 0 .go, .child 0 .go, .child 0 .go]

/-- A whole `cancel_job` call. -/
def cancelCall : List (Label Unit) := [.cancelBegin "a", .cancel 0, .cancel 0, .cancel 0]

/-- The first child finishes its first phase and enters the second one; then its job is cancelled,
and the call returns and kills it. -/
def cancelledInRun : List (Label Unit) :=
  [Label.start "a", .call 0, .call 0] ++ enterPhase ++
    [Label.child 0 (.work .next), .child 0 .go, .child 0 .go, .child 0 .go] ++ enterPhase ++
    cancelCall ++ [Label.call 0, .call 0, .call 0, .call 0, .call 0]

theorem permits_conserved_cancelledInRun :
    ∃ s, Machine.run (Machine.guarded step Undisturbed) (initState onePermit) cancelledInRun =
      some s ∧ s.quiescent ∧ s.PermitsConserved onePermit := by
  obtain ⟨s, hrun, hq⟩ : ∃ s, Machine.run (Machine.guarded step Undisturbed)
      (initState onePermit) cancelledInRun = some s ∧ s.quiescent := ⟨_, rfl, by decide⟩
  exact ⟨s, hrun, hq, permits_conserved_of_undisturbed onePermit cancelledInRun s hrun⟩

/-- The job is cancelled while its child works in the first phase, and the child releases the
permit again. -/
def releasedTwice : List (Label Unit) :=
  [Label.start "a", .call 0, .call 0] ++ enterPhase ++ cancelCall ++ [Label.child 0 (.work .next)]

/-- The job is cancelled when its child has a permit and no status word yet, and the call returns
and kills it. -/
def killedWithPermit : List (Label Unit) :=
  [Label.start "a", .call 0, .call 0, .child 0 .go] ++ cancelCall ++
    [Label.call 0, .call 0, .call 0, .call 0, .call 0]

/-- Both halves of conservation fail: a cancelled job whose child goes on working returns its
permit twice, and a child that is killed before it has written its status word loses it. -/
theorem not_permits_conserved :
    (∃ s, Machine.run step (initState onePermit) releasedTwice = some s ∧
      onePermit .init < s.free .init) ∧
    ∃ s, Machine.run step (initState onePermit) killedWithPermit = some s ∧ s.quiescent ∧
      s.free .init < onePermit .init :=
  ⟨⟨_, rfl, by decide⟩, ⟨_, rfl, by decide, by decide⟩⟩

end ProRLAgent.ProcessServer
