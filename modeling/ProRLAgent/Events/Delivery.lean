import Mathlib.Data.List.Nodup
import Mathlib.Data.List.Perm.Basic
import Mathlib.Data.List.Range
import Mathlib.Logic.Function.Basic
import ProRLAgent.Lib.Machine
import ProRLAgent.Lib.Pool

set_option relaxedAutoImplicit false
set_option autoImplicit false

/-!
# Delivery of events to subscribers

`EventStream.add_event` gives an event its id with the lock of the stream held, writes its file and
its cache page without the lock, and then puts it on the queue. The queue loop takes one event after
the other and submits it to the thread pool of every callback; a pool has one thread and runs its
tasks in order.

The machine below has any number of `add_event` calls, the queue loop and one pool for each
callback of a fixed set. The section with the lock is one step: it makes the copy of the event that
is stored and delivered (`event_from_dict` of `event_to_dict`), or raises after the id has been
taken. The writes to the file store appear only as steps that may raise.

## Main definitions

* `EventDelivery.State`, `EventDelivery.step` — the machine.
* `EventDelivery.DeliveredInOrder` — the property.
* `EventDelivery.PutsInOrder` — the condition on a step.
* `EventDelivery.Accounted` — the invariant of every run; `EventDelivery.Ordered` — what the
  condition adds to it.

## Main results

* `EventDelivery.step_accounted`, `EventDelivery.step_ordered` — the step lemmas.
* `EventDelivery.canDrain` — whatever is on its way can arrive.
* `EventDelivery.deliveredInOrder_of_putsInOrder` — ordered exactly-once delivery along runs that
  meet the condition.
* `EventDelivery.not_deliveredInOrder_overtaken` — an event that overtakes another one between the
  lock and the queue.
-/

namespace ProRLAgent.EventDelivery

/-- Where an `add_event` call stands. From the section with the lock on it has an event with its
id. -/
inductive AddPc (ε : Type*) where
  /-- At the test of `event.id`. -/
  | testing
  /-- At the section with the lock. -/
  | locking
  /-- At the write of the event's file. -/
  | writing (x : ℕ × ε)
  /-- At `_store_cache_page`. -/
  | storing (x : ℕ × ε)
  /-- At the `put` on the queue. -/
  | putting (x : ℕ × ε)
  | done (x : ℕ × ε)
  /-- An exception has left the call, with the id if it had one. -/
  | raised (id : Option ℕ)
  deriving DecidableEq

/-- What an `add_event` call does next, with what its environment chooses. -/
inductive AddAct (ε : Type*) where
  /-- The event has an id already, or not. -/
  | test (hasId : Bool)
  /-- The conversion gives the copy that is stored and delivered, or raises. -/
  | convert (e : Option ε)
  | write (ok : Bool)
  | store (ok : Bool)
  | put

/-- The state of a stream: the next id, the `add_event` calls, the queue, the event that the queue
loop is passing on with the callbacks that it has still to serve, the tasks of the pools, and what
the callbacks have received. -/
structure State (κ ε : Type*) where
  curId : ℕ
  adds : List (AddPc ε)
  queue : List (ℕ × ε)
  passing : Option ((ℕ × ε) × List κ)
  pools : κ → List (ℕ × ε)
  received : κ → List (ℕ × ε)

/-- The moves of the machine. -/
inductive Label (κ ε : Type*) where
  /-- A thread calls `add_event`. -/
  | call
  | add (i : ℕ) (a : AddAct ε)
  /-- The queue loop gets an event. -/
  | get
  /-- The queue loop submits the event to the next callback, or is done with it. -/
  | submit
  /-- The thread of a callback's pool calls it with the next event. -/
  | run (k : κ)

/-- The callbacks of the stream, in the order in which the queue loop serves them. -/
structure Subscribers (κ : Type*) where
  callbacks : List κ
  nodup : callbacks.Nodup

section Machine

variable {κ ε : Type*} [DecidableEq κ]

/-- A step of the `add_event` call `i`. -/
def addStep (s : State κ ε) (i : ℕ) : AddPc ε → AddAct ε → Option (State κ ε)
  | .testing, .test hasId =>
    some { s with adds := s.adds.set i (if hasId then .raised none else .locking) }
  -- The id is taken before the conversion, so a conversion that raises uses it up.
  | .locking, .convert e =>
    some { s with
      curId := s.curId + 1
      adds := s.adds.set i
        (match e with
        | some e => .writing (s.curId, e)
        | none => .raised (some s.curId)) }
  | .writing x, .write ok =>
    some { s with adds := s.adds.set i (if ok then .storing x else .raised (some x.1)) }
  | .storing x, .store ok =>
    some { s with adds := s.adds.set i (if ok then .putting x else .raised (some x.1)) }
  | .putting x, .put => some { s with adds := s.adds.set i (.done x), queue := s.queue ++ [x] }
  | _, _ => none

/-- **The event stream**: one move. -/
def step (subs : Subscribers κ) (s : State κ ε) : Label κ ε → Option (State κ ε)
  | .call => some { s with adds := s.adds ++ [.testing] }
  | .add i a => (s.adds[i]?).bind fun pc => addStep s i pc a
  | .get =>
    match s.passing, s.queue with
    | none, x :: q => some { s with queue := q, passing := some (x, subs.callbacks) }
    | _, _ => none
  | .submit =>
    match s.passing with
    | some (x, k :: ks) =>
      some { s with
        passing := some (x, ks)
        pools := Function.update s.pools k (s.pools k ++ [x]) }
    | some (_, []) => some { s with passing := none }
    | none => none
  | .run k =>
    match s.pools k with
    | x :: xs =>
      some { s with
        pools := Function.update s.pools k xs
        received := Function.update s.received k (s.received k ++ [x]) }
    | [] => none

/-- A stream that has just been opened with `first` as its next id. -/
def initState (first : ℕ) : State κ ε where
  curId := first
  adds := []
  queue := []
  passing := none
  pools := fun _ => []
  received := fun _ => []

/-! ## The property -/

/-- The id that an `add_event` call has been given. -/
def AddPc.id? : AddPc ε → Option ℕ
  | .writing x | .storing x | .putting x | .done x => some x.1
  | .raised id => id
  | _ => none

/-- The id of a call that has still to put its event on the queue. -/
def AddPc.pendingId? : AddPc ε → Option ℕ
  | .writing x | .storing x | .putting x => some x.1
  | _ => none

/-- The event that a call has added. -/
def AddPc.added? : AddPc ε → Option (ℕ × ε)
  | .done x => some x
  | _ => none

/-- The ids that have been given out. -/
def State.ids (s : State κ ε) : List ℕ := s.adds.filterMap AddPc.id?

/-- The events that have been added. -/
def State.added (s : State κ ε) : List (ℕ × ε) := s.adds.filterMap AddPc.added?

/-- The event that the queue loop is passing on, if callback `k` is still to be served. -/
def State.passingTo (s : State κ ε) (k : κ) : List (ℕ × ε) :=
  match s.passing with
  | some (x, ks) => if k ∈ ks then [x] else []
  | none => []

/-- The events on their way to callback `k`, the next one first. -/
def State.onWay (s : State κ ε) (k : κ) : List (ℕ × ε) :=
  s.pools k ++ s.passingTo k ++ s.queue

/-- **Ordered exactly-once delivery**: the ids given out are those from the first one on, each once;
what a callback has received and what is on its way to it are together the added events, each once,
and everything on its way can arrive; and a callback receives the events in increasing order of
their ids. -/
structure DeliveredInOrder (subs : Subscribers κ) (first : ℕ) (s : State κ ε) : Prop where
  ids : s.ids.Perm (List.range' first (s.curId - first))
  once : ∀ k ∈ subs.callbacks, (s.received k ++ s.onWay k).Perm s.added
  arrives : Machine.CanReach (step subs) s fun t =>
    t.added = s.added ∧ ∀ k ∈ subs.callbacks, t.onWay k = []
  order : ∀ k ∈ subs.callbacks, (s.received k).Pairwise fun x y => x.1 < y.1

/-- **The condition on a step**: an event is put on the queue only when every other call that has
an id and has not put its event yet has a larger one. -/
def PutsInOrder (s : State κ ε) : Label κ ε → Prop
  | .add i .put => ∀ pc ∈ s.adds[i]?, ∀ n ∈ pc.pendingId?, ∀ qc ∈ s.adds, ∀ m ∈ qc.pendingId?, n ≤ m
  | _ => True

instance (s : State κ ε) (l : Label κ ε) : Decidable (PutsInOrder s l) := by
  cases l with
  | add i a => cases a <;> unfold PutsInOrder <;> infer_instance
  | _ => unfold PutsInOrder; infer_instance

end Machine

/-! ## The invariant -/

section Steps

variable {κ ε : Type*} {subs : Subscribers κ} {first : ℕ} {s s' : State κ ε} {i : ℕ}
  {pc pc' : AddPc ε}

/-- A call goes on with the same id and has added what it had added. -/
lemma perm_of_same {β : Type*} (f : AddPc ε → Option β) (pc' : AddPc ε) (hi : s.adds[i]? = some pc)
    (hf : f pc' = f pc) : ((s.adds.set i pc').filterMap f).Perm (s.adds.filterMap f) := by
  have hperm := Pool.filterMap_set_perm f pc' hi
  rw [hf] at hperm
  exact (List.perm_append_right_iff _).mp hperm

/-- A call has something that it had not before. -/
lemma perm_of_gain {β : Type*} (f : AddPc ε → Option β) (pc' : AddPc ε) {b : β}
    (hi : s.adds[i]? = some pc) (hf : f pc = none) (hf' : f pc' = some b) :
    ((s.adds.set i pc').filterMap f).Perm (s.adds.filterMap f ++ [b]) := by
  have hperm := Pool.filterMap_set_perm f pc' hi
  rwa [hf, hf', Option.toList_none, List.append_nil] at hperm

variable [DecidableEq κ]

/-- What a callback has received and what is on its way to it, in the order of its arrival. -/
def State.stream (s : State κ ε) (k : κ) : List (ℕ × ε) := s.received k ++ s.onWay k

/-- **The invariant of every run.** -/
structure Accounted (subs : Subscribers κ) (first : ℕ) (s : State κ ε) : Prop where
  first_le : first ≤ s.curId
  ids : s.ids.Perm (List.range' first (s.curId - first))
  served : ∀ x ks, s.passing = some (x, ks) → ks.Nodup
  once : ∀ k ∈ subs.callbacks, (s.stream k).Perm s.added

/-- **What the condition adds**: the events arrive in increasing order, and before those that are
not on the queue yet. -/
structure Ordered (subs : Subscribers κ) (s : State κ ε) : Prop where
  sorted : ∀ k ∈ subs.callbacks, (s.stream k).Pairwise fun x y => x.1 < y.1
  below : ∀ k ∈ subs.callbacks, ∀ x ∈ s.stream k, ∀ pc ∈ s.adds, ∀ m ∈ pc.pendingId?, x.1 < m

/-! ### The queue loop and the pools -/

/-- A step of the queue loop or of a pool changes no stream of events. -/
lemma stream_eq_of_step {l : Label κ ε} (h : Accounted subs first s)
    (hl : l = .get ∨ l = .submit ∨ ∃ k, l = .run k) (hstep : step subs s l = some s') :
    s'.curId = s.curId ∧ s'.adds = s.adds ∧ (∀ x ks, s'.passing = some (x, ks) → ks.Nodup) ∧
      ∀ k ∈ subs.callbacks, s'.stream k = s.stream k := by
  rcases hl with rfl | rfl | ⟨k, rfl⟩
  · -- The event moves from the queue into the hands of the loop.
    simp only [step] at hstep
    split at hstep
    · rename_i x q hpass hq
      obtain rfl := Option.some.inj hstep
      refine ⟨rfl, rfl, fun y ks hy => ?_, fun k hk => ?_⟩
      · obtain ⟨-, rfl⟩ := Prod.mk.inj (Option.some.inj hy)
        exact subs.nodup
      · simp [State.stream, State.onWay, State.passingTo, hpass, hq, hk]
    · cases hstep
  · simp only [step] at hstep
    split at hstep
    · rename_i x k ks hpass
      obtain rfl := Option.some.inj hstep
      have hnodup := List.nodup_cons.mp (h.served x (k :: ks) hpass)
      refine ⟨rfl, rfl, fun y ls hy => ?_, fun k' _ => ?_⟩
      · obtain ⟨-, rfl⟩ := Prod.mk.inj (Option.some.inj hy)
        exact hnodup.2
      · by_cases hk : k' = k
        · subst hk
          simp [State.stream, State.onWay, State.passingTo, hpass, hnodup.1]
        · simp [State.stream, State.onWay, State.passingTo, hpass, hk]
    · rename_i x hpass
      obtain rfl := Option.some.inj hstep
      refine ⟨rfl, rfl, fun y ls hy => (by cases hy), fun k' _ => ?_⟩
      simp [State.stream, State.onWay, State.passingTo, hpass]
    · cases hstep
  · simp only [step] at hstep
    split at hstep
    · rename_i x xs hpool
      obtain rfl := Option.some.inj hstep
      refine ⟨rfl, rfl, h.served, fun k' _ => ?_⟩
      by_cases hk : k' = k
      · subst hk
        simp [State.stream, State.onWay, State.passingTo, hpool]
      · simp [State.stream, State.onWay, State.passingTo, hk]
    · cases hstep

/-! ### The `add_event` calls -/

/-- A step of a call that neither takes an id nor puts its event on the queue. -/
lemma Accounted.move (h : Accounted subs first s) (hi : s.adds[i]? = some pc)
    (hid : pc'.id? = pc.id?) (hadd : pc'.added? = pc.added?) :
    Accounted subs first { s with adds := s.adds.set i pc' } where
  first_le := h.first_le
  ids := (perm_of_same AddPc.id? pc' hi hid).trans h.ids
  served := h.served
  once k hk := (h.once k hk).trans (perm_of_same AddPc.added? pc' hi hadd).symm

/-- The next id is given out. -/
lemma Accounted.giveId (h : Accounted subs first s) (hi : s.adds[i]? = some pc)
    (hno : pc.id? = none) (hid : pc'.id? = some s.curId) (hadd : pc'.added? = pc.added?) :
    Accounted subs first { s with curId := s.curId + 1, adds := s.adds.set i pc' } where
  first_le := Nat.le_succ_of_le h.first_le
  ids := by
    have hlast : List.range' first (s.curId + 1 - first) =
        List.range' first (s.curId - first) ++ [s.curId] := by
      have hle := h.first_le
      rw [show s.curId + 1 - first = s.curId - first + 1 by omega, List.range'_concat]
      congr 2
      omega
    exact (perm_of_gain AddPc.id? pc' hi hno hid).trans (hlast ▸ h.ids.append_right _)
  served := h.served
  once k hk := (h.once k hk).trans (perm_of_same AddPc.added? pc' hi hadd).symm

omit [DecidableEq κ] in
/-- The stream of a callback when an event is put on the queue. -/
lemma stream_put [DecidableEq κ] (s : State κ ε) (adds : List (AddPc ε)) (x : ℕ × ε) (k : κ) :
    State.stream { s with adds := adds, queue := s.queue ++ [x] } k = s.stream k ++ [x] := by
  simp only [State.stream, State.onWay, List.append_assoc]
  rfl

/-- An event is put on the queue. -/
lemma Accounted.put (h : Accounted subs first s) {x : ℕ × ε} (hi : s.adds[i]? = some (.putting x)) :
    Accounted subs first { s with adds := s.adds.set i (.done x), queue := s.queue ++ [x] } where
  first_le := h.first_le
  ids := (perm_of_same AddPc.id? (.done x) hi rfl).trans h.ids
  served := h.served
  once k hk := by
    rw [stream_put]
    exact ((h.once k hk).append_right [x]).trans
      (perm_of_gain AddPc.added? (.done x) hi rfl rfl).symm

/-- A step of an `add_event` call keeps the invariant of every run. -/
lemma addStep_accounted (h : Accounted subs first s) (hi : s.adds[i]? = some pc) {a : AddAct ε}
    (hstep : addStep s i pc a = some s') : Accounted subs first s' := by
  cases pc <;> cases a <;> simp only [addStep, reduceCtorEq] at hstep
  case testing.test hasId =>
    obtain rfl := Option.some.inj hstep
    exact h.move hi (by cases hasId <;> rfl) (by cases hasId <;> rfl)
  case locking.convert e =>
    obtain rfl := Option.some.inj hstep
    exact h.giveId hi rfl (by cases e <;> rfl) (by cases e <;> rfl)
  case writing.write x ok =>
    obtain rfl := Option.some.inj hstep
    exact h.move hi (by cases ok <;> rfl) (by cases ok <;> rfl)
  case storing.store x ok =>
    obtain rfl := Option.some.inj hstep
    exact h.move hi (by cases ok <;> rfl) (by cases ok <;> rfl)
  case putting.put x =>
    obtain rfl := Option.some.inj hstep
    exact h.put hi

/-- **The step lemma** of the invariant of every run. -/
theorem step_accounted (h : Accounted subs first s) {l : Label κ ε}
    (hstep : step subs s l = some s') : Accounted subs first s' := by
  have hloop : (l = .get ∨ l = .submit ∨ ∃ k, l = .run k) → Accounted subs first s' := by
    intro hl
    obtain ⟨hcur, hadds, hserved, hstream⟩ := stream_eq_of_step h hl hstep
    refine ⟨hcur ▸ h.first_le, ?_, hserved, fun k hk => ?_⟩
    · rw [State.ids, hadds, hcur]
      exact h.ids
    · rw [hstream k hk, State.added, hadds]
      exact h.once k hk
  cases l with
  | call =>
    obtain rfl := Option.some.inj hstep
    refine ⟨h.first_le, ?_, h.served, fun k hk => ?_⟩
    · have hids : (s.adds ++ [AddPc.testing]).filterMap AddPc.id? = s.ids := by
        rw [List.filterMap_append]
        exact List.append_nil _
      exact (List.Perm.of_eq hids).trans h.ids
    · have hadded : (s.adds ++ [AddPc.testing]).filterMap AddPc.added? = s.added := by
        rw [List.filterMap_append]
        exact List.append_nil _
      exact (h.once k hk).trans (List.Perm.of_eq hadded.symm)
  | add i a =>
    obtain ⟨pc, hi, hstep⟩ := Option.bind_eq_some_iff.mp hstep
    exact addStep_accounted h hi hstep
  | get => exact hloop (.inl rfl)
  | submit => exact hloop (.inr (.inl rfl))
  | run k => exact hloop (.inr (.inr ⟨k, rfl⟩))

/-- A step of a call after which it holds no id that it did not hold before. -/
lemma Ordered.move (h : Ordered subs s) (hi : s.adds[i]? = some pc)
    (hpend : ∀ m ∈ pc'.pendingId?, m ∈ pc.pendingId?) :
    Ordered subs { s with adds := s.adds.set i pc' } where
  sorted := h.sorted
  below k hk x hx qc hqc m hm := by
    rcases List.mem_or_eq_of_mem_set hqc with hqc | rfl
    · exact h.below k hk x hx qc hqc m hm
    · exact h.below k hk x hx pc (List.mem_of_getElem? hi) m (hpend m hm)

omit [DecidableEq κ] in
/-- The id of a call is among the ids given out. -/
lemma mem_ids {n : ℕ} (hpc : pc ∈ s.adds) (hn : n ∈ pc.id?) : n ∈ s.ids :=
  List.mem_filterMap.mpr ⟨pc, hpc, hn⟩

/-- The ids given out are below the next one. -/
lemma Accounted.id_lt (h : Accounted subs first s) {n : ℕ} (hn : n ∈ s.ids) : n < s.curId := by
  have hmem := h.ids.mem_iff.mp hn
  have hle := h.first_le
  obtain ⟨i, hi, rfl⟩ := List.mem_range'.mp hmem
  omega

/-- An event in the stream of a callback has an id that has been given out. -/
lemma Accounted.stream_id_lt (h : Accounted subs first s) {k : κ} (hk : k ∈ subs.callbacks)
    {x : ℕ × ε} (hx : x ∈ s.stream k) : x.1 < s.curId := by
  obtain ⟨pc, hpc, hadd⟩ := List.mem_filterMap.mp ((h.once k hk).mem_iff.mp hx)
  refine h.id_lt (mem_ids hpc ?_)
  cases pc <;> simp only [AddPc.added?, reduceCtorEq, Option.some.injEq] at hadd
  subst hadd
  rfl

/-- A call is given the next id. -/
lemma Ordered.giveId (h : Ordered subs s) (hacc : Accounted subs first s)
    (hid : ∀ m ∈ pc'.pendingId?, m = s.curId) :
    Ordered subs { s with curId := s.curId + 1, adds := s.adds.set i pc' } where
  sorted := h.sorted
  below k hk x hx qc hqc m hm := by
    rcases List.mem_or_eq_of_mem_set hqc with hqc | rfl
    · exact h.below k hk x hx qc hqc m hm
    · rw [hid m hm]
      exact hacc.stream_id_lt hk hx

/-- The pending ids of two calls differ. -/
lemma Accounted.pendingId_ne (h : Accounted subs first s) {j n m : ℕ} {qc : AddPc ε}
    (hi : s.adds[i]? = some pc) (hj : s.adds[j]? = some qc) (hij : j ≠ i) (hn : n ∈ pc.pendingId?)
    (hm : m ∈ qc.pendingId?) : n ≠ m := by
  rintro rfl
  have hsame : ∀ {rc : AddPc ε}, n ∈ rc.pendingId? → rc.id? = some n := by
    intro rc hrc
    cases rc <;>
      simp only [AddPc.pendingId?, Option.mem_def, reduceCtorEq, Option.some.injEq] at hrc
    all_goals
      subst hrc
      rfl
  have hnodup : s.ids.Nodup := h.ids.nodup_iff.mpr List.nodup_range'
  -- The ids without the first call's still hold the one of the second call.
  have hperm := Pool.filterMap_set_perm AddPc.id? (.testing : AddPc ε) hi
  rw [hsame hn] at hperm
  have hnodup' : ((s.adds.set i (.testing : AddPc ε)).filterMap AddPc.id? ++ [n]).Nodup := by
    refine (hperm.nodup_iff).mpr ?_
    rw [show (AddPc.id? (.testing : AddPc ε)).toList = [] from rfl, List.append_nil]
    exact hnodup
  have hmem : n ∈ (s.adds.set i (.testing : AddPc ε)).filterMap AddPc.id? := by
    refine List.mem_filterMap.mpr ⟨qc, List.mem_of_getElem? (i := j) ?_, hsame hm⟩
    rw [List.getElem?_set_ne (Ne.symm hij)]
    exact hj
  exact (List.nodup_append.mp hnodup').2.2 n hmem n (by simp) rfl

/-- An event is put on the queue before every other one that has an id. -/
lemma Ordered.put (h : Ordered subs s) (hacc : Accounted subs first s) {x : ℕ × ε}
    (hi : s.adds[i]? = some (.putting x))
    (hcond : ∀ qc ∈ s.adds, ∀ m ∈ qc.pendingId?, x.1 ≤ m) :
    Ordered subs { s with adds := s.adds.set i (.done x), queue := s.queue ++ [x] } where
  sorted k hk := by
    rw [stream_put, List.pairwise_append]
    refine ⟨h.sorted k hk, List.pairwise_singleton _ _, fun y hy z hz => ?_⟩
    rw [List.mem_singleton.mp hz]
    exact h.below k hk y hy _ (List.mem_of_getElem? hi) x.1 rfl
  below k hk y hy qc hqc m hm := by
    obtain ⟨j, hj⟩ := List.mem_iff_getElem?.mp hqc
    rcases Pool.getElem?_set_eq_some hj with ⟨-, rfl⟩ | ⟨hji, hj⟩
    · cases hm
    · rw [stream_put] at hy
      rcases List.mem_append.mp hy with hy | hy
      · exact h.below k hk y hy qc (List.mem_of_getElem? hj) m hm
      · rw [List.mem_singleton.mp hy]
        have hle := hcond qc (List.mem_of_getElem? hj) m hm
        exact lt_of_le_of_ne hle (hacc.pendingId_ne hi hj hji rfl hm)

/-- A step of an `add_event` call that meets the condition keeps the order. -/
lemma addStep_ordered (hacc : Accounted subs first s) (h : Ordered subs s) {a : AddAct ε}
    (hcond : PutsInOrder s (.add i a)) (hi : s.adds[i]? = some pc)
    (hstep : addStep s i pc a = some s') : Ordered subs s' := by
  cases pc <;> cases a <;> simp only [addStep, reduceCtorEq] at hstep
  case testing.test hasId =>
    obtain rfl := Option.some.inj hstep
    exact h.move hi (by cases hasId <;> simp [AddPc.pendingId?])
  case locking.convert e =>
    obtain rfl := Option.some.inj hstep
    exact h.giveId hacc (by cases e <;> simp [AddPc.pendingId?])
  case writing.write x ok =>
    obtain rfl := Option.some.inj hstep
    exact h.move hi (by cases ok <;> simp [AddPc.pendingId?])
  case storing.store x ok =>
    obtain rfl := Option.some.inj hstep
    exact h.move hi (by cases ok <;> simp [AddPc.pendingId?])
  case putting.put x =>
    obtain rfl := Option.some.inj hstep
    exact h.put hacc hi (hcond _ hi x.1 rfl)

/-- **The step lemma** of the order: a step that meets the condition keeps it. -/
theorem step_ordered (hacc : Accounted subs first s) (h : Ordered subs s) {l : Label κ ε}
    (hcond : PutsInOrder s l) (hstep : step subs s l = some s') : Ordered subs s' := by
  have hloop : (l = .get ∨ l = .submit ∨ ∃ k, l = .run k) → Ordered subs s' := by
    intro hl
    obtain ⟨-, hadds, -, hstream⟩ := stream_eq_of_step hacc hl hstep
    refine ⟨fun k hk => ?_, fun k hk => ?_⟩
    · rw [hstream k hk]
      exact h.sorted k hk
    · rw [hstream k hk, hadds]
      exact h.below k hk
  cases l with
  | call =>
    obtain rfl := Option.some.inj hstep
    refine ⟨h.sorted, fun k hk x hx pc hpc m hm => ?_⟩
    rcases List.mem_append.mp hpc with hpc | hpc
    · exact h.below k hk x hx pc hpc m hm
    · rw [List.mem_singleton.mp hpc] at hm
      cases hm
  | add i a =>
    obtain ⟨pc, hi, hstep⟩ := Option.bind_eq_some_iff.mp hstep
    exact addStep_ordered hacc h hcond hi hstep
  | get => exact hloop (.inl rfl)
  | submit => exact hloop (.inr (.inl rfl))
  | run k => exact hloop (.inr (.inr ⟨k, rfl⟩))

/-! ## Progress -/

/-- The steps of the queue loop until the queue is empty. -/
def State.untilPassed (subs : Subscribers κ) (s : State κ ε) : ℕ :=
  s.queue.length * (subs.callbacks.length + 2) +
    match s.passing with
    | some (_, ks) => ks.length + 1
    | none => 0

/-- The queue loop can pass on every event of the queue. -/
lemma canPass (subs : Subscribers κ) (s : State κ ε) :
    Machine.CanReach (step subs) s
      fun t => t.adds = s.adds ∧ t.queue = [] ∧ t.passing = none := by
  refine Machine.canReach_of_measure (fun t => t.adds = s.adds) (State.untilPassed subs)
    (fun t ht => ?_) rfl
  cases hpass : t.passing with
  | some y =>
    obtain ⟨x, ks⟩ := y
    right
    cases ks with
    | nil =>
      refine ⟨.submit, { t with passing := none }, by simp [step, hpass], ht, ?_⟩
      simp [State.untilPassed, hpass]
    | cons k ks =>
      refine ⟨.submit, { t with
        passing := some (x, ks)
        pools := Function.update t.pools k (t.pools k ++ [x]) }, by simp [step, hpass], ht, ?_⟩
      simp [State.untilPassed, hpass]
  | none =>
    cases hq : t.queue with
    | nil => exact .inl ⟨rfl, rfl⟩
    | cons x q =>
      right
      refine ⟨.get, { t with queue := q, passing := some (x, subs.callbacks) },
        by simp [step, hpass, hq], ht, ?_⟩
      simp only [State.untilPassed, hpass, hq, List.length_cons, Nat.add_mul, Nat.one_mul]
      omega

/-- The pools of some callbacks can run all their tasks when the queue loop has nothing to do. -/
lemma canRun (subs : Subscribers κ) (ks : List κ) (s : State κ ε) (hq : s.queue = [])
    (hpass : s.passing = none) :
    Machine.CanReach (step subs) s fun t => (t.adds = s.adds ∧ t.queue = [] ∧ t.passing = none) ∧
      ∀ k ∈ ks, t.pools k = [] := by
  induction ks with
  | nil => exact .here ⟨⟨rfl, hq, hpass⟩, by simp⟩
  | cons k ks ih =>
    refine ih.trans fun t ht => ?_
    refine (Machine.canReach_of_measure
      (fun u => (u.adds = s.adds ∧ u.queue = [] ∧ u.passing = none) ∧ ∀ k' ∈ ks, u.pools k' = [])
      (fun u => (u.pools k).length) (P := fun u => u.pools k = []) (fun u hu => ?_) ht).trans
      fun u hu => .here ⟨hu.1.1, ?_⟩
    · cases hpool : u.pools k with
      | nil => exact .inl rfl
      | cons x xs =>
        refine .inr ⟨.run k, { u with
          pools := Function.update u.pools k xs
          received := Function.update u.received k (u.received k ++ [x]) },
          by simp [step, hpool], ⟨hu.1, fun k' hk' => ?_⟩, by simp⟩
        by_cases hkk : k' = k
        · subst hkk
          exact absurd (hu.2 k' hk') (by simp [hpool])
        · simpa [Function.update_of_ne hkk] using hu.2 k' hk'
    · intro k' hk'
      rcases List.mem_cons.mp hk' with rfl | hk'
      · exact hu.2
      · exact hu.1.2 k' hk'

/-- **Whatever is on its way can arrive.** -/
theorem canDrain (subs : Subscribers κ) (s : State κ ε) :
    Machine.CanReach (step subs) s fun t =>
      t.added = s.added ∧ ∀ k ∈ subs.callbacks, t.onWay k = [] := by
  refine (canPass subs s).trans fun t ⟨hadds, hq, hpass⟩ =>
    (canRun subs subs.callbacks t hq hpass).trans fun u ⟨⟨hadds', hq', hpass'⟩, hpools⟩ => .here ?_
  refine ⟨by rw [State.added, State.added, hadds', hadds], fun k hk => ?_⟩
  simp [State.onWay, State.passingTo, hq', hpass', hpools k hk]

/-! ## Runs -/

/-- Both invariants hold when the stream is opened. -/
lemma accounted_initState (subs : Subscribers κ) (first : ℕ) :
    Accounted subs first (initState (κ := κ) (ε := ε) first) ∧
      Ordered subs (initState (κ := κ) (ε := ε) first) := by
  have hstream : ∀ k : κ, (initState (κ := κ) (ε := ε) first).stream k = [] := fun _ => rfl
  refine ⟨⟨le_rfl, ?_, fun x ks h => (by cases h), fun k _ => ?_⟩, fun k _ => ?_,
    fun k _ x hx => ?_⟩
  · simp [State.ids, initState]
  · rw [hstream]
    exact List.Perm.refl _
  · rw [hstream]
    exact List.Pairwise.nil
  · rw [hstream] at hx
    cases hx

/-- **Ordered exactly-once delivery**: in every run of `add_event` calls, the queue loop and the
pools of a fixed set of callbacks whose steps all meet the condition, the ids are distinct and
contiguous, and every callback receives every added event once and in increasing order of the
ids. -/
theorem deliveredInOrder_of_putsInOrder (subs : Subscribers κ) (first : ℕ)
    (ls : List (Label κ ε)) (s : State κ ε)
    (hrun : Machine.run (Machine.guarded (step subs) PutsInOrder) (initState first) ls = some s) :
    DeliveredInOrder subs first s := by
  obtain ⟨hacc, hord⟩ : Accounted subs first s ∧ Ordered subs s := by
    refine Machine.run_invariant (fun s => Accounted subs first s ∧ Ordered subs s)
      (fun s l s' h hstep => ?_) (accounted_initState subs first) hrun
    obtain ⟨hcond, hstep⟩ := Machine.guarded_eq_some.mp hstep
    exact ⟨step_accounted h.1 hstep, step_ordered h.1 h.2 hcond hstep⟩
  refine ⟨hacc.ids, hacc.once, canDrain subs s, fun k hk => ?_⟩
  exact (List.pairwise_append.mp (hord.sorted k hk)).1

end Steps

/-- One callback. -/
def oneCallback : Subscribers Unit := ⟨[()], List.nodup_singleton _⟩

/-- Two calls of `add_event` that get the ids `0` and `1` and write their files. -/
def twoEvents : List (Label Unit Unit) :=
  [.call, .call, .add 0 (.test false), .add 1 (.test false), .add 0 (.convert (some ())),
    .add 1 (.convert (some ())), .add 1 (.write true), .add 1 (.store true), .add 0 (.write true),
    .add 0 (.store true)]

/-- The queue loop passes two events on and the callback receives them. -/
def passTwo : List (Label Unit Unit) :=
  [.get, .submit, .submit, .get, .submit, .submit, .run (), .run ()]

theorem deliveredInOrder_twoEvents :
    ∃ s, Machine.run (Machine.guarded (step oneCallback) PutsInOrder) (initState 0)
      (twoEvents ++ [Label.add 0 .put, .add 1 .put] ++ passTwo) = some s ∧
      s.received () = [(0, ()), (1, ())] ∧ DeliveredInOrder oneCallback 0 s := by
  obtain ⟨s, hrun, hrec⟩ : ∃ s, Machine.run (Machine.guarded (step oneCallback) PutsInOrder)
      (initState 0) (twoEvents ++ [Label.add 0 .put, .add 1 .put] ++ passTwo) = some s ∧
      s.received () = [(0, ()), (1, ())] := ⟨_, rfl, rfl⟩
  exact ⟨s, hrun, hrec, deliveredInOrder_of_putsInOrder oneCallback 0 _ s hrun⟩

/-- The second event is put on the queue first, and the callback receives it first. -/
theorem not_deliveredInOrder_overtaken :
    ∃ s, Machine.run (step oneCallback) (initState 0)
      (twoEvents ++ [Label.add 1 .put, .add 0 .put] ++ passTwo) = some s ∧
      s.received () = [(1, ()), (0, ())] ∧ ¬ DeliveredInOrder oneCallback 0 s := by
  refine ⟨_, rfl, rfl, fun h => ?_⟩
  have hsorted := h.order () (List.mem_singleton.mpr rfl)
  exact absurd hsorted (by decide)

end ProRLAgent.EventDelivery
