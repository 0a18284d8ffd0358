import Mathlib.Data.List.Basic
import ProRLAgent.Lib.Heapq
import ProRLAgent.Lib.Machine
import ProRLAgent.Api.Server

set_option relaxedAutoImplicit false
set_option autoImplicit false

/-!
# The LLM addresses of the buffer and of the child

The set of LLM addresses lives twice: in `llm_server_addresses_buffer` of the API server and in the
heap of the child's server. The child is started with a snapshot of the buffer, and every later
change of the buffer is sent to it as a request.

The invariant relates the two through what is still in flight: applying the pending requests of a
live child, in their order, to the addresses that it has gives the buffer.

## Main definitions

* `ApiServer.applyRequest`, `ApiServer.Child.pendingAddresses` — the addresses that the child will
  have when it has handled its requests.
* `ApiServer.State.AddressesEqual` — the property.

## Main results

* `ApiServer.step_addressesAgree` — every step keeps the invariant.
* `ApiServer.addressesEqual_of_run` — the property in every state that a run reaches.
-/

namespace ProRLAgent.ApiServer

/-- **Buffer and child agree**: a live child with a server and without pending requests has exactly
the addresses of the buffer. -/
def State.AddressesEqual {ρ : Type} (s : State ρ) : Prop :=
  ∀ c heap, s.child = some c → c.alive = true → c.heap = some heap → c.requests = [] →
    ∀ address, address ∈ heap.map Prod.snd ↔ address ∈ s.buffer

/-! ## The invariant -/

/-- The effect of a request on a set of addresses. -/
def applyRequest (addresses : List String) : Request → List String
  | .addLlmServer address _ => address :: addresses
  | .clearLlmServer _ => []
  | _ => addresses

/-- The addresses of the child's server, or those that it is going to be made with. -/
def Child.currentAddresses (c : Child) : List String :=
  match c.heap with
  | some heap => heap.map Prod.snd
  | none => c.addresses

/-- The addresses of the child when it has handled its requests. -/
def Child.pendingAddresses (c : Child) : List String :=
  c.requests.foldl applyRequest c.currentAddresses

/-- What a child that is alive has, or will have, is the buffer. -/
def Child.Agrees (c : Child) (buffer : List String) : Prop :=
  c.alive = true → ∀ address, address ∈ c.pendingAddresses ↔ address ∈ buffer

/-- **The invariant.** -/
def State.AddressesAgree {ρ : Type} (s : State ρ) : Prop :=
  ∀ c, s.child = some c → c.Agrees s.buffer

/-! ### Requests -/

/-- A request has the same effect on two lists with the same elements, and so have several. -/
lemma mem_foldl_applyRequest {as bs : List String} (h : ∀ a, a ∈ as ↔ a ∈ bs) (rs : List Request) :
    ∀ a, a ∈ rs.foldl applyRequest as ↔ a ∈ rs.foldl applyRequest bs := by
  induction rs generalizing as bs with
  | nil => exact h
  | cons r rs ih =>
    refine ih fun a => ?_
    cases r with
    | addLlmServer address id => simp only [applyRequest, List.mem_cons, h]
    | clearLlmServer id => exact Iff.rfl
    | _ => exact h a

/-- The addresses after one more request. -/
lemma pendingAddresses_put (c : Child) (r : Request) :
    (c.put r).pendingAddresses = applyRequest c.pendingAddresses r := by
  show (c.requests ++ [r]).foldl applyRequest c.currentAddresses = _
  rw [List.foldl_append]
  rfl

/-! ### The heap -/

/-- A new heap has the addresses that it is made of. -/
lemma mem_newHeap (addresses : List String) (a : String) :
    a ∈ (newHeap addresses).map Prod.snd ↔ a ∈ addresses := by
  rw [newHeap, ((Heapq.heapify_perm weightedLt _).map Prod.snd).mem_iff, List.map_map]
  simp

/-- Adding an address to the heap. -/
lemma mem_addLlmServerAddress (heap : List (ℕ × String)) (address a : String) :
    a ∈ (addLlmServerAddress heap address).map Prod.snd ↔
      a = address ∨ a ∈ heap.map Prod.snd := by
  unfold addLlmServerAddress
  split
  · rename_i hany
    obtain ⟨x, hx, hxa⟩ := List.any_eq_true.mp hany
    have hmem : address ∈ heap.map Prod.snd := List.mem_map.mpr ⟨x, hx, of_decide_eq_true hxa⟩
    constructor
    · exact .inr
    · rintro (rfl | h)
      · exact hmem
      · exact h
  · rw [((Heapq.heappush_perm weightedLt _ _).map Prod.snd).mem_iff, List.map_cons, List.mem_cons]

/-- Selecting an address keeps the addresses. -/
lemma mem_selectLlmServerAddress (heap : List (ℕ × String)) (a : String) :
    a ∈ (selectLlmServerAddress heap).map Prod.snd ↔ a ∈ heap.map Prod.snd := by
  cases heap with
  | nil => exact Iff.rfl
  | cons x heap =>
    obtain ⟨weight, address⟩ := x
    rw [selectLlmServerAddress, ((Heapq.heapreplace_perm weightedLt _ _ _).map Prod.snd).mem_iff]
    simp only [List.map_cons, List.mem_cons]

/-! ### Steps -/

section Steps

variable {ρ : Type} {s s' : State ρ} {c c' : Child} {buffer : List String}

/-- A change of the child that leaves its requests and its addresses as they are. -/
lemma Child.Agrees.same (h : c.Agrees buffer) (halive : c'.alive = true → c.alive = true)
    (hrequests : c'.requests = c.requests)
    (hcurrent : ∀ a, a ∈ c'.currentAddresses ↔ a ∈ c.currentAddresses) : c'.Agrees buffer := by
  intro ha address
  rw [← h (halive ha) address, Child.pendingAddresses, hrequests]
  exact mem_foldl_applyRequest hcurrent c.requests address

/-- A request that does not concern the addresses. -/
lemma Child.Agrees.put (h : c.Agrees buffer) {r : Request}
    (hr : ∀ addresses, applyRequest addresses r = addresses) : (c.put r).Agrees buffer := by
  intro ha address
  rw [pendingAddresses_put, hr]
  exact h ha address

/-- The child handles its next request. -/
lemma Child.Agrees.handle (h : c.Agrees buffer) {heap : List (ℕ × String)}
    (hheap : c.heap = some heap) {r : Request} {requests : List Request}
    (hrequests : c.requests = r :: requests) :
    (Child.handle { c with requests := requests } heap r).1.Agrees buffer := by
  have hhas : c.currentAddresses = heap.map Prod.snd := by rw [Child.currentAddresses, hheap]
  -- What the request does to the heap is what `applyRequest` says.
  have hnext : ∀ {d : Child}, d.alive = c.alive → d.requests = requests →
      (∀ a, a ∈ d.currentAddresses ↔ a ∈ applyRequest (heap.map Prod.snd) r) →
      d.Agrees buffer := by
    intro d hd hreq hcur ha address
    rw [← h (hd ▸ ha) address, Child.pendingAddresses, Child.pendingAddresses, hreq, hrequests,
      hhas]
    exact mem_foldl_applyRequest hcur requests address
  have hstay : ∀ {d : Child}, d.heap = some heap →
      ∀ a, a ∈ d.currentAddresses ↔ a ∈ heap.map Prod.snd := by
    intro d hd a
    rw [Child.currentAddresses, hd]
  cases r with
  | process jobId call => exact hnext rfl rfl (hstay hheap)
  | cancel jobId requestId sender =>
    simp only [Child.handle]
    split
    · exact hnext rfl rfl (hstay hheap)
    · exact hnext rfl rfl (hstay hheap)
  | addLlmServer address requestId =>
    refine hnext rfl rfl fun a => ?_
    rw [applyRequest, List.mem_cons]
    exact mem_addLlmServerAddress heap address a
  | clearLlmServer requestId => exact hnext rfl rfl fun a => Iff.rfl
  | status requestId => exact hnext rfl rfl (hstay hheap)
  | stop requestId => exact hnext rfl rfl (hstay hheap)

/-- A step that leaves the buffer as it is and keeps what the child has. -/
lemma State.AddressesAgree.child (h : s.AddressesAgree) (hbuffer : s'.buffer = s.buffer)
    (hchild : ∀ c', s'.child = some c' → ∃ c, s.child = some c ∧
      (c.Agrees s.buffer → c'.Agrees s.buffer)) : s'.AddressesAgree := by
  intro c' hc'
  obtain ⟨c, hc, hkeep⟩ := hchild c' hc'
  rw [hbuffer]
  exact hkeep (h c hc)

/-- A step that leaves the buffer and the child as they are. -/
lemma State.AddressesAgree.same (h : s.AddressesAgree) (hbuffer : s'.buffer = s.buffer)
    (hchild : s'.child = s.child) : s'.AddressesAgree :=
  h.child hbuffer fun c' hc' => ⟨c', hchild ▸ hc', id⟩

/-- A control endpoint sends a request that does not concern the addresses. -/
lemma State.AddressesAgree.sendControl (h : s.AddressesAgree) (hc : s.child = some c)
    {kind : ControlKind} {r : ℕ → Request}
    (hr : ∀ n addresses, applyRequest addresses (r n) = addresses)
    (hbuffer : s'.buffer = s.buffer) : (s'.sendControl c kind r).AddressesAgree := by
  intro d hd
  obtain rfl := Option.some.inj hd
  show Child.Agrees _ s'.buffer
  rw [hbuffer]
  exact (h c hc).put (hr _)

/-- A step of the event loop keeps the invariant. -/
lemma loopStep_addressesAgree (h : s.AddressesAgree) {l : Label ρ}
    (hstep : s.loopStep l = some s') :
    s'.AddressesAgree := by
  cases l <;> simp only [State.loopStep, reduceCtorEq] at hstep
  case start =>
    split at hstep
    · cases hstep
    · obtain rfl := Option.some.inj hstep
      intro c hc
      obtain rfl := Option.some.inj hc
      intro _ address
      exact Iff.rfl
  case stop =>
    obtain ⟨c, hc, rfl⟩ := Option.map_eq_some_iff.mp hstep
    exact h.sendControl (serverRunning_eq_some.mp hc).1 (fun _ _ => rfl) rfl
  case status =>
    obtain ⟨c, hc, rfl⟩ := Option.map_eq_some_iff.mp hstep
    exact h.sendControl (serverRunning_eq_some.mp hc).1 (fun _ _ => rfl) rfl
  case cancel jobId =>
    obtain ⟨c, hc, rfl⟩ := Option.map_eq_some_iff.mp hstep
    exact h.sendControl (serverRunning_eq_some.mp hc).1 (fun _ _ => rfl) rfl
  case addLlmServer address =>
    have hmem : ∀ a, a ∈ (if address ∈ s.buffer then s.buffer else s.buffer ++ [address]) ↔
        a = address ∨ a ∈ s.buffer := by
      intro a
      split
      · rename_i hin
        constructor
        · exact .inr
        · rintro (rfl | ha)
          · exact hin
          · exact ha
      · rw [List.mem_append, List.mem_singleton, or_comm]
    split at hstep
    · rename_i c hc
      obtain rfl := Option.some.inj hstep
      intro d hd
      obtain rfl := Option.some.inj hd
      obtain ⟨hchild, halive⟩ := serverRunning_eq_some.mp hc
      intro _ a
      rw [pendingAddresses_put]
      show a ∈ address :: c.pendingAddresses ↔ a ∈ if address ∈ s.buffer then _ else _
      rw [hmem, List.mem_cons, h c hchild halive a]
    · rename_i hnone
      obtain rfl := Option.some.inj hstep
      intro c hc halive
      -- The child is not alive.
      have hrun : s.serverRunning = some c := serverRunning_eq_some.mpr ⟨hc, halive⟩
      exact absurd (hrun.symm.trans hnone) (by simp)
  case clearLlmServer =>
    split at hstep
    · rename_i c hc
      obtain rfl := Option.some.inj hstep
      intro d hd
      obtain rfl := Option.some.inj hd
      intro _ a
      rw [pendingAddresses_put]
      exact Iff.rfl
    · rename_i hnone
      obtain rfl := Option.some.inj hstep
      intro c hc halive
      have hrun : s.serverRunning = some c := serverRunning_eq_some.mpr ⟨hc, halive⟩
      exact absurd (hrun.symm.trans hnone) (by simp)
  case process jobId =>
    split at hstep
    · obtain ⟨c, hc, hs'⟩ := Option.map_eq_some_iff.mp hstep
      have hsubmit : ∀ (id : JobId) (n : ℕ),
          State.AddressesAgree { s.submit c id with nextUuid := n } := by
        intro id n d hd
        obtain rfl := Option.some.inj hd
        exact (h c (serverRunning_eq_some.mp hc).1).put fun _ => rfl
      split at hs'
      · split at hs'
        · exact hs' ▸ hsubmit _ _
        · exact hs' ▸ hsubmit _ _
      · exact hs' ▸ hsubmit _ _
    · cases hstep
  case timeout i =>
    obtain ⟨d, hd, hstep⟩ := Option.bind_eq_some_iff.mp hstep
    split at hstep
    · obtain rfl := Option.some.inj hstep
      exact h.same rfl rfl
    · cases hstep
  case cleanup i =>
    obtain ⟨d, hd, hstep⟩ := Option.bind_eq_some_iff.mp hstep
    split at hstep
    · split at hstep
      · split at hstep <;> obtain rfl := Option.some.inj hstep <;> exact h.same rfl rfl
      · cases hstep
    · cases hstep
  case wake i =>
    obtain ⟨d, hd, hstep⟩ := Option.bind_eq_some_iff.mp hstep
    split at hstep
    · obtain rfl := Option.some.inj hstep
      unfold State.finish
      split
      · exact h
      · exact h.same rfl rfl
      · exact h.same (State.popAndCancel_frame _ _ _).1 (State.popAndCancel_frame _ _ _).2.1
      · exact h.same rfl rfl
      · refine h.child (State.popAndCancel_frame _ _ _).1 fun c' hc' => ?_
        obtain ⟨c, hc, rfl⟩ :=
          Option.map_eq_some_iff.mp ((State.popAndCancel_frame _ _ _).2.1.symm.trans hc')
        exact ⟨c, hc, fun hagree => hagree.put fun _ => rfl⟩
    · cases hstep

/-- A step of the child keeps the invariant. -/
lemma childStep_addressesAgree (h : s.AddressesAgree) (hc : s.child = some c) {l : Label ρ}
    (hstep : s.childStep c l = some s') : s'.AddressesAgree := by
  have hagree := h c hc
  -- The new state has the old buffer and this child.
  have hnext : ∀ {d : Child}, s'.buffer = s.buffer → s'.child = some d → d.Agrees s.buffer →
      s'.AddressesAgree := by
    intro d hbuffer hchild hd e he
    obtain rfl := Option.some.inj (hchild.symm.trans he)
    rw [hbuffer]
    exact hd
  cases l <;> simp only [State.childStep, reduceCtorEq] at hstep
  case boot =>
    split at hstep
    · rename_i hnone
      obtain rfl := Option.some.inj hstep
      refine hnext rfl rfl (hagree.same id rfl fun a => ?_)
      rw [Child.currentAddresses, Child.currentAddresses, hnone]
      exact mem_newHeap c.addresses a
    · cases hstep
  case handle =>
    split at hstep
    · rename_i heap r requests hheap _ hrequests
      obtain rfl := Option.some.inj hstep
      exact hnext rfl rfl (hagree.handle hheap hrequests)
    · cases hstep
  case runJob n =>
    obtain ⟨job, hjob, hstep⟩ := Option.bind_eq_some_iff.mp hstep
    split at hstep
    · obtain rfl := Option.some.inj hstep
      exact hnext rfl rfl (hagree.same id rfl fun a => Iff.rfl)
    · cases hstep
  case endJob n reply =>
    obtain ⟨job, hjob, hstep⟩ := Option.bind_eq_some_iff.mp hstep
    split at hstep
    · obtain rfl := Option.some.inj hstep
      exact hnext rfl rfl (hagree.same id rfl fun a => Iff.rfl)
    · cases hstep
  case selectAddress =>
    obtain ⟨heap, hheap, rfl⟩ := Option.map_eq_some_iff.mp hstep
    refine hnext rfl rfl (hagree.same id rfl fun a => ?_)
    rw [Child.currentAddresses, Child.currentAddresses, hheap]
    exact mem_selectLlmServerAddress heap a
  case die =>
    obtain rfl := Option.some.inj hstep
    exact hnext rfl rfl (hagree.same (fun ha => by cases ha) rfl fun a => Iff.rfl)

/-- The end of a control endpoint keeps the invariant. -/
lemma controlStep_addressesAgree (h : s.AddressesAgree) (hc : s.child = some c) {kind : ControlKind}
    {requestId : ℕ} {l : Label ρ} (hstep : s.controlStep kind requestId c l = some s') :
    s'.AddressesAgree := by
  have hend : ∀ {t : State ρ}, t.AddressesAgree → (t.endControl kind).AddressesAgree := by
    intro t ht
    cases kind with
    | stop =>
      intro d hd
      cases hd
    | _ => exact ht.same rfl rfl
  cases l <;> simp only [State.controlStep, reduceCtorEq] at hstep
  case ack =>
    split at hstep
    · cases hstep
    · obtain rfl := Option.some.inj hstep
      refine hend ?_
      intro d hd
      obtain rfl := Option.some.inj hd
      exact (h c hc).same id rfl fun a => Iff.rfl
  case ackTimeout =>
    split at hstep
    · obtain rfl := Option.some.inj hstep
      exact hend h
    · cases hstep

/-- A step of the listener keeps the invariant. -/
lemma listenerStep_addressesAgree (h : s.AddressesAgree) {l : Label ρ}
    (hstep : s.listenerStep l = some s') : s'.AddressesAgree := by
  cases l <;> simp only [State.listenerStep, reduceCtorEq] at hstep
  case listen =>
    split at hstep
    · cases hstep
    · split at hstep <;> obtain rfl := Option.some.inj hstep <;> exact h.same rfl rfl
  case resolve =>
    split at hstep
    · cases hstep
    · obtain ⟨c, hc, rfl⟩ := Option.map_eq_some_iff.mp hstep
      split <;> exact h.same rfl rfl

/-- **The step lemma**: every step keeps the invariant. -/
theorem step_addressesAgree (h : s.AddressesAgree) {l : Label ρ} (hstep : step s l = some s') :
    s'.AddressesAgree := by
  rcases step_cases hstep with hstep | ⟨c, hc, -, hstep⟩ | ⟨kind, requestId, c, -, hc, hstep⟩ |
    ⟨-, hstep⟩
  · exact listenerStep_addressesAgree h hstep
  · exact childStep_addressesAgree h hc hstep
  · exact controlStep_addressesAgree h hc hstep
  · exact loopStep_addressesAgree h hstep

end Steps

/-! ## Runs -/

/-- **Address buffer and child agree**: in every run of the API server and its child, whenever the
child is alive with a server and its request queue is drained, the addresses in the heap of the
server are those of the buffer. -/
theorem addressesEqual_of_run {ρ : Type} (ls : List (Label ρ)) (s : State ρ)
    (hrun : Machine.run step initState ls = some s) : s.AddressesEqual := by
  have hinv : s.AddressesAgree := by
    refine Machine.run_invariant State.AddressesAgree (fun s l s' h hstep => ?_) ?_ hrun
    · exact step_addressesAgree h hstep
    · intro c hc
      cases hc
  intro c heap hc halive hheap hrequests address
  have hagree := hinv c hc halive address
  rwa [Child.pendingAddresses, hrequests, List.foldl_nil, Child.currentAddresses, hheap] at hagree

/-- Two addresses are buffered, the child is started, one more is added and a job selects one. -/
def addressRun : List (Label Unit) :=
  [.addLlmServer "a", .addLlmServer "b", .start, .addLlmServer "c", .boot, .handle, .ack,
    .selectAddress]

theorem addressesEqual_addressRun :
    ∃ s, Machine.run step initState addressRun = some s ∧
      (∃ c, s.child = some c ∧ c.heap = some [(0, "b"), (1, "a"), (0, "c")] ∧ c.requests = []) ∧
      s.buffer = ["a", "b", "c"] ∧ s.AddressesEqual := by
  obtain ⟨s, hrun, hchild, hbuffer⟩ : ∃ s, Machine.run step initState addressRun = some s ∧
      (∃ c, s.child = some c ∧ c.heap = some [(0, "b"), (1, "a"), (0, "c")] ∧ c.requests = []) ∧
      s.buffer = ["a", "b", "c"] := ⟨_, rfl, ⟨_, rfl, by decide, by decide⟩, by decide⟩
  exact ⟨s, hrun, hchild, hbuffer, addressesEqual_of_run addressRun s hrun⟩

end ProRLAgent.ApiServer
