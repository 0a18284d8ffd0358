import Mathlib.Data.List.Nodup
import ProRLAgent.Api.Addresses

set_option relaxedAutoImplicit false
set_option autoImplicit false

/-!
# The balance of the LLM servers

Both servers keep `weighted_addresses`, a heap of entries `[weight, address]`, and a job gets the
address of the first entry, whose weight then grows by one. The model runs the operations in any
order and writes down what they did, so that the weights can be compared with the selections.

## Main definitions

* `ProRLAgent.ApiServer.AddressState` — the heap, and the additions and selections so far.
* `ProRLAgent.ApiServer.sinceAdded` — how often an address was selected since it was added.
* `ProRLAgent.ApiServer.BalanceLaw` — what holds of the heap after any operations.

## Main results

* `ProRLAgent.ApiServer.balanceLaw_run` — the law holds after every sequence of operations.
-/

namespace ProRLAgent.ApiServer

/-! ## Operations on the addresses -/

/-- The operations on `weighted_addresses`. -/
inductive AddressOp where
  | add (address : String)
  | clear
  | select

/-- What an operation did: an address came into the heap, or a job got it. -/
inductive AddressEvent where
  | added (address : String)
  | selected (address : String)
  deriving DecidableEq

/-- The heap, and what was done so far, the last event first. -/
structure AddressState where
  heap : List (ℕ × String)
  log : List AddressEvent

/-- How often an address was selected since it was added. -/
def sinceAdded (address : String) (log : List AddressEvent) : ℕ :=
  (log.takeWhile (· ≠ .added address)).count (.selected address)

/-- The state of a server that is created with some addresses. -/
def newAddressState (addresses : List String) : AddressState :=
  ⟨newHeap addresses, addresses.map .added⟩

/-- One operation. An address that is there is not added again, and a selection from an empty heap
raises. -/
def AddressState.step (s : AddressState) : AddressOp → AddressState
  | .add address =>
    ⟨addLlmServerAddress s.heap address,
      if s.heap.any fun x => x.2 = address then s.log else .added address :: s.log⟩
  | .clear => ⟨clearLlmServerAddresses s.heap, s.log⟩
  | .select =>
    match s.heap with
    | [] => s
    | (_, address) :: _ => ⟨selectLlmServerAddress s.heap, .selected address :: s.log⟩

/-- Some operations, one after the other. -/
def AddressState.run (s : AddressState) (ops : List AddressOp) : AddressState :=
  ops.foldl AddressState.step s

/-- **The law of the balance**, for a server that was created with `addresses` and is now in state
`s`: the entries are a heap; their addresses are distinct, if they were at the creation, and their
weights count the selections; a selection takes an address of minimal weight; and when addresses are
added to an empty heap, the selections after that are even. -/
structure BalanceLaw (addresses : List String) (s : AddressState) : Prop where
  heap : Heapq.IsHeap weightedLt s.heap
  distinct : addresses.Nodup → (s.heap.map Prod.snd).Nodup
  weight : addresses.Nodup → ∀ x ∈ s.heap, x.1 = sinceAdded x.2 s.log
  minimal : ∀ address, (s.step .select).log = .selected address :: s.log →
    ∃ weight, (weight, address) ∈ s.heap ∧ ∀ x ∈ s.heap, weight ≤ x.1
  even : s.heap = [] → ∀ (added : List String) (n : ℕ), ∀ a ∈ added, ∀ b ∈ added,
    sinceAdded a (s.run (added.map .add ++ List.replicate n .select)).log ≤
      sinceAdded b (s.run (added.map .add ++ List.replicate n .select)).log + 1

/-! ## The count of the selections -/

@[simp] lemma sinceAdded_added (address : String) (log : List AddressEvent) :
    sinceAdded address (.added address :: log) = 0 := by
  simp [sinceAdded]

lemma sinceAdded_added_of_ne {a b : String} (h : a ≠ b) (log : List AddressEvent) :
    sinceAdded a (.added b :: log) = sinceAdded a log := by
  simp [sinceAdded, Ne.symm h]

@[simp] lemma sinceAdded_selected (address : String) (log : List AddressEvent) :
    sinceAdded address (.selected address :: log) = sinceAdded address log + 1 := by
  simp [sinceAdded]

lemma sinceAdded_selected_of_ne {a b : String} (h : a ≠ b) (log : List AddressEvent) :
    sinceAdded a (.selected b :: log) = sinceAdded a log := by
  simp [sinceAdded, Ne.symm h]

/-- Before its first selection an address counts none. -/
lemma sinceAdded_map_added (address : String) (addresses : List String) :
    sinceAdded address (addresses.map .added) = 0 := by
  rw [sinceAdded, List.count_eq_zero]
  intro h
  have hmem := (List.takeWhile_sublist _).subset h
  simp at hmem

/-! ## The heap -/

/-- The entries are compared by weight, and then by address. -/
lemma comparison_weightedLt : Heapq.Comparison weightedLt where
  asymm := by
    rintro ⟨w, a⟩ ⟨w', a'⟩ h
    simp only [weightedLt, decide_eq_true_eq, decide_eq_false_iff_not] at h ⊢
    rintro (h' | ⟨rfl, h'⟩)
    · omega
    · obtain h | ⟨-, h⟩ := h
      · omega
      · exact String.lt_asymm h h'
  trans := by
    rintro ⟨w, a⟩ ⟨w', a'⟩ ⟨w'', a''⟩ h h'
    simp only [weightedLt, decide_eq_false_iff_not, not_or, not_and, String.not_lt] at h h' ⊢
    refine ⟨by omega, fun hw => ?_⟩
    have hw' : w' = w ∧ w'' = w' := by omega
    exact String.le_trans (h.2 hw'.1) (h'.2 hw'.2)

/-- An entry that is not smaller does not weigh less. -/
lemma weight_le_of_not_weightedLt {x y : ℕ × String} (h : weightedLt y x = false) : x.1 ≤ y.1 := by
  simp only [weightedLt, decide_eq_false_iff_not, not_or] at h
  exact Nat.le_of_not_lt h.1

/-- The first entry of the heap has minimal weight. -/
lemma weight_le_of_isHeap {x : ℕ × String} {heap : List (ℕ × String)}
    (h : Heapq.IsHeap weightedLt (x :: heap)) : ∀ y ∈ x :: heap, x.1 ≤ y.1 :=
  fun y hy => weight_le_of_not_weightedLt (h.root_le comparison_weightedLt y hy)

/-- The heap after a selection: the first entry weighs one more. -/
lemma selectLlmServerAddress_perm (weight : ℕ) (address : String) (heap : List (ℕ × String)) :
    (selectLlmServerAddress ((weight, address) :: heap)).Perm ((weight + 1, address) :: heap) :=
  Heapq.heapreplace_perm _ _ _ _

/-- A selection keeps the heap, although the weight of the first entry grows in place before it is
moved. -/
lemma isHeap_selectLlmServerAddress {heap : List (ℕ × String)}
    (h : Heapq.IsHeap weightedLt heap) : Heapq.IsHeap weightedLt (selectLlmServerAddress heap) := by
  cases heap with
  | nil => exact h
  | cons x heap => exact Heapq.isHeap_heapreplace comparison_weightedLt h _

/-- **Every operation keeps the heap.** -/
lemma AddressState.isHeap_step {s : AddressState} (h : Heapq.IsHeap weightedLt s.heap)
    (op : AddressOp) : Heapq.IsHeap weightedLt (s.step op).heap := by
  cases op with
  | add address =>
    show Heapq.IsHeap weightedLt (addLlmServerAddress s.heap address)
    unfold addLlmServerAddress
    split
    · exact h
    · exact Heapq.isHeap_heappush comparison_weightedLt h _
  | clear =>
    rintro i j - - a b ha -
    cases ha
  | select =>
    cases hheap : s.heap with
    | nil => simpa [AddressState.step, hheap] using h
    | cons x heap =>
      simpa [AddressState.step, hheap] using isHeap_selectLlmServerAddress (hheap ▸ h)

/-! ## The weights -/

/-- The weights count the selections, and the addresses are distinct. -/
structure Counted (s : AddressState) : Prop where
  distinct : (s.heap.map Prod.snd).Nodup
  weight : ∀ x ∈ s.heap, x.1 = sinceAdded x.2 s.log

/-- **Every operation keeps the count.** -/
lemma Counted.step {s : AddressState} (h : Counted s) (op : AddressOp) : Counted (s.step op) := by
  cases op with
  | add address =>
    by_cases hany : s.heap.any fun x => x.2 = address
    · have hstep : s.step (.add address) = s := by
        simp [AddressState.step, addLlmServerAddress, hany]
      rwa [hstep]
    · have hnew : address ∉ s.heap.map Prod.snd := by
        simpa using hany
      have hstep : s.step (.add address) =
          ⟨Heapq.heappush weightedLt s.heap (0, address), .added address :: s.log⟩ := by
        simp only [AddressState.step, addLlmServerAddress, if_neg hany]
      have hperm := Heapq.heappush_perm weightedLt s.heap (0, address)
      rw [hstep]
      refine ⟨?_, fun x hx => ?_⟩
      · rw [(hperm.map Prod.snd).nodup_iff]
        exact List.nodup_cons.mpr ⟨hnew, h.distinct⟩
      · obtain rfl | hx := List.mem_cons.mp (hperm.mem_iff.mp hx)
        · simp
        · have hne : x.2 ≠ address := fun he => hnew (he ▸ List.mem_map_of_mem hx)
          rw [sinceAdded_added_of_ne hne]
          exact h.weight x hx
  | clear => exact ⟨List.nodup_nil, fun x hx => by cases hx⟩
  | select =>
    obtain ⟨heap, log⟩ := s
    cases heap with
    | nil => exact h
    | cons x heap =>
      obtain ⟨weight, address⟩ := x
      have hperm := selectLlmServerAddress_perm weight address heap
      have hdistinct : address ∉ heap.map Prod.snd ∧ (heap.map Prod.snd).Nodup :=
        List.nodup_cons.mp h.distinct
      refine ⟨?_, fun x hx => ?_⟩
      · exact (hperm.map Prod.snd).nodup_iff.mpr h.distinct
      · obtain rfl | hx := List.mem_cons.mp (hperm.mem_iff.mp hx)
        · have hweight := h.weight (weight, address) List.mem_cons_self
          simpa [AddressState.step] using hweight
        · have hne : x.2 ≠ address := fun he => hdistinct.1 (he ▸ List.mem_map_of_mem hx)
          show x.1 = sinceAdded x.2 (.selected address :: log)
          rw [sinceAdded_selected_of_ne hne]
          exact h.weight x (List.mem_cons_of_mem _ hx)

/-- A new server counts no selection. -/
lemma counted_newAddressState {addresses : List String} (h : addresses.Nodup) :
    Counted (newAddressState addresses) := by
  have hperm := Heapq.heapify_perm weightedLt (addresses.map fun address => (0, address))
  refine ⟨?_, fun x hx => ?_⟩
  · have hsnd : (addresses.map fun address => ((0 : ℕ), address)).map Prod.snd = addresses := by
      simp [Function.comp_def]
    rw [newAddressState, newHeap, (hperm.map Prod.snd).nodup_iff, hsnd]
    exact h
  · obtain ⟨address, -, rfl⟩ := List.mem_map.mp (hperm.mem_iff.mp hx)
    exact (sinceAdded_map_added address addresses).symm

/-! ## Even selections -/

/-- No two weights differ by more than one. -/
def Even (heap : List (ℕ × String)) : Prop := ∀ x ∈ heap, ∀ y ∈ heap, x.1 ≤ y.1 + 1

/-- A selection from an even heap keeps it even, since it takes a minimal weight. -/
lemma Even.select {heap : List (ℕ × String)} (h : Even heap)
    (hheap : Heapq.IsHeap weightedLt heap) :
    Even (selectLlmServerAddress heap) := by
  cases heap with
  | nil => exact h
  | cons x heap =>
    obtain ⟨weight, address⟩ := x
    have hmin := weight_le_of_isHeap hheap
    have hmem : ∀ y ∈ selectLlmServerAddress ((weight, address) :: heap),
        y = (weight + 1, address) ∨ y ∈ heap := fun y hy =>
      List.mem_cons.mp ((selectLlmServerAddress_perm weight address heap).mem_iff.mp hy)
    intro y hy z hz
    obtain rfl | hy := hmem y hy
    · obtain rfl | hz := hmem z hz
      · omega
      · have hle := hmin z (List.mem_cons_of_mem _ hz)
        omega
    · obtain rfl | hz := hmem z hz
      · have hle : y.1 ≤ weight + 1 :=
          h y (List.mem_cons_of_mem _ hy) (weight, address) List.mem_cons_self
        omega
      · exact h y (List.mem_cons_of_mem _ hy) z (List.mem_cons_of_mem _ hz)

/-- Additions to a heap without selections: all weights stay zero, and the addresses are there. -/
lemma heap_run_add (s : AddressState) (h : ∀ x ∈ s.heap, x.1 = 0) (added : List String) :
    (∀ x ∈ (s.run (added.map .add)).heap, x.1 = 0) ∧
      ∀ a, a ∈ (s.run (added.map .add)).heap.map Prod.snd ↔
        a ∈ added ∨ a ∈ s.heap.map Prod.snd := by
  induction added generalizing s with
  | nil => exact ⟨h, fun a => by simp [AddressState.run]⟩
  | cons address added ih =>
    have hstep : ∀ x ∈ (s.step (.add address)).heap, x.1 = 0 := by
      intro x hx
      have hx : x ∈ addLlmServerAddress s.heap address := hx
      unfold addLlmServerAddress at hx
      split at hx
      · exact h x hx
      · obtain rfl | hx := List.mem_cons.mp ((Heapq.heappush_perm _ _ _).mem_iff.mp hx)
        · rfl
        · exact h x hx
    obtain ⟨hzero, hmem⟩ := ih (s.step (.add address)) hstep
    refine ⟨hzero, fun a => (hmem a).trans ?_⟩
    have hone : a ∈ (s.step (.add address)).heap.map Prod.snd ↔
        a = address ∨ a ∈ s.heap.map Prod.snd := mem_addLlmServerAddress s.heap address a
    rw [hone, List.mem_cons]
    tauto

/-- Selections keep an even heap even, and they keep the addresses. -/
lemma even_run_select (s : AddressState) (h : Even s.heap)
    (hheap : Heapq.IsHeap weightedLt s.heap) (n : ℕ) :
    Even (s.run (List.replicate n .select)).heap ∧
      ∀ a, a ∈ (s.run (List.replicate n .select)).heap.map Prod.snd ↔
        a ∈ s.heap.map Prod.snd := by
  induction n generalizing s with
  | zero => exact ⟨h, fun _ => Iff.rfl⟩
  | succ n ih =>
    have hstep : (s.step .select).heap = selectLlmServerAddress s.heap := by
      obtain ⟨heap, log⟩ := s
      cases heap with
      | nil => rfl
      | cons x heap => rfl
    obtain ⟨heven, hmem⟩ := ih (s.step .select) (hstep ▸ h.select hheap)
      (AddressState.isHeap_step hheap .select)
    refine ⟨heven, fun a => (hmem a).trans ?_⟩
    rw [hstep]
    exact mem_selectLlmServerAddress s.heap a

/-! ## Runs -/

/-- The operations keep what each of them keeps. -/
lemma AddressState.run_induction (P : AddressState → Prop) (hstep : ∀ s op, P s → P (s.step op))
    {s : AddressState} (h : P s) (ops : List AddressOp) : P (s.run ops) := by
  induction ops generalizing s with
  | nil => exact h
  | cons op ops ih => exact ih (hstep s op h)

/-- The entries stay a heap. -/
lemma AddressState.isHeap_run {s : AddressState} (h : Heapq.IsHeap weightedLt s.heap)
    (ops : List AddressOp) : Heapq.IsHeap weightedLt (s.run ops).heap :=
  run_induction (fun s => Heapq.IsHeap weightedLt s.heap) (fun _ op hs => isHeap_step hs op) h ops

/-- The weights keep counting. -/
lemma Counted.run {s : AddressState} (h : Counted s) (ops : List AddressOp) : Counted (s.run ops) :=
  AddressState.run_induction Counted (fun _ op hs => hs.step op) h ops

/-- **The law of the balance** holds after every sequence of additions, clearings and
selections. -/
theorem balanceLaw_run (addresses : List String) (ops : List AddressOp) :
    BalanceLaw addresses ((newAddressState addresses).run ops) := by
  have hcounted : addresses.Nodup → Counted ((newAddressState addresses).run ops) := fun h =>
    (counted_newAddressState h).run ops
  have hheap : Heapq.IsHeap weightedLt ((newAddressState addresses).run ops).heap :=
    AddressState.isHeap_run (Heapq.isHeap_heapify comparison_weightedLt _) ops
  generalize (newAddressState addresses).run ops = s at hcounted hheap
  refine ⟨hheap, fun h => (hcounted h).distinct, fun h => (hcounted h).weight,
    fun address hselect => ?_, fun hnil added n a ha b hb => ?_⟩
  · obtain ⟨heap, log⟩ := s
    cases heap with
    | nil => exact absurd hselect (List.ne_cons_self)
    | cons x heap =>
      obtain ⟨weight, first⟩ := x
      have hfirst : AddressEvent.selected first :: log = .selected address :: log := hselect
      obtain rfl : first = address := by simpa using hfirst
      exact ⟨weight, List.mem_cons_self, weight_le_of_isHeap hheap⟩
  · -- The count starts with the empty heap, whatever was done before.
    have hstart : Counted s := ⟨by rw [hnil]; exact List.nodup_nil, fun x hx => by
      rw [hnil] at hx
      cases hx⟩
    obtain ⟨hzero, hadded⟩ := heap_run_add s (fun x hx => by rw [hnil] at hx; cases hx) added
    have hsplit : s.run (added.map .add ++ List.replicate n .select) =
        (s.run (added.map .add)).run (List.replicate n .select) := List.foldl_append ..
    obtain ⟨heven, hmem⟩ := even_run_select (s.run (added.map .add))
      (fun x hx y hy => by rw [hzero x hx, hzero y hy]; omega)
      (AddressState.isHeap_run hheap _) n
    have hcount : Counted (s.run (added.map .add ++ List.replicate n .select)) :=
      hstart.run _
    rw [← hsplit] at heven hmem
    have hentry : ∀ c ∈ added, ∃ x ∈ (s.run (added.map .add ++ List.replicate n .select)).heap,
        x.1 = sinceAdded c (s.run (added.map .add ++ List.replicate n .select)).log := by
      intro c hc
      obtain ⟨x, hx, rfl⟩ := List.mem_map.mp ((hmem c).mpr ((hadded c).mpr (.inl hc)))
      exact ⟨x, hx, hcount.weight x hx⟩
    obtain ⟨x, hx, hxa⟩ := hentry a ha
    obtain ⟨y, hy, hyb⟩ := hentry b hb
    rw [← hxa, ← hyb]
    exact heven x hx y hy

end ProRLAgent.ApiServer
