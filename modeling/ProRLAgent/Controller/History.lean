import Mathlib.Data.List.Sort
import Mathlib.Data.Prod.Lex
import ProRLAgent.Lib.Brackets
import ProRLAgent.Lib.Slices

set_option relaxedAutoImplicit false
set_option autoImplicit false

/-!
# The history of a controller

The function `_init_history` (`openhands/controller/agent_controller.py`) reads the events of a
range from the event stream and leaves out those between an `AgentDelegateAction` and its
`AgentDelegateObservation`. The pairs are found with a stack, sorted, and cut out in one pass with
an index that moves behind the end of each pair.

A pair inside another one moves the index back: its two events and all events behind it up to the
end of the outer pair are added behind the outer pair. The loop variables have the names of the
bounds of the range, so the start of the last pair is written to the state.

## Main definitions

* `ProRLAgent.History.EventStream` — the events of a stream, in the order of their ids.
* `ProRLAgent.History.initHistory` — the function `_init_history`.
* `ProRLAgent.History.DelegatePair` — a delegate action and its observation.
* `ProRLAgent.History.close` — the history that `close` leaves.
* `ProRLAgent.History.Restored` — the events without those strictly inside an outermost pair.
* `ProRLAgent.History.Repeatable` — a second run changes nothing.

## Main results

* `ProRLAgent.History.spliceRanges_eq_filter` — pairs that are apart are cut out.
* `ProRLAgent.History.restored_initHistory_iff` — the history is right if and only if no pair is
  inside another one.
* `ProRLAgent.History.repeatable_initHistory_iff` — a second run changes nothing if and only if all
  pairs start with the range.
* `ProRLAgent.History.close_initHistory` — what closing leaves of a restored history.
-/

namespace ProRLAgent.History

/-! ## Events and streams -/

/-- The types of events that are told apart. -/
inductive EventType where
  | delegateAction
  | delegateObservation
  | null
  | nullObservation
  | changeAgentState
  | agentStateChanged
  | other (name : String)
  deriving DecidableEq, Repr

/-- An event of a stream. -/
structure Event where
  id : ℤ
  type : EventType
  hidden : Bool
  deriving DecidableEq, Repr

/-- The event is an `AgentDelegateAction`. -/
def Event.isDelegateAction (event : Event) : Bool := event.type = .delegateAction

/-- The event is an `AgentDelegateObservation`. -/
def Event.isDelegateObservation (event : Event) : Bool := event.type = .delegateObservation

/-- The filter `agent_history_filter`. -/
def agentHistoryFilter (event : Event) : Bool :=
  match event.type with
  | .null | .nullObservation | .changeAgentState | .agentStateChanged => false
  | _ => !event.hidden

/-- **An event stream**: its events, and the id of the next one. -/
structure EventStream where
  events : List Event
  curId : ℤ
  sorted : events.Pairwise fun e e' => e.id < e'.id
  curId_nonneg : 0 ≤ curId
  bounds : ∀ e ∈ events, 0 ≤ e.id ∧ e.id < curId

/-- The function `get_latest_event_id`. -/
def EventStream.getLatestEventId (stream : EventStream) : ℤ := stream.curId - 1

/-- The function `search_events`, forwards and without a limit. -/
def EventStream.searchEvents (stream : EventStream) (startId endId : ℤ) (filter : Event → Bool) :
    List Event :=
  stream.events.filter fun e => decide (startId ≤ e.id ∧ e.id ≤ endId) && filter e

/-- What a state keeps of its history. -/
structure State where
  startId : ℤ
  endId : ℤ
  history : List Event
  deriving DecidableEq, Repr

/-! ## The function -/

/-- The first id of the range. -/
def State.rangeStart (state : State) : ℤ := if 0 ≤ state.startId then state.startId else 0

/-- The last id of the range. -/
def State.rangeEnd (state : State) (stream : EventStream) : ℤ :=
  if 0 ≤ state.endId then state.endId else stream.getLatestEventId

/-- The loop that finds the delegate ranges, with the stack of unmatched delegate actions. -/
def delegateRanges : List Event → List ℤ → List (ℤ × ℤ)
  | [], _ => []
  | event :: events, delegateActionIds =>
    if event.isDelegateAction then delegateRanges events (event.id :: delegateActionIds)
    else if event.isDelegateObservation then
      match delegateActionIds with
      | [] => delegateRanges events []
      | actionId :: delegateActionIds => (actionId, event.id) :: delegateRanges events delegateActionIds
    else delegateRanges events delegateActionIds

/-- The order of the ranges. -/
def RangeLe (p q : ℤ × ℤ) : Prop := p.1 < q.1 ∨ p.1 = q.1 ∧ p.2 ≤ q.2

instance : DecidableRel RangeLe := fun p q => by
  unfold RangeLe
  infer_instance

instance : Std.Refl RangeLe := ⟨fun _ => .inr ⟨rfl, le_rfl⟩⟩

instance : Std.Total RangeLe := ⟨fun p q => by
  unfold RangeLe
  omega⟩

instance : IsTrans (ℤ × ℤ) RangeLe := ⟨fun p q r => by
  unfold RangeLe
  omega⟩

/-- The loop over the sorted ranges, from an index on. -/
def spliceRanges (events : List Event) : ℕ → List (ℤ × ℤ) → List Event
  | currentIdx, [] => events.drop currentIdx
  | currentIdx, (startId, endId) :: ranges =>
    (events.drop currentIdx).filter (fun event => decide (event.id < startId)) ++
      events.filter (fun event => decide (event.id = startId ∨ event.id = endId)) ++
      spliceRanges events (events.findIdx fun event => decide (endId < event.id)) ranges

/-- **The function `_init_history`.** The loop over the ranges leaves the start of the last one in
the variable that is written back. -/
def initHistory (stream : EventStream) (state : State) : State :=
  let startId := state.rangeStart
  let endId := state.rangeEnd stream
  if endId + 1 < startId then { state with history := [] }
  else
    let events := stream.searchEvents startId endId agentHistoryFilter
    match (delegateRanges events []).insertionSort RangeLe with
    | [] => { state with history := events, startId := startId }
    | range :: ranges =>
      { state with
        history := spliceRanges events 0 (range :: ranges)
        startId := ((range :: ranges).getLast (List.cons_ne_nil _ _)).1 }

/-! ## The properties -/

/-- The events of the range that pass the filter. -/
def rangeEvents (stream : EventStream) (state : State) : List Event :=
  stream.searchEvents state.rangeStart (state.rangeEnd stream) agentHistoryFilter

/-- **A delegate pair**: an action and its observation, with matched actions and observations
between them. -/
def DelegatePair (events : List Event) (action observation : Event) : Prop :=
  Brackets.Pair Event.isDelegateAction Event.isDelegateObservation events action observation

/-- A pair that is not inside another one. -/
def Outermost (events : List Event) (action observation : Event) : Prop :=
  DelegatePair events action observation ∧ ∀ action' observation',
    DelegatePair events action' observation' →
      ¬ (action'.id < action.id ∧ observation.id < observation'.id)

/-- The event is strictly inside an outermost pair. -/
def StrictlyInside (events : List Event) (event : Event) : Prop :=
  ∃ action observation, Outermost events action observation ∧ action.id < event.id ∧
    event.id < observation.id

/-- **The history is right**: it has the events but those strictly inside an outermost pair, in
increasing order. -/
structure Restored (events history : List Event) : Prop where
  mem_iff : ∀ event, event ∈ history ↔ event ∈ events ∧ ¬ StrictlyInside events event
  sorted : history.Pairwise fun e e' => e.id < e'.id

/-- **No pair is inside another one.** -/
def Flat (events : List Event) : Prop :=
  ∀ action observation action' observation', DelegatePair events action observation →
    DelegatePair events action' observation' →
      ¬ (action.id < action'.id ∧ observation'.id < observation.id)

/-- **A second run changes nothing**, and the first one leaves the start of the range. -/
def Repeatable (stream : EventStream) (state : State) : Prop :=
  let first := initHistory stream state
  let second := initHistory stream first
  first.startId = max state.startId 0 ∧ second.history = first.history ∧
    second.startId = first.startId

/-! ## The ranges -/

lemma rangeStart_eq_max (state : State) : state.rangeStart = max state.startId 0 := by
  rw [State.rangeStart]
  split_ifs with h
  · exact (max_eq_left h).symm
  · exact (max_eq_right (by omega)).symm

/-- The events of the range are in order. -/
lemma sorted_rangeEvents (stream : EventStream) (state : State) :
    (rangeEvents stream state).Pairwise fun e e' => e.id < e'.id :=
  stream.sorted.filter _

/-- The ids of the range. -/
lemma bounds_of_mem_rangeEvents {stream : EventStream} {state : State} {event : Event}
    (h : event ∈ rangeEvents stream state) :
    max state.startId 0 ≤ event.id ∧ event.id ≤ state.rangeEnd stream := by
  have hmem := (List.mem_filter.mp h).2
  rw [Bool.and_eq_true, decide_eq_true_eq, rangeStart_eq_max] at hmem
  exact hmem.1

/-- The ranges are the ids of the pairs that the stack finds. -/
lemma delegateRanges_eq_map (events stack : List Event) :
    delegateRanges events (stack.map Event.id) =
      (Brackets.pairs Event.isDelegateAction Event.isDelegateObservation events stack).map
        fun p => (p.1.id, p.2.id) := by
  induction events generalizing stack with
  | nil => rfl
  | cons event events ih =>
    rw [delegateRanges.eq_def]
    simp only
    cases hopen : event.isDelegateAction with
    | true =>
      rw [Brackets.pairs_open hopen, ← ih]
      exact if_pos rfl
    | false =>
      cases hclose : event.isDelegateObservation with
      | false =>
        rw [Brackets.pairs_plain hopen hclose, ← ih]
        simp only [Bool.false_eq_true, if_false]
      | true =>
        cases stack with
        | nil =>
          rw [Brackets.pairs_close_nil hopen hclose, ← ih]
          rfl
        | cons action stack =>
          rw [Brackets.pairs_close hopen hclose, List.map_cons (l := stack), List.map_cons, ← ih]
          rfl

section Ranges

variable {events : List Event}

/-- **The ranges are the pairs.** -/
lemma mem_delegateRanges_iff {range : ℤ × ℤ} : range ∈ delegateRanges events [] ↔
    ∃ action observation, DelegatePair events action observation ∧
      range = (action.id, observation.id) := by
  have hmap := delegateRanges_eq_map events []
  rw [List.map_nil] at hmap
  rw [hmap, List.mem_map]
  constructor
  · rintro ⟨⟨action, observation⟩, hmem, rfl⟩
    exact ⟨action, observation, Brackets.mem_pairs_iff.mp hmem, rfl⟩
  · rintro ⟨action, observation, hpair, rfl⟩
    exact ⟨(action, observation), Brackets.mem_pairs_iff.mpr hpair, rfl⟩

/-- The two events of a pair. -/
lemma DelegatePair.mem {action observation : Event} (h : DelegatePair events action observation) :
    action ∈ events ∧ observation ∈ events := by
  obtain ⟨before, inner, after, rfl, -⟩ := h
  exact ⟨by simp, by simp⟩

section Sorted

variable (hsorted : events.Pairwise fun e e' => e.id < e'.id)

include hsorted

/-- The observation comes behind its action. -/
lemma DelegatePair.lt {action observation : Event} (h : DelegatePair events action observation) :
    action.id < observation.id :=
  Brackets.key_lt_of_mem_pairs Event.id hsorted (by simp) h.mem_pairs

/-- A range ends behind its start. -/
lemma lt_of_mem_delegateRanges {range : ℤ × ℤ} (h : range ∈ delegateRanges events []) :
    range.1 < range.2 := by
  obtain ⟨action, observation, hpair, rfl⟩ := mem_delegateRanges_iff.1 h
  exact hpair.lt hsorted

/-- A range that is found later ends later, and is apart from an earlier one or has it inside. -/
lemma pairwise_delegateRanges :
    (delegateRanges events []).Pairwise fun p q => p.2 < q.2 ∧ (p.2 < q.1 ∨ q.1 < p.1) := by
  have hmap := delegateRanges_eq_map events []
  rw [List.map_nil] at hmap
  rw [hmap, List.pairwise_map]
  exact Brackets.pairwise_pairs Event.id hsorted .nil (by simp)

/-- **Without a pair inside another one** the ranges are apart, in the order in which they are
found. -/
lemma Flat.pairwise (h : Flat events) :
    (delegateRanges events []).Pairwise fun p q => p.2 < q.1 := by
  refine (pairwise_delegateRanges hsorted).imp_of_mem fun {p q} hp hq hlt => ?_
  obtain ⟨action, observation, hpair, rfl⟩ := mem_delegateRanges_iff.1 hp
  obtain ⟨action', observation', hpair', rfl⟩ := mem_delegateRanges_iff.1 hq
  exact hlt.2.resolve_right fun hinside => h _ _ _ _ hpair' hpair ⟨hinside, hlt.1⟩

/-- Ranges that are apart need no sorting. -/
lemma Flat.insertionSort_eq (h : Flat events) :
    (delegateRanges events []).insertionSort RangeLe = delegateRanges events [] :=
  List.Pairwise.insertionSort_eq <| (h.pairwise hsorted).imp_of_mem fun hp _ hlt =>
    .inl ((lt_of_mem_delegateRanges hsorted hp).trans hlt)

/-! ## Cutting the ranges out -/

/-- **Ranges that are apart are cut out**, by induction on the ranges: the index stands behind the
events up to `low`. -/
theorem spliceRanges_eq_filter {ranges : List (ℤ × ℤ)}
    (hapart : ranges.Pairwise fun p q => p.2 < q.1) (hlt : ∀ p ∈ ranges, p.1 < p.2) {idx : ℕ}
    {low : ℤ} (hidx : events.drop idx = events.filter fun e => decide (low < e.id))
    (hlow : ∀ p ∈ ranges, low < p.1) :
    spliceRanges events idx ranges =
      events.filter fun e => decide (low < e.id ∧ ∀ p ∈ ranges, ¬ (p.1 < e.id ∧ e.id < p.2)) := by
  induction ranges generalizing idx low with
  | nil => simpa [spliceRanges] using hidx
  | cons range ranges ih =>
    obtain ⟨startId, endId⟩ := range
    obtain ⟨hfirst, hapart⟩ := List.pairwise_cons.mp hapart
    obtain ⟨hrange, hlt⟩ := List.forall_mem_cons.mp hlt
    obtain ⟨hlowStart, -⟩ := List.forall_mem_cons.mp hlow
    have hrest := ih hapart hlt (Slices.drop_findIdx hsorted endId) hfirst
    have hbefore : (events.drop idx).filter (fun e => decide (e.id < startId)) ++
        events.filter (fun e => decide (e.id = startId ∨ e.id = endId)) =
          events.filter fun e => decide (low < e.id ∧ e.id < startId) ||
            decide (e.id = startId ∨ e.id = endId) := by
      rw [hidx, List.filter_filter]
      refine Slices.filter_append_filter hsorted (fun e _ => ?_) fun e _ e' _ h h' => ?_
      · rw [Bool.decide_and, Bool.and_comm]
      · simp only [Bool.and_eq_true, decide_eq_true_eq] at h h'
        omega
    rw [spliceRanges, hbefore, hrest]
    refine Slices.filter_append_filter hsorted (fun e _ => ?_) fun e _ e' _ h h' => ?_
    · -- Up to the end of the range no later range counts.
      rw [← Bool.decide_or, ← Bool.decide_or, decide_eq_decide, List.forall_mem_cons]
      constructor
      · rintro ⟨hlow, hout, hrest⟩
        by_cases hend : endId < e.id
        · exact .inr ⟨hend, hrest⟩
        · exact .inl (by omega)
      · rintro (hin | ⟨hend, hrest⟩)
        · refine ⟨by omega, by omega, fun p hp hinside => ?_⟩
          have := hfirst p hp
          omega
        · exact ⟨by omega, by omega, hrest⟩
    · simp only [Bool.or_eq_true, decide_eq_true_eq] at h h'
      omega

end Sorted

/-- The two events of a range are in the result. -/
lemma mem_spliceRanges {ranges : List (ℤ × ℤ)} {range : ℤ × ℤ} (hrange : range ∈ ranges)
    {event : Event} (hevent : event ∈ events) (hid : event.id = range.1) (idx : ℕ) :
    event ∈ spliceRanges events idx ranges := by
  induction ranges generalizing idx with
  | nil => cases hrange
  | cons first ranges ih =>
    rw [spliceRanges, List.mem_append, List.mem_append]
    rcases List.mem_cons.mp hrange with rfl | hrange
    · exact .inl (.inr (List.mem_filter.mpr ⟨hevent, decide_eq_true (.inl hid)⟩))
    · exact .inr (ih hrange _)

/-- Every pair is in an outermost one. -/
lemma exists_outermost (hnonneg : ∀ e ∈ events, 0 ≤ e.id) {action observation : Event}
    (h : DelegatePair events action observation) : ∃ action' observation',
      Outermost events action' observation' ∧ action'.id ≤ action.id ∧
        observation.id ≤ observation'.id := by
  -- By induction on the id of the action: a pair around it starts earlier.
  obtain ⟨n, hn⟩ : ∃ n : ℕ, action.id.toNat = n := ⟨_, rfl⟩
  induction n using Nat.strong_induction_on generalizing action observation with
  | _ n ih =>
    by_cases hout : Outermost events action observation
    · exact ⟨action, observation, hout, le_rfl, le_rfl⟩
    · obtain ⟨action', observation', hpair, hinside⟩ : ∃ action' observation',
          DelegatePair events action' observation' ∧
            (action'.id < action.id ∧ observation.id < observation'.id) := by
        by_contra hnone
        push Not at hnone
        exact hout ⟨h, fun action' observation' hpair hinside =>
          absurd hinside.2 (not_lt.mpr (hnone action' observation' hpair hinside.1))⟩
      have hzero := hnonneg _ hpair.mem.1
      obtain ⟨action'', observation'', hout, hstart, hend⟩ := ih _ (by omega) hpair rfl
      exact ⟨action'', observation'', hout, by omega, by omega⟩

end Ranges

/-! ## What the function leaves -/

section Result

variable (stream : EventStream) (state : State)

/-- A range that ends before its start has no events. -/
lemma rangeEvents_eq_nil (h : state.rangeEnd stream + 1 < state.rangeStart) :
    rangeEvents stream state = [] := by
  refine List.filter_eq_nil_iff.mpr fun e _ => ?_
  simp only [Bool.and_eq_true, decide_eq_true_eq]
  omega

/-- The history is what the loop over the sorted ranges makes of the events. -/
lemma initHistory_history : (initHistory stream state).history =
    spliceRanges (rangeEvents stream state) 0
      ((delegateRanges (rangeEvents stream state) []).insertionSort RangeLe) := by
  rw [initHistory]
  simp only
  split_ifs with hempty
  · rw [rangeEvents_eq_nil stream state hempty]
    rfl
  · rw [← rangeEvents]
    split
    · rename_i hranges
      rw [hranges]
      rfl
    · rename_i hranges
      rw [hranges]

/-- The start that is written back is that of the last range. -/
lemma initHistory_startId : (initHistory stream state).startId =
    (((delegateRanges (rangeEvents stream state) []).insertionSort RangeLe).getLast?.map
      Prod.fst).getD (max state.startId 0) := by
  rw [initHistory]
  simp only
  split_ifs with hempty
  · rw [rangeEvents_eq_nil stream state hempty]
    have hcur := stream.curId_nonneg
    have hstart : 0 ≤ state.startId := by
      rw [State.rangeStart, State.rangeEnd, EventStream.getLatestEventId] at hempty
      split_ifs at hempty <;> omega
    exact (max_eq_left hstart).symm
  · rw [← rangeEvents]
    split
    · rename_i hranges
      rw [hranges]
      exact rangeStart_eq_max state
    · rename_i hranges
      rw [hranges, List.getLast?_eq_some_getLast (List.cons_ne_nil _ _)]
      rfl

lemma initHistory_endId : (initHistory stream state).endId = state.endId := by
  rw [initHistory]
  simp only
  split_ifs
  · rfl
  · split <;> rfl

/-- **The history is right if and only if no delegate pair is inside another one.** -/
theorem restored_initHistory_iff :
    Restored (rangeEvents stream state) (initHistory stream state).history ↔
      Flat (rangeEvents stream state) := by
  have hsorted := sorted_rangeEvents stream state
  have hnonneg : ∀ e ∈ rangeEvents stream state, 0 ≤ e.id := fun e he =>
    (stream.bounds e (List.mem_of_mem_filter he)).1
  rw [initHistory_history]
  set events := rangeEvents stream state
  constructor
  · intro h action observation action' observation' hpair hpair' hinside
    obtain ⟨first, last, hout, hstart, hend⟩ := exists_outermost hnonneg hpair
    have hrange := mem_delegateRanges_iff.mpr ⟨action', observation', hpair', rfl⟩
    have hmem := mem_spliceRanges ((List.mem_insertionSort RangeLe).mpr hrange) hpair'.mem.1 rfl 0
    have hlt := hpair'.lt hsorted
    exact ((h.mem_iff action').mp hmem).2 ⟨first, last, hout, by omega, by omega⟩
  · intro h
    have hidx : events.drop 0 = events.filter fun e => decide ((-1 : ℤ) < e.id) := by
      refine (List.filter_eq_self.mpr fun e he => ?_).symm
      have := hnonneg e he
      exact decide_eq_true (by omega)
    have hlow : ∀ p ∈ delegateRanges events [], (-1 : ℤ) < p.1 := by
      intro p hp
      obtain ⟨action, observation, hpair, rfl⟩ := mem_delegateRanges_iff.mp hp
      have := hnonneg _ hpair.mem.1
      exact by omega
    rw [h.insertionSort_eq hsorted, spliceRanges_eq_filter hsorted (h.pairwise hsorted)
      (fun p hp => lt_of_mem_delegateRanges hsorted hp) hidx hlow]
    refine ⟨fun event => ?_, hsorted.filter _⟩
    rw [List.mem_filter, decide_eq_true_eq]
    refine and_congr_right fun hevent => ?_
    have hzero := hnonneg event hevent
    constructor
    · rintro ⟨-, hkept⟩ ⟨action, observation, hout, hinside⟩
      exact hkept _ (mem_delegateRanges_iff.mpr ⟨action, observation, hout.1, rfl⟩) hinside
    · intro hnot
      refine ⟨by omega, fun p hp hinside => ?_⟩
      obtain ⟨action, observation, hpair, rfl⟩ := mem_delegateRanges_iff.mp hp
      exact hnot ⟨action, observation, ⟨hpair, fun _ _ hpair' => h _ _ _ _ hpair' hpair⟩, hinside⟩

/-- The start that is left is that of all ranges if and only if all start with the range. -/
lemma startId_eq_iff : (initHistory stream state).startId = max state.startId 0 ↔
    ∀ action observation, DelegatePair (rangeEvents stream state) action observation →
      action.id = max state.startId 0 := by
  rw [initHistory_startId]
  set events := rangeEvents stream state with hevents
  set ranges := (delegateRanges events []).insertionSort RangeLe with hranges
  have hmem : ∀ {range}, range ∈ ranges ↔ ∃ action observation,
      DelegatePair events action observation ∧ range = (action.id, observation.id) := by
    intro range
    rw [hranges, List.mem_insertionSort, mem_delegateRanges_iff]
  have hordered : ranges.Pairwise RangeLe := List.pairwise_insertionSort RangeLe _
  constructor
  · intro hlast action observation hpair
    have hrange := hmem.mpr ⟨action, observation, hpair, rfl⟩
    have hne := List.ne_nil_of_mem hrange
    rw [List.getLast?_eq_some_getLast hne, Option.map_some, Option.getD_some] at hlast
    -- The last range starts last, and no range starts before the first event.
    have hle := hordered.rel_getLast hrange
    have hbound := (bounds_of_mem_rangeEvents hpair.mem.1).1
    rw [RangeLe, hlast] at hle
    simp only at hle
    omega
  · intro hall
    cases hlast : ranges.getLast? with
    | none => rfl
    | some last =>
      obtain ⟨action, observation, hpair, rfl⟩ := hmem.mp (List.mem_of_getLast? hlast)
      exact hall action observation hpair

/-- **A second run changes nothing if and only if all delegate pairs start with the range.** -/
theorem repeatable_initHistory_iff : Repeatable stream state ↔
    ∀ action observation, DelegatePair (rangeEvents stream state) action observation →
      action.id = max state.startId 0 := by
  rw [← startId_eq_iff]
  refine ⟨And.left, fun hstart => ⟨hstart, ?_⟩⟩
  -- The second run has the same range.
  have hmax : max (initHistory stream state).startId 0 = max state.startId 0 := by
    rw [hstart, max_assoc, max_self]
  have hevents : rangeEvents stream (initHistory stream state) = rangeEvents stream state := by
    rw [rangeEvents, rangeEvents, rangeStart_eq_max, rangeStart_eq_max, hmax, State.rangeEnd,
      initHistory_endId, ← State.rangeEnd]
  constructor
  · rw [initHistory_history, initHistory_history, hevents]
  · rw [initHistory_startId, hevents, hmax, ← initHistory_startId]

end Result

/-! ## Closing -/

/-- The history that `close` leaves: all events of the range that pass the filter, those between
delegate actions and observations included. -/
def close (stream : EventStream) (state : State) : State :=
  { state with history := rangeEvents stream state }

/-- **Closing loses the events before the last delegate pair** of a restored history. -/
theorem close_initHistory (stream : EventStream) (state : State) :
    (close stream (initHistory stream state)).history =
      (rangeEvents stream state).filter fun e =>
        decide ((initHistory stream state).startId ≤ e.id) := by
  have hstart : max state.startId 0 ≤ (initHistory stream state).startId := by
    rw [initHistory_startId]
    cases hlast : ((delegateRanges (rangeEvents stream state) []).insertionSort RangeLe).getLast? with
    | none => exact le_rfl
    | some last =>
      obtain ⟨action, observation, hpair, rfl⟩ := mem_delegateRanges_iff.mp
        ((List.mem_insertionSort RangeLe).mp (List.mem_of_getLast? hlast))
      exact (bounds_of_mem_rangeEvents hpair.mem.1).1
  have hmax : max (initHistory stream state).startId 0 = (initHistory stream state).startId :=
    max_eq_left ((le_max_right _ _).trans hstart)
  rw [close, rangeEvents, rangeEvents, EventStream.searchEvents, EventStream.searchEvents,
    List.filter_filter, rangeStart_eq_max, rangeStart_eq_max, hmax, State.rangeEnd,
    initHistory_endId, ← State.rangeEnd]
  refine List.filter_congr fun e _ => ?_
  rw [← Bool.and_assoc, ← Bool.decide_and]
  congr 1
  rw [decide_eq_decide]
  omega

/-! ## Two streams -/

/-- An event of a type. -/
def eventOf (id : ℤ) (type : EventType) : Event := ⟨id, type, false⟩

/-- A message before and behind a delegate that has a delegate. -/
def nestedEvents : List Event :=
  [eventOf 0 (.other "message"), eventOf 1 .delegateAction, eventOf 2 .delegateAction,
    eventOf 3 (.other "run"), eventOf 4 .delegateObservation, eventOf 5 .delegateObservation,
    eventOf 6 (.other "message")]

/-- The stream of these events. -/
def nestedStream : EventStream where
  events := nestedEvents
  curId := 7
  sorted := by decide
  curId_nonneg := by decide
  bounds := by decide

/-- A fresh state. -/
def freshState : State := ⟨-1, -1, []⟩

/-- **A delegate inside another one comes back twice**: its two events stand behind the outer pair,
and the events behind it once more. -/
theorem not_restored_nested :
    (initHistory nestedStream freshState).history.map Event.id = [0, 1, 5, 2, 4, 5, 6] ∧
      ¬ Restored (rangeEvents nestedStream freshState)
        (initHistory nestedStream freshState).history := by
  have hids : (initHistory nestedStream freshState).history.map Event.id = [0, 1, 5, 2, 4, 5, 6] := by
    decide
  refine ⟨hids, fun h => ?_⟩
  have hsorted := List.pairwise_map.mpr h.sorted
  rw [hids] at hsorted
  exact absurd hsorted (by decide)

/-- A delegate between two messages. -/
def delegateStream : EventStream where
  events := [eventOf 0 (.other "message"), eventOf 1 .delegateAction, eventOf 2 (.other "run"),
    eventOf 3 .delegateObservation, eventOf 4 (.other "message")]
  curId := 5
  sorted := by decide
  curId_nonneg := by decide
  bounds := by decide

/-- **The second run starts at the delegate**: the event before it is lost. -/
theorem not_repeatable_delegate :
    (initHistory delegateStream freshState).startId = 1 ∧
    (initHistory delegateStream freshState).history.map Event.id = [0, 1, 3, 4] ∧
    (initHistory delegateStream (initHistory delegateStream freshState)).history.map Event.id =
      [1, 3, 4] ∧ ¬ Repeatable delegateStream freshState := by
  refine ⟨by decide, by decide, by decide, fun h => ?_⟩
  exact absurd h.1 (by decide)

end ProRLAgent.History
