import Mathlib.Data.List.Infix
import Mathlib.Data.Int.Order.Basic
import ProRLAgent.Basic
import ProRLAgent.Lib.Slices

set_option relaxedAutoImplicit false
set_option autoImplicit false

/-!
# Views of a history

A view (`openhands/memory/view.py`) is the list of events that is shown to the model. It is computed
from the whole history: the events that some condensation action forgets are left out, and the
summary of the last condensation action with one is inserted at its offset.

The events carry what the modelled functions read: the id (-1 if none is set), the source, the
cause and the fields that tell the types of events apart.

## Main definitions

* `ProRLAgent.Memory.Event` — the events of a history.
* `ProRLAgent.Memory.CondensationAction` — what a condensation forgets, with its summary.
* `ProRLAgent.Memory.fromEvents` — the view of a history.

## Main results

* `ProRLAgent.Memory.fromEvents_concat` — an event that is neither forgotten nor a condensation
  comes last in the view.
* `ProRLAgent.Memory.keptEvents_condense` — forgetting the ids of a middle part of the kept events
  leaves the rest, and the action.
-/

namespace ProRLAgent.Memory

/-! ## Events -/

/-- The source of an event. -/
inductive EventSource where
  | agent
  | user
  | environment
  deriving DecidableEq, Repr

/-- The ids that a condensation forgets: a list, or all ids from the start to the end of a range.
The checks of the class leave no other configuration. -/
inductive ForgottenIds where
  | ids (eventIds : List ℤ)
  | range (startId endId : ℤ)
  deriving DecidableEq, Repr

/-- A condensation action. The summary is set together with its offset. -/
structure CondensationAction where
  forgottenIds : ForgottenIds
  summary : Option (String × ℤ)
  deriving DecidableEq, Repr

/-- The types of events that the modelled functions tell apart. -/
inductive EventType where
  | systemMessage (content : String)
  | message (content : String)
  | recall (query : String)
  | condensation (action : CondensationAction)
  | otherAction (name : String)
  | condensationObservation (content : String)
  | otherObservation (name : String)
  deriving DecidableEq, Repr

/-- An event of a history. -/
structure Event where
  id : ℤ
  source : Option EventSource
  cause : Option ℤ
  type : EventType
  deriving DecidableEq, Repr

/-- The event is an observation. -/
def Event.isObservation (event : Event) : Bool :=
  match event.type with
  | .condensationObservation _ => true
  | .otherObservation _ => true
  | _ => false

/-- The event is an `AgentCondensationObservation`. -/
def Event.isCondensationObservation (event : Event) : Bool :=
  match event.type with
  | .condensationObservation _ => true
  | _ => false

/-- The event is a `SystemMessageAction`. -/
def Event.isSystemMessage (event : Event) : Bool :=
  match event.type with
  | .systemMessage _ => true
  | _ => false

/-- The event is a `MessageAction` of the user. -/
def Event.isUserMessage (event : Event) : Bool :=
  match event.type with
  | .message _ => event.source = some .user
  | _ => false

/-- The condensation action of an event. -/
def Event.condensation? (event : Event) : Option CondensationAction :=
  match event.type with
  | .condensation action => some action
  | _ => none

/-- The property `forgotten` of a condensation action. -/
def CondensationAction.forgotten (action : CondensationAction) : List ℤ :=
  match action.forgottenIds with
  | .ids eventIds => eventIds
  | .range startId endId =>
    (List.range (endId + 1 - startId).toNat).map fun i : ℕ => startId + i

/-- The ids of a range. -/
lemma mem_forgotten_range {startId endId id : ℤ} {summary : Option (String × ℤ)} :
    id ∈ CondensationAction.forgotten ⟨.range startId endId, summary⟩ ↔
      startId ≤ id ∧ id ≤ endId := by
  simp only [CondensationAction.forgotten, List.mem_map, List.mem_range]
  constructor
  · rintro ⟨i, hi, rfl⟩
    omega
  · rintro ⟨hstart, hend⟩
    exact ⟨(id - startId).toNat, by omega, by omega⟩

/-! ## The view -/

/-- The ids that the condensations of a history forget. -/
def forgottenEventIds (events : List Event) : List ℤ :=
  events.flatMap fun event => (event.condensation?.map CondensationAction.forgotten).getD []

/-- The events that no condensation forgets. -/
def keptEvents (events : List Event) : List Event :=
  events.filter fun event => event.id ∉ forgottenEventIds events

/-- The summary of the last condensation that has one, with its offset. -/
def lastSummary (events : List Event) : Option (String × ℤ) :=
  events.reverse.findSome? fun event => event.condensation?.bind CondensationAction.summary

/-- The observation that stands for a summary in a view. -/
def summaryEvent (summary : String) : Event := ⟨-1, none, none, .condensationObservation summary⟩

/-- The function `View.from_events`. -/
def fromEvents (events : List Event) : List Event :=
  match lastSummary events with
  | some (summary, offset) => Slices.insertAt (keptEvents events) offset (summaryEvent summary)
  | none => keptEvents events

/-! ## One more event -/

variable {events : List Event} {event : Event}

lemma forgottenEventIds_concat : forgottenEventIds (events ++ [event]) = forgottenEventIds events ++
    (event.condensation?.map CondensationAction.forgotten).getD [] := by
  simp [forgottenEventIds]

lemma lastSummary_concat : lastSummary (events ++ [event]) =
    (event.condensation?.bind CondensationAction.summary).or (lastSummary events) := by
  rw [lastSummary, List.reverse_concat, List.findSome?_cons, lastSummary]
  cases event.condensation?.bind CondensationAction.summary <;> rfl

/-- The ids that the condensations of a history forget are not above all of its ids. -/
def ForgetsPast (events : List Event) : Prop :=
  ∀ id ∈ forgottenEventIds events, ∃ e ∈ events, id ≤ e.id

/-- A new id is not forgotten. -/
lemma ForgetsPast.notMem (h : ForgetsPast events) {id : ℤ} (hid : ∀ e ∈ events, e.id < id) :
    id ∉ forgottenEventIds events := by
  intro hmem
  obtain ⟨e, he, hle⟩ := h id hmem
  have := hid e he
  omega

/-- The kept events after an event that is not a condensation. -/
lemma keptEvents_concat (h : ForgetsPast events) (hid : ∀ e ∈ events, e.id < event.id)
    (hevent : event.condensation? = none) :
    keptEvents (events ++ [event]) = keptEvents events ++ [event] := by
  have hforgotten : forgottenEventIds (events ++ [event]) = forgottenEventIds events := by
    simp [forgottenEventIds_concat, hevent]
  rw [keptEvents, hforgotten, List.filter_append, keptEvents,
    List.filter_cons_of_pos (by simpa using h.notMem hid), List.filter_nil]

/-- The kept events after a condensation: those that it does not forget, and its action. -/
lemma keptEvents_concat_condensation (h : ForgetsPast events) (hid : ∀ e ∈ events, e.id < event.id)
    {action : CondensationAction} (hevent : event.condensation? = some action)
    (hself : event.id ∉ action.forgotten) :
    keptEvents (events ++ [event]) =
      (keptEvents events).filter (fun e => e.id ∉ action.forgotten) ++ [event] := by
  have hforgotten : forgottenEventIds (events ++ [event]) =
      forgottenEventIds events ++ action.forgotten := by
    simp [forgottenEventIds_concat, hevent]
  rw [keptEvents, hforgotten, List.filter_append, keptEvents, List.filter_filter,
    List.filter_cons_of_pos (by simpa using ⟨h.notMem hid, hself⟩), List.filter_nil]
  congr 1
  refine List.filter_congr fun e _ => ?_
  simp [not_or, Bool.and_comm]

/-- **Forgetting a middle part** of the kept events, by the range of its ids, leaves the rest and
the action. -/
theorem keptEvents_condense (h : ForgetsPast events) (hid : ∀ e ∈ events, e.id < event.id)
    (hsorted : events.Pairwise fun a b => a.id < b.id) {startId endId : ℤ}
    {summary : Option (String × ℤ)}
    (hevent : event.condensation? = some ⟨.range startId endId, summary⟩) {a m b : List Event}
    (hkept : keptEvents events = a ++ m ++ b) (hstart : ∃ e ∈ m, e.id = startId)
    (hend : ∃ e ∈ m, e.id = endId) (hm : ∀ e ∈ m, startId ≤ e.id ∧ e.id ≤ endId) :
    keptEvents (events ++ [event]) = a ++ b ++ [event] := by
  have hself : event.id ∉ CondensationAction.forgotten ⟨.range startId endId, summary⟩ := by
    obtain ⟨e, he, rfl⟩ := hend
    have hmem : e ∈ keptEvents events := by simp [hkept, he]
    have hlt := hid e (List.mem_of_mem_filter hmem)
    rw [mem_forgotten_range]
    omega
  have hpairwise : (a ++ m ++ b).Pairwise fun x y => x.id < y.id := by
    rw [← hkept]
    exact hsorted.filter _
  rw [keptEvents_concat_condensation h hid hevent hself, hkept]
  congr 1
  rw [← Slices.filter_outside hpairwise hstart hend hm]
  exact List.filter_congr fun e _ => by simp only [mem_forgotten_range]

/-- The view ends with an event that is neither forgotten nor a condensation, if the summary stands
inside of the list. -/
lemma fromEvents_concat (h : ForgetsPast events) (hid : ∀ e ∈ events, e.id < event.id)
    (hevent : event.condensation? = none)
    (hoffset : ∀ summary offset, lastSummary events = some (summary, offset) →
      0 ≤ offset ∧ offset ≤ (keptEvents events).length) :
    fromEvents (events ++ [event]) = fromEvents events ++ [event] := by
  have hsummary : lastSummary (events ++ [event]) = lastSummary events := by
    rw [lastSummary_concat, hevent]
    rfl
  rw [fromEvents, fromEvents, hsummary, keptEvents_concat h hid hevent]
  cases hlast : lastSummary events with
  | none => rfl
  | some last =>
    obtain ⟨summary, offset⟩ := last
    obtain ⟨hnonneg, hle⟩ := hoffset summary offset hlast
    obtain ⟨k, rfl⟩ := Int.eq_ofNat_of_zero_le hnonneg
    have hk : k ≤ (keptEvents events).length := by omega
    simp only
    rw [Slices.insertAt_natCast _ (by simp; omega), Slices.insertAt_natCast _ hk,
      List.take_append_of_le_length hk, List.drop_append_of_le_length hk, List.append_assoc,
      List.cons_append]

/-- Forgetting stays in the past. -/
lemma ForgetsPast.concat (h : ForgetsPast events)
    (hevent : ∀ action, event.condensation? = some action →
      ∀ id ∈ action.forgotten, ∃ e ∈ events, id ≤ e.id) :
    ForgetsPast (events ++ [event]) := by
  intro id hmem
  rw [forgottenEventIds_concat, List.mem_append] at hmem
  obtain ⟨e, he, hle⟩ : ∃ e ∈ events, id ≤ e.id := by
    rcases hmem with hmem | hmem
    · exact h id hmem
    · cases haction : event.condensation? with
      | none => simp [haction] at hmem
      | some action => exact hevent action haction id (by simpa [haction] using hmem)
  exact ⟨e, List.mem_append_left _ he, hle⟩

end ProRLAgent.Memory
