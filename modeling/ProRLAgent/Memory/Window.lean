import Mathlib.Data.List.Nodup
import Mathlib.Data.List.TakeWhile
import Mathlib.Data.List.Perm.Subperm
import ProRLAgent.Lib.Except
import ProRLAgent.Memory.View

set_option relaxedAutoImplicit false
set_option autoImplicit false

/-!
# The window after a context error

When the prompt is too long, `_handle_long_context_error` of the controller
(`openhands/controller/agent_controller.py`) keeps the essential events at the start of the history
and its newest half, and forgets the range of the other ids.

The half is taken of the whole history: events that are already forgotten and the condensation
actions of earlier calls count. So a call may forget nothing new. It makes progress exactly if some
event that is still in the view stands in the range, which is between two events that are neither
essential nor in the kept half.

## Main definitions

* `ProRLAgent.Memory.applyConversationWindow`, `ProRLAgent.Memory.handleLongContextError` — the
  window and the condensation of a call.
* `ProRLAgent.Memory.viewSize` — the number of events in the view that are not condensations.
* `ProRLAgent.Memory.Done` — only essential events and at most one more are left.
* `ProRLAgent.Memory.Droppable` — an event of the view stands in the range.
* `ProRLAgent.Memory.Calls` — the histories of repeated calls.

## Main results

* `ProRLAgent.Memory.progress_iff` — which calls make progress.
-/

namespace ProRLAgent.Memory

/-! ## The window -/

/-- The recall action for a message in the events behind it, with the observation it causes. -/
def recallPair (content : String) (rest : List Event) : List Event :=
  match rest.dropWhile fun event => decide (event.type ≠ .recall content) with
  | [] => []
  | recallAction :: after =>
    recallAction ::
      (after.find? fun event =>
        event.isObservation && event.cause = some recallAction.id).toList

/-- The text of a message. -/
def Event.content (event : Event) : String :=
  match event.type with
  | .message content => content
  | _ => ""

/-- The essential events: the system message, the first user message of the history or else of the
stream, and its recall pair. -/
def essentialEvents (firstUserMessage : Event) (history : List Event) : List Event :=
  (history.find? Event.isSystemMessage).toList ++
    match history.dropWhile fun event => !event.isUserMessage with
    | message :: rest => message :: recallPair message.content rest
    | [] => [firstUserMessage]

/-- The index where the recent events start. -/
def sliceStartIndex (firstUserMessage : Event) (history : List Event) : ℕ :=
  let numNonEssentialEvents := history.length - (essentialEvents firstUserMessage history).length
  let numRecentToKeep := max 1 (numNonEssentialEvents / 2)
  history.length - numRecentToKeep

/-- The recent events, without observations at their start. -/
def validatedRecentEvents (firstUserMessage : Event) (history : List Event) : List Event :=
  (history.drop (sliceStartIndex firstUserMessage history)).dropWhile Event.isObservation

/-- The function `_apply_conversation_window`, with the first user message of the stream. -/
def applyConversationWindow (firstUserMessage : Option Event) (history : List Event) :
    Except PyError (List Event) :=
  match history with
  | [] => .ok []
  | first :: _ => do
    if (history.find? Event.isSystemMessage).any fun event => event.id ≠ first.id then
      throw .assertionError
    match firstUserMessage with
    | none => throw (.runtimeError "No first user message found in the event stream.")
    | some message =>
      return essentialEvents message history ++ validatedRecentEvents message history

/-- The condensation that `_handle_long_context_error` adds to the stream. -/
def handleLongContextError (firstUserMessage : Option Event) (history : List Event) :
    Except PyError CondensationAction := do
  let keptEvents ← applyConversationWindow firstUserMessage history
  let keptEventIds := keptEvents.map Event.id
  let forgottenEventIds := (history.map Event.id).filter fun id => decide (id ∉ keptEventIds)
  return ⟨.range (forgottenEventIds.min?.getD 0) (forgottenEventIds.max?.getD 0), none⟩

/-! ## Progress -/

/-- The event is part of a condensation. -/
def Event.isCondensation (event : Event) : Bool :=
  event.condensation?.isSome || event.isCondensationObservation

/-- The number of events in the view that are not condensations. -/
def viewSize (history : List Event) : ℕ :=
  (fromEvents history).countP fun event => !event.isCondensation

variable (message : Event) (history : List Event)

/-- **Only the essential events and at most one more** are left in the view. -/
def Done : Prop :=
  (fromEvents history).countP (fun event => !event.isCondensation &&
    decide (event ∉ essentialEvents message history)) ≤ 1

/-- The event at a position is neither essential nor in the kept half: all events from the start of
the half up to it are observations, if there are any. -/
def Dropped (event : Event) : Prop :=
  event ∉ essentialEvents message history ∧ ∃ p, history[p]? = some event ∧
    ∀ q ≤ p, sliceStartIndex message history ≤ q →
      ∀ other, history[q]? = some other → other.isObservation = true

/-- **Some event can still be dropped**: an event of the view that is not a condensation stands
between two dropped ones. -/
def Droppable : Prop :=
  ∃ event ∈ fromEvents history, event.isCondensation = false ∧
    ∃ a b, Dropped message history a ∧ Dropped message history b ∧ a.id ≤ event.id ∧
      event.id ≤ b.id

variable {message history}

/-- **Runs of repeated calls**: each call appends its condensation with a new id. The last argument
lists the histories before and after each call. -/
inductive Calls (firstUserMessage : Option Event) (start : List Event) :
    List Event → List (List Event × List Event) → Prop
  | start : Calls firstUserMessage start start []
  | call {history : List Event} {calls : List (List Event × List Event)}
      (h : Calls firstUserMessage start history calls) {action : CondensationAction}
      (haction : handleLongContextError firstUserMessage history = .ok action) {event : Event}
      (hevent : event.condensation? = some action) (hid : ∀ e ∈ history, e.id < event.id) :
      Calls firstUserMessage start (history ++ [event]) (calls ++ [(history, history ++ [event])])

/-- The histories of the controller: increasing ids, a user message, and a system message only at
the start. -/
structure Admitted (history : List Event) : Prop where
  sorted : history.Pairwise fun a b => a.id < b.id
  user : ∃ event ∈ history, event.isUserMessage = true
  system : ∀ event, history.find? Event.isSystemMessage = some event →
    history.head? = some event

/-! ## The view after a condensation -/

/-- A property that no summary has is not affected by the summary of a view. -/
lemma filter_fromEvents {p : Event → Bool} (hp : ∀ summary, p (summaryEvent summary) = false) :
    (fromEvents history).filter p = (keptEvents history).filter p := by
  rw [fromEvents]
  cases lastSummary history with
  | none => rfl
  | some last => exact Slices.filter_insertAt _ _ (hp last.1)

/-- The events of the view that are not condensations are kept events. -/
lemma mem_fromEvents {event : Event} (h : event.isCondensation = false) :
    event ∈ fromEvents history ↔ event ∈ keptEvents history := by
  have hfilter : (fromEvents history).filter (fun event => !event.isCondensation) =
      (keptEvents history).filter (fun event => !event.isCondensation) :=
    filter_fromEvents fun _ => rfl
  have hmem := congrArg (event ∈ ·) hfilter
  simpa [List.mem_filter, h] using hmem

/-- The size of the view counts kept events. -/
lemma viewSize_eq :
    viewSize history = ((keptEvents history).filter fun event => !event.isCondensation).length := by
  rw [viewSize, List.countP_eq_length_filter, filter_fromEvents fun _ => rfl]

/-- The size of the view after a condensation. -/
lemma viewSize_concat {event : Event} {action : CondensationAction}
    (hevent : event.condensation? = some action) :
    viewSize (history ++ [event]) =
      ((keptEvents history).filter fun e => !e.isCondensation).countP
        fun e => decide (e.id ∉ action.forgotten) := by
  have hforgotten : forgottenEventIds (history ++ [event]) =
      forgottenEventIds history ++ action.forgotten := by
    simp [forgottenEventIds_concat, hevent]
  have hself : event.isCondensation = true := by simp [Event.isCondensation, hevent]
  rw [viewSize_eq, List.countP_eq_length_filter, keptEvents, keptEvents, hforgotten,
    List.filter_filter, List.filter_append, List.filter_cons_of_neg (by simp [hself]),
    List.filter_nil, List.append_nil, List.filter_filter, List.filter_filter]
  refine congrArg List.length (List.filter_congr fun e _ => ?_)
  simp only [List.mem_append, not_or, Bool.decide_and, decide_not]
  cases decide (e.id ∈ action.forgotten) <;> cases e.isCondensation <;> simp

/-- **A condensation makes the view smaller** exactly if it forgets an event of the view that is not
a condensation. -/
lemma viewSize_concat_lt_iff {event : Event} {action : CondensationAction}
    (hevent : event.condensation? = some action) :
    viewSize (history ++ [event]) < viewSize history ↔
      ∃ e ∈ fromEvents history, e.isCondensation = false ∧ e.id ∈ action.forgotten := by
  rw [viewSize_concat hevent, viewSize_eq, lt_iff_le_and_ne, and_iff_right List.countP_le_length,
    ne_eq, List.countP_eq_length]
  simp only [List.mem_filter, Bool.not_eq_true', decide_eq_true_eq, not_forall, not_not,
    exists_prop, and_assoc]
  refine exists_congr fun e => ?_
  constructor
  · rintro ⟨hmem, htype, hid⟩
    exact ⟨(mem_fromEvents htype).mpr hmem, htype, hid⟩
  · rintro ⟨hmem, htype, hid⟩
    exact ⟨(mem_fromEvents htype).mp hmem, htype, hid⟩

/-! ## What a call forgets -/

namespace Admitted

/-- The ids tell the events apart. -/
lemma eq_of_id_eq (h : Admitted history) {a b : Event} (ha : a ∈ history) (hb : b ∈ history)
    (hid : a.id = b.id) : a = b := by
  have hnodup : (history.map Event.id).Nodup :=
    List.pairwise_map.mpr (h.sorted.imp fun hlt => hlt.ne)
  exact List.inj_on_of_nodup_map hnodup ha hb hid

/-- The first user message of the history, with the events behind it. -/
lemma exists_message (h : Admitted history) : ∃ before first rest,
    history = before ++ first :: rest ∧ first.isUserMessage = true ∧
      (history.dropWhile fun event => !event.isUserMessage) = first :: rest := by
  cases hdrop : history.dropWhile fun event => !event.isUserMessage with
  | nil =>
    obtain ⟨event, hevent, huser⟩ := h.user
    have hall := List.dropWhile_eq_nil_iff.mp hdrop event hevent
    simp [huser] at hall
  | cons first rest =>
    refine ⟨history.takeWhile fun event => !event.isUserMessage, first, rest, ?_, ?_, rfl⟩
    · rw [← hdrop, List.takeWhile_append_dropWhile]
    · have hhead := List.head?_dropWhile_not (fun event : Event => !event.isUserMessage) history
      rw [hdrop] at hhead
      simpa using hhead

/-- The essential events of a history with a user message. -/
lemma exists_essentialEvents (h : Admitted history) (message : Event) :
    ∃ before first rest, history = before ++ first :: rest ∧ first.isUserMessage = true ∧
      essentialEvents message history = (history.find? Event.isSystemMessage).toList ++
        first :: recallPair first.content rest := by
  obtain ⟨before, first, rest, hparts, huser, hdrop⟩ := h.exists_message
  exact ⟨before, first, rest, hparts, huser, by rw [essentialEvents, hdrop]⟩

end Admitted

/-- A number for each type of essential event. -/
def Event.rank (event : Event) : ℕ :=
  match event.type with
  | .systemMessage _ => 0
  | .message _ => 1
  | .recall _ => 2
  | _ => 3

lemma Event.rank_of_isSystemMessage {event : Event} (h : event.isSystemMessage = true) :
    event.rank = 0 := by
  rw [Event.isSystemMessage] at h
  split at h
  · next htype => rw [Event.rank, htype]
  · cases h

lemma Event.rank_of_isUserMessage {event : Event} (h : event.isUserMessage = true) :
    event.rank = 1 := by
  rw [Event.isUserMessage] at h
  split at h
  · next htype => rw [Event.rank, htype]
  · cases h

lemma Event.rank_of_isObservation {event : Event} (h : event.isObservation = true) :
    event.rank = 3 := by
  rw [Event.isObservation] at h
  split at h
  · next htype => rw [Event.rank, htype]
  · next htype => rw [Event.rank, htype]
  · cases h

/-- The recall pair is a recall action, with an observation or without. -/
lemma recallPair_cases (content : String) (rest : List Event) :
    recallPair content rest = [] ∨
      ∃ recallAction ∈ rest, recallAction.type = .recall content ∧
        (recallPair content rest = [recallAction] ∨
          ∃ observation ∈ rest, observation.isObservation = true ∧
            recallPair content rest = [recallAction, observation]) := by
  rw [recallPair]
  have hsuffix : (rest.dropWhile fun event => decide (event.type ≠ .recall content)) <:+ rest :=
    List.dropWhile_suffix _
  cases hdrop : rest.dropWhile fun event => decide (event.type ≠ .recall content) with
  | nil => exact .inl rfl
  | cons recallAction after =>
    rw [hdrop] at hsuffix
    have hhead := List.head?_dropWhile_not
      (fun event : Event => decide (event.type ≠ .recall content)) rest
    rw [hdrop] at hhead
    refine .inr ⟨recallAction, hsuffix.subset List.mem_cons_self, by simpa using hhead, ?_⟩
    dsimp only
    cases hfind : after.find? fun event =>
        event.isObservation && event.cause = some recallAction.id with
    | none => exact .inl rfl
    | some observation =>
      have hprop := List.find?_some hfind
      simp only [Bool.and_eq_true] at hprop
      have hmem := List.mem_cons_of_mem recallAction (List.mem_of_find?_eq_some hfind)
      exact .inr ⟨observation, hsuffix.subset hmem, hprop.1, rfl⟩

namespace Admitted

/-- The essential events are in the history. -/
lemma essentialEvents_subset (h : Admitted history) (message : Event) :
    essentialEvents message history ⊆ history := by
  obtain ⟨before, first, rest, hparts, -, heq⟩ := h.exists_essentialEvents message
  have hrest : ∀ event ∈ first :: rest, event ∈ history := by
    intro event hevent
    rw [hparts]
    exact List.mem_append_right _ hevent
  have hpair : ∀ event ∈ recallPair first.content rest, event ∈ rest := by
    rcases recallPair_cases first.content rest with
      hpair | ⟨recallAction, hrecall, -, hpair | ⟨observation, hobservation, -, hpair⟩⟩ <;>
      rw [hpair]
    · simp
    · simpa using hrecall
    · simpa using ⟨hrecall, hobservation⟩
  intro event hevent
  rw [heq] at hevent
  rcases List.mem_append.mp hevent with hsystem | hevent
  · exact List.mem_of_find?_eq_some (Option.mem_toList.mp hsystem)
  · rcases List.mem_cons.mp hevent with rfl | hevent
    · exact hrest _ List.mem_cons_self
    · exact hrest _ (List.mem_cons_of_mem _ (hpair event hevent))

/-- The essential events differ by their types. -/
lemma essentialEvents_nodup (h : Admitted history) (message : Event) :
    (essentialEvents message history).Nodup := by
  obtain ⟨before, first, rest, -, huser, heq⟩ := h.exists_essentialEvents message
  have hsystem : ∀ event ∈ (history.find? Event.isSystemMessage).toList, event.rank = 0 :=
    fun event hevent =>
      Event.rank_of_isSystemMessage (List.find?_some (Option.mem_toList.mp hevent))
  have hfirst : first.rank = 1 := Event.rank_of_isUserMessage huser
  obtain ⟨hpos, htail⟩ : (∀ event ∈ first :: recallPair first.content rest, 0 < event.rank) ∧
      (first :: recallPair first.content rest).Pairwise fun a b => a.rank < b.rank := by
    rcases recallPair_cases first.content rest with
      hpair | ⟨recallAction, -, htype, hpair | ⟨observation, -, hobservation, hpair⟩⟩ <;>
      rw [hpair]
    · simp [hfirst]
    · have hrecall : recallAction.rank = 2 := by rw [Event.rank, htype]
      simp [hfirst, hrecall]
    · have hrecall : recallAction.rank = 2 := by rw [Event.rank, htype]
      have hlast : observation.rank = 3 := Event.rank_of_isObservation hobservation
      simp [hfirst, hrecall, hlast]
  rw [heq]
  refine List.nodup_append.mpr ⟨?_, htail.imp ?_, ?_⟩
  · cases history.find? Event.isSystemMessage <;> simp
  · rintro a b hlt rfl
    exact absurd hlt (lt_irrefl _)
  · rintro a ha b hb rfl
    have := hsystem a ha
    have := hpos a hb
    omega

/-- No event occurs twice. -/
lemma nodup (h : Admitted history) : history.Nodup :=
  h.sorted.imp fun hlt heq => absurd hlt (by rw [heq]; exact lt_irrefl _)

/-- **The dropped events** are those whose ids are not kept. -/
lemma dropped_iff (h : Admitted history) (message : Event) {event : Event}
    (hevent : event ∈ history) :
    Dropped message history event ↔
      event.id ∉ (essentialEvents message history ++ validatedRecentEvents message history).map
        Event.id := by
  have hsub : essentialEvents message history ++ validatedRecentEvents message history ⊆
      history := by
    refine List.append_subset.mpr ⟨h.essentialEvents_subset message, ?_⟩
    exact List.Subset.trans (List.dropWhile_subset _) (List.drop_subset _ _)
  have hid : event.id ∈ (essentialEvents message history ++
      validatedRecentEvents message history).map Event.id ↔
      event ∈ essentialEvents message history ∨ event ∈ validatedRecentEvents message history := by
    rw [← List.mem_append]
    constructor
    · intro hmem
      obtain ⟨other, hother, heq⟩ := List.mem_map.mp hmem
      rwa [h.eq_of_id_eq hevent (hsub hother) heq.symm]
    · exact List.mem_map_of_mem
  obtain ⟨p, hp⟩ := List.mem_iff_getElem?.mp hevent
  rw [hid, not_or, Dropped]
  refine and_congr_right fun _ => ?_
  rw [validatedRecentEvents, Slices.mem_dropWhile_drop_iff h.nodup _ _ hp]
  constructor
  · rintro ⟨p', hp', hobs⟩ ⟨q, hq, hstart, other, hother, hskip⟩
    obtain rfl : p' = p := (List.getElem?_inj (List.getElem?_eq_some_iff.mp hp').1 h.nodup).mp
      (hp'.trans hp.symm)
    simp [hobs q hq hstart other hother] at hskip
  · intro hnone
    refine ⟨p, hp, fun q hq hstart other hother => ?_⟩
    by_contra hskip
    exact hnone ⟨q, hq, hstart, other, hother, by simpa using hskip⟩

/-- The ids that are not kept. -/
def droppedIds (message : Event) (history : List Event) : List ℤ :=
  (history.map Event.id).filter fun id => decide (id ∉
    (essentialEvents message history ++ validatedRecentEvents message history).map Event.id)

/-- These are the ids of the dropped events. -/
lemma mem_droppedIds_iff (h : Admitted history) (message : Event) {id : ℤ} :
    id ∈ droppedIds message history ↔
      ∃ event ∈ history, Dropped message history event ∧ event.id = id := by
  rw [droppedIds, List.mem_filter, List.mem_map, decide_eq_true_eq]
  constructor
  · rintro ⟨⟨event, hevent, rfl⟩, hid⟩
    exact ⟨event, hevent, (h.dropped_iff message hevent).mpr hid, rfl⟩
  · rintro ⟨event, hevent, hdropped, rfl⟩
    exact ⟨⟨event, hevent, rfl⟩, (h.dropped_iff message hevent).mp hdropped⟩

/-- The window is the essential and the recent events. -/
lemma applyConversationWindow_eq (h : Admitted history) (message : Event) :
    applyConversationWindow (some message) history =
      .ok (essentialEvents message history ++ validatedRecentEvents message history) := by
  cases history with
  | nil =>
    obtain ⟨event, hevent, -⟩ := h.user
    cases hevent
  | cons first rest =>
    have hfirst : ¬ (((first :: rest).find? Event.isSystemMessage).any fun event =>
        decide (event.id ≠ first.id)) = true := by
      cases hfind : (first :: rest).find? Event.isSystemMessage with
      | none => simp
      | some event =>
        obtain rfl : first = event := by simpa using h.system event hfind
        simp
    simp only [applyConversationWindow, if_neg hfirst]
    rfl

/-- **A call returns** the range of the dropped ids. -/
lemma handleLongContextError_eq (h : Admitted history) (message : Event) :
    handleLongContextError (some message) history =
      .ok ⟨.range ((droppedIds message history).min?.getD 0)
        ((droppedIds message history).max?.getD 0), none⟩ := by
  rw [handleLongContextError, h.applyConversationWindow_eq message, Except.ok_bind]
  rfl

/-- **What a call forgets**, if there is a dropped event: the ids between two dropped ones. -/
lemma mem_forgotten_iff (h : Admitted history) (message : Event)
    (hdropped : ∃ event ∈ history, Dropped message history event) {id : ℤ} :
    id ∈ CondensationAction.forgotten ⟨.range ((droppedIds message history).min?.getD 0)
        ((droppedIds message history).max?.getD 0), none⟩ ↔
      ∃ a b, Dropped message history a ∧ Dropped message history b ∧ a.id ≤ id ∧ id ≤ b.id := by
  have hne : droppedIds message history ≠ [] := by
    obtain ⟨event, hevent, hdrop⟩ := hdropped
    exact List.ne_nil_of_mem ((h.mem_droppedIds_iff message).mpr ⟨event, hevent, hdrop, rfl⟩)
  obtain ⟨lo, hlo⟩ := Option.ne_none_iff_exists'.mp (mt List.min?_eq_none_iff.mp hne)
  obtain ⟨hi, hhi⟩ := Option.ne_none_iff_exists'.mp (mt List.max?_eq_none_iff.mp hne)
  obtain ⟨hloMem, hloLe⟩ := List.min?_eq_some_iff.mp hlo
  obtain ⟨hhiMem, hhiLe⟩ := List.max?_eq_some_iff.mp hhi
  rw [mem_forgotten_range, hlo, hhi, Option.getD_some, Option.getD_some]
  constructor
  · rintro ⟨hle, hge⟩
    obtain ⟨a, -, ha, rfl⟩ := (h.mem_droppedIds_iff message).mp hloMem
    obtain ⟨b, -, hb, rfl⟩ := (h.mem_droppedIds_iff message).mp hhiMem
    exact ⟨a, b, ha, hb, hle, hge⟩
  · rintro ⟨a, b, ha, hb, hle, hge⟩
    have hmem : ∀ event, Dropped message history event → event.id ∈ droppedIds message history := by
      intro event hevent
      obtain ⟨p, hp, -⟩ := hevent.2
      exact (h.mem_droppedIds_iff message).mpr ⟨event, List.mem_of_getElem? hp, hevent, rfl⟩
    exact ⟨(hloLe _ (hmem a ha)).trans hle, hge.trans (hhiLe _ (hmem b hb))⟩

/-- If more than one event besides the essential ones is left, the older half is longer than the
essential events. -/
lemma length_essentialEvents_lt (h : Admitted history) (message : Event)
    (hdone : ¬ Done message history) :
    (essentialEvents message history).length < sliceStartIndex message history := by
  have hleft : 1 < history.countP fun event =>
      decide (event ∉ essentialEvents message history) := by
    rw [Done, not_le, List.countP_eq_length_filter, filter_fromEvents fun _ => rfl,
      ← List.countP_eq_length_filter] at hdone
    refine hdone.trans_le ((List.countP_mono_left ?_).trans
      (List.Sublist.countP_le List.filter_sublist))
    intro event _ hevent
    exact (Bool.and_eq_true _ _ ▸ hevent).2
  have hessential : (essentialEvents message history).length ≤
      history.countP fun event => decide (event ∈ essentialEvents message history) := by
    rw [List.countP_eq_length_filter]
    refine ((h.essentialEvents_nodup message).subperm fun event hevent => ?_).length_le
    exact List.mem_filter.mpr ⟨h.essentialEvents_subset message hevent, decide_eq_true hevent⟩
  have hlen := List.length_eq_countP_add_countP
    (fun event : Event => decide (event ∈ essentialEvents message history)) (l := history)
  have hnot : history.countP (fun event => decide (event ∉ essentialEvents message history)) =
      history.countP fun event => decide ¬ decide (event ∈ essentialEvents message history) = true
      := by
    refine List.countP_congr fun event _ => ?_
    simp
  simp only [sliceStartIndex]
  omega

/-- **An event to drop**: if more than one event besides the essential ones is left, the older half
has one that is not essential. -/
lemma exists_dropped (h : Admitted history) (message : Event) (hdone : ¬ Done message history) :
    ∃ event ∈ history, Dropped message history event := by
  by_contra hnone
  push Not at hnone
  have hsub : history.take (sliceStartIndex message history) ⊆
      essentialEvents message history := by
    intro event hevent
    obtain ⟨p, hp⟩ := List.mem_iff_getElem?.mp hevent
    rw [List.getElem?_take] at hp
    split_ifs at hp with hlt
    by_contra hessential
    refine hnone event (List.mem_of_getElem? hp) ⟨hessential, p, hp, fun q hq hstart => ?_⟩
    omega
  have hle := (h.nodup.sublist (List.take_sublist _ _)).subperm hsub |>.length_le
  have hlt := h.length_essentialEvents_lt message hdone
  have hbound : sliceStartIndex message history ≤ history.length := Nat.sub_le _ _
  rw [List.length_take] at hle
  omega

/-- A call keeps the history admitted. -/
lemma concat (h : Admitted history) {event : Event} {action : CondensationAction}
    (hevent : event.condensation? = some action) (hid : ∀ e ∈ history, e.id < event.id) :
    Admitted (history ++ [event]) := by
  obtain ⟨user, huser, huserType⟩ := h.user
  have hsystem : event.isSystemMessage = false := by
    rw [Event.condensation?] at hevent
    split at hevent
    · next htype => rw [Event.isSystemMessage, htype]
    · cases hevent
  refine ⟨?_, ⟨user, List.mem_append_left _ huser, huserType⟩, fun e he => ?_⟩
  · exact List.pairwise_append.mpr ⟨h.sorted, List.pairwise_singleton _ _, by simpa using hid⟩
  · rw [List.find?_append, List.find?_cons_of_neg (by simp [hsystem]), List.find?_nil,
      Option.or_none] at he
    rw [List.head?_append_of_ne_nil _ (List.ne_nil_of_mem huser)]
    exact h.system e he

end Admitted

/-- **One call**: unless it is done, the view gets smaller exactly if some event can be dropped. -/
theorem Admitted.done_or_lt_iff (h : Admitted history) {action : CondensationAction}
    (haction : handleLongContextError (some message) history = .ok action) {event : Event}
    (hevent : event.condensation? = some action) :
    (Done message history ∨ viewSize (history ++ [event]) < viewSize history) ↔
      (Done message history ∨ Droppable message history) := by
  obtain rfl := Except.ok.inj ((h.handleLongContextError_eq message).symm.trans haction)
  by_cases hdone : Done message history
  · simp [hdone]
  · have hdropped := h.exists_dropped message hdone
    simp only [hdone, false_or]
    rw [viewSize_concat_lt_iff hevent, Droppable]
    simp only [h.mem_forgotten_iff message hdropped]

/-- The histories of a run are admitted. -/
lemma Calls.admitted {firstUserMessage : Option Event} {start : List Event}
    {calls : List (List Event × List Event)} (h : Calls firstUserMessage start history calls)
    (hstart : Admitted start) : Admitted history := by
  induction h with
  | start => exact hstart
  | call _ _ hevent hid ih => exact ih.concat hevent hid

/-- Each call of a run makes progress exactly if some event can be dropped before it. -/
lemma Calls.forall_progress_iff {start : List Event} {calls : List (List Event × List Event)}
    (h : Calls (some message) start history calls) (hstart : Admitted start) :
    ∀ call ∈ calls, (Done message call.1 ∨ viewSize call.2 < viewSize call.1) ↔
      (Done message call.1 ∨ Droppable message call.1) := by
  induction h with
  | start => simp
  | call hcalls haction hevent _ ih =>
    intro call hcall
    rcases List.mem_append.mp hcall with hcall | hcall
    · exact ih call hcall
    · obtain rfl := List.mem_singleton.mp hcall
      exact (hcalls.admitted hstart).done_or_lt_iff haction hevent

/-- **Progress of repeated calls**: every run can go on, and every call of it makes the view
smaller, unless it is done, exactly if before every call some event can still be dropped. -/
theorem progress_iff {start : List Event} (hstart : Admitted start)
    {calls : List (List Event × List Event)} (h : Calls (some message) start history calls) :
    (∃ action, handleLongContextError (some message) history = .ok action) ∧
      ((∀ call ∈ calls, Done message call.1 ∨ viewSize call.2 < viewSize call.1) ↔
        ∀ call ∈ calls, Done message call.1 ∨ Droppable message call.1) :=
  ⟨⟨_, (h.admitted hstart).handleLongContextError_eq message⟩,
    forall₂_congr (h.forall_progress_iff hstart)⟩

/-! ### Two calls on nine events -/

/-- The first user message. -/
def taskMessage : Event := ⟨1, some .user, none, .message "Fix the bug."⟩

/-- The essential events and five actions. -/
def nineEvents : List Event :=
  [⟨0, some .agent, none, .systemMessage "You are an agent."⟩, taskMessage,
    ⟨2, some .user, none, .recall "Fix the bug."⟩,
    ⟨3, some .environment, some 2, .otherObservation "recall"⟩,
    ⟨4, some .agent, none, .otherAction "run"⟩, ⟨5, some .agent, none, .otherAction "run"⟩,
    ⟨6, some .agent, none, .otherAction "run"⟩, ⟨7, some .agent, none, .otherAction "run"⟩,
    ⟨8, some .agent, none, .otherAction "run"⟩]

/-- A condensation of the actions 4 to 6. -/
def condensationEvent (id : ℤ) : Event := ⟨id, some .agent, none, .condensation ⟨.range 4 6, none⟩⟩

/-- The history is admitted. -/
lemma admitted_nineEvents : Admitted nineEvents := by
  refine ⟨by decide, ⟨taskMessage, by decide, by decide⟩, fun event hevent => ?_⟩
  obtain rfl : ⟨0, some .agent, none, .systemMessage "You are an agent."⟩ = event :=
    Option.some.inj hevent
  rfl

/-- The first call forgets the actions 4 to 6. -/
lemma calls_nineEvents : Calls (some taskMessage) nineEvents (nineEvents ++ [condensationEvent 9])
    [(nineEvents, nineEvents ++ [condensationEvent 9])] := by
  have haction : handleLongContextError (some taskMessage) nineEvents = .ok ⟨.range 4 6, none⟩ := by
    decide
  exact Calls.start.call haction rfl (by decide)

/-- The first call makes progress. -/
theorem progress_firstCall : Admitted nineEvents ∧
    Calls (some taskMessage) nineEvents (nineEvents ++ [condensationEvent 9])
      [(nineEvents, nineEvents ++ [condensationEvent 9])] ∧
    (Done taskMessage nineEvents ∨
      viewSize (nineEvents ++ [condensationEvent 9]) < viewSize nineEvents) := by
  have hdropped : Dropped taskMessage nineEvents ⟨4, some .agent, none, .otherAction "run"⟩ := by
    refine ⟨by decide, 4, rfl, fun q hq hstart => ?_⟩
    have hseven : sliceStartIndex taskMessage nineEvents = 7 := by decide
    omega
  have hdroppable : Droppable taskMessage nineEvents :=
    ⟨_, by decide, rfl, _, _, hdropped, hdropped, le_rfl, le_rfl⟩
  refine ⟨admitted_nineEvents, calls_nineEvents, ?_⟩
  exact (progress_iff admitted_nineEvents calls_nineEvents).2.mpr
    (by simpa using .inr hdroppable) _ List.mem_cons_self

/-- **A call without progress**: the second call forgets the same actions again, with two actions
left in the view. -/
theorem no_progress_secondCall : Admitted nineEvents ∧
    Calls (some taskMessage) nineEvents (nineEvents ++ [condensationEvent 9])
      [(nineEvents, nineEvents ++ [condensationEvent 9])] ∧
    handleLongContextError (some taskMessage) (nineEvents ++ [condensationEvent 9]) =
      .ok ⟨.range 4 6, none⟩ ∧
    viewSize (nineEvents ++ [condensationEvent 9] ++ [condensationEvent 10]) =
      viewSize (nineEvents ++ [condensationEvent 9]) ∧
    ¬ Done taskMessage (nineEvents ++ [condensationEvent 9]) := by
  refine ⟨admitted_nineEvents, calls_nineEvents, by decide, by decide, ?_⟩
  rw [Done]
  decide

end ProRLAgent.Memory
