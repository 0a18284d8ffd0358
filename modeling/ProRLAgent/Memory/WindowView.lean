import ProRLAgent.Memory.Window

set_option relaxedAutoImplicit false
set_option autoImplicit false

/-!
# The window and the view that it causes

`_apply_conversation_window` returns the events to keep: the essential ones and the newest half. What
the agent sees next is decided by the condensation that `_handle_long_context_error` adds, which can
only name one range of ids. This module says when the two agree.

## Main definitions

* `ProRLAgent.Memory.WindowShown` — the view after the call shows the window.
* `ProRLAgent.Memory.WindowFits` — the condition on the history before the call.

## Main results

* `ProRLAgent.Memory.mem_fromEvents_iff` — the events of the history in its view are the kept ones.
* `ProRLAgent.Memory.windowShown_iff` — the view shows the window exactly if the window fits.
-/

namespace ProRLAgent.Memory

variable {message : Event} {history window : List Event} {action : CondensationAction}
  {event : Event}

/-- The events of a history that its view shows are the kept ones: the view adds nothing but the
summary. -/
lemma mem_fromEvents_iff {e : Event} (hsummary : ∀ summary, e ≠ summaryEvent summary) :
    e ∈ fromEvents history ↔ e ∈ keptEvents history := by
  have hfilter : (fromEvents history).filter (fun x => x = e) =
      (keptEvents history).filter fun x => x = e :=
    filter_fromEvents fun summary => by simpa using (hsummary summary).symm
  have hmem := congrArg (e ∈ ·) hfilter
  simpa [List.mem_filter] using hmem

/-- **The view shows the window**: after the condensation `event`, the events of the history that are
visible are those of the previous view that the window has; the essential events are visible; and
the first visible event besides them is not an observation. -/
structure WindowShown (message : Event) (history window : List Event) (event : Event) :
    Prop where
  exact : ∀ e ∈ history,
    e ∈ keptEvents (history ++ [event]) ↔ e ∈ keptEvents history ∧ e ∈ window
  essential : ∀ e ∈ essentialEvents message history, e ∈ keptEvents (history ++ [event])
  first : ∀ e, (keptEvents (history ++ [event])).find?
    (fun e => e ∉ essentialEvents message history) = some e → e.isObservation = false

/-- **The window fits** into one range: no other event of the view stands between two dropped ones,
and if none is dropped, event 0 is not in the view; no essential event is forgotten already; and an
observation of the newest half that is in the view is not the first event of it there. -/
structure WindowFits (message : Event) (history : List Event) : Prop where
  between : ∀ e ∈ keptEvents history, ¬ Dropped message history e →
    ∀ a b, Dropped message history a → Dropped message history b → ¬ (a.id < e.id ∧ e.id < b.id)
  nothing : (∀ e ∈ history, ¬ Dropped message history e) → ∀ e ∈ keptEvents history, e.id ≠ 0
  essential : ∀ e ∈ essentialEvents message history, e.id ∉ forgottenEventIds history
  first : ∀ e ∈ keptEvents history, e.isObservation = true → ¬ Dropped message history e →
    e ∉ essentialEvents message history →
      ∃ f ∈ keptEvents history, f.id < e.id ∧ ¬ Dropped message history f ∧
        f ∉ essentialEvents message history

/-! ## The parts -/

/-- The window has the events that are not dropped. -/
lemma Admitted.mem_window_iff (h : Admitted history) (message : Event) {e : Event}
    (he : e ∈ history) :
    e ∈ essentialEvents message history ++ validatedRecentEvents message history ↔
      ¬ Dropped message history e := by
  rw [h.dropped_iff message he, not_not]
  constructor
  · exact List.mem_map_of_mem
  · intro hid
    obtain ⟨other, hother, heq⟩ := List.mem_map.mp hid
    have hsub : other ∈ history := by
      obtain hessential | hrecent := List.mem_append.mp hother
      · exact h.essentialEvents_subset message hessential
      · exact List.mem_of_mem_drop (List.dropWhile_subset _ hrecent)
    rwa [← h.eq_of_id_eq hsub he heq]

/-- An event of the history is visible after a condensation if it was before and is not
forgotten. -/
lemma mem_keptEvents_concat (hevent : event.condensation? = some action) {e : Event}
    (he : e ∈ history) :
    e ∈ keptEvents (history ++ [event]) ↔ e ∈ keptEvents history ∧ e.id ∉ action.forgotten := by
  have hforgotten : forgottenEventIds (history ++ [event]) =
      forgottenEventIds history ++ action.forgotten := by
    simp [forgottenEventIds_concat, hevent]
  rw [keptEvents, hforgotten, keptEvents, List.mem_filter, List.mem_filter]
  simp [he]

/-- An event of the view comes from the history. -/
lemma mem_of_mem_keptEvents {e : Event} (h : e ∈ keptEvents history) : e ∈ history :=
  List.mem_of_mem_filter h

/-- An essential event is not dropped. -/
lemma Dropped.notMem_essentialEvents {e : Event} (h : Dropped message history e) :
    e ∉ essentialEvents message history := h.1

/-- A dropped event is one of the history. -/
lemma Dropped.mem {e : Event} (h : Dropped message history e) : e ∈ history := by
  obtain ⟨-, p, hp, -⟩ := h
  exact List.mem_of_getElem? hp

/-- In increasing order, an event that `find?` passes over does not come before the one found. -/
lemma id_le_of_find? {l : List Event} (hsorted : l.Pairwise fun a b => a.id < b.id)
    {p : Event → Bool} {e f : Event} (hf : l.find? p = some f) (he : e ∈ l) (hp : p e = true) :
    f.id ≤ e.id := by
  obtain ⟨-, before, after, rfl, hbefore⟩ := List.find?_eq_some_iff_append.mp hf
  obtain hmem | hmem := List.mem_append.mp he
  · have hnot := hbefore e hmem
    simp [hp] at hnot
  · obtain rfl | hmem := List.mem_cons.mp hmem
    · exact le_rfl
    · have hpairwise := (List.pairwise_append.mp hsorted).2.1
      exact (List.rel_of_pairwise_cons hpairwise hmem).le

/-- **What a call forgets**: the ids between two dropped ones, or 0 if nothing is dropped. -/
lemma Admitted.mem_forgotten_action (h : Admitted history)
    (haction : handleLongContextError (some message) history = .ok action) {id : ℤ} :
    id ∈ action.forgotten ↔
      (∃ a b, Dropped message history a ∧ Dropped message history b ∧ a.id ≤ id ∧ id ≤ b.id) ∨
        (∀ e ∈ history, ¬ Dropped message history e) ∧ id = 0 := by
  obtain rfl := Except.ok.inj ((h.handleLongContextError_eq message).symm.trans haction)
  by_cases hdropped : ∃ e ∈ history, Dropped message history e
  · rw [h.mem_forgotten_iff message hdropped]
    refine ⟨.inl, ?_⟩
    rintro (hmem | ⟨hnone, -⟩)
    · exact hmem
    · obtain ⟨e, he, hdrop⟩ := hdropped
      exact absurd hdrop (hnone e he)
  · have hnone : ∀ e ∈ history, ¬ Dropped message history e := fun e he hdrop =>
      hdropped ⟨e, he, hdrop⟩
    have hnil : droppedIds message history = [] := by
      refine List.eq_nil_iff_forall_not_mem.mpr fun id hid => ?_
      obtain ⟨e, he, hdrop, -⟩ := (h.mem_droppedIds_iff message).mp hid
      exact hnone e he hdrop
    rw [hnil, mem_forgotten_range]
    constructor
    · rintro ⟨hle, hge⟩
      exact .inr ⟨hnone, le_antisymm hge hle⟩
    · rintro (⟨a, -, ha, -⟩ | ⟨-, rfl⟩)
      · exact absurd ha (hnone a ha.mem)
      · exact ⟨le_rfl, le_rfl⟩

/-! ## When the view shows the window -/

/-- The dropped events are forgotten, and with a fitting window no other one of the view. -/
lemma WindowFits.mem_keptEvents_iff (hfits : WindowFits message history) (h : Admitted history)
    (haction : handleLongContextError (some message) history = .ok action)
    (hevent : event.condensation? = some action) {e : Event} (he : e ∈ history) :
    e ∈ keptEvents (history ++ [event]) ↔
      e ∈ keptEvents history ∧ ¬ Dropped message history e := by
  rw [mem_keptEvents_concat hevent he, h.mem_forgotten_action haction]
  refine and_congr_right fun hkept => not_congr ⟨?_, fun hdrop => .inl ⟨e, e, hdrop, hdrop, le_rfl,
    le_rfl⟩⟩
  rintro (⟨a, b, ha, hb, hae, heb⟩ | ⟨hnone, hzero⟩)
  · by_contra hdrop
    refine hfits.between e hkept hdrop a b ha hb ⟨hae.lt_of_ne fun heq => ?_,
      heb.lt_of_ne fun heq => ?_⟩
    · exact hdrop (h.eq_of_id_eq ha.mem he heq ▸ ha)
    · exact hdrop (h.eq_of_id_eq hb.mem he heq.symm ▸ hb)
  · exact absurd hzero (hfits.nothing hnone e hkept)

/-- The events of the view after the call are in the order of their ids. -/
lemma pairwise_keptEvents_concat (h : Admitted history)
    (hevent : event.condensation? = some action) (hid : ∀ e ∈ history, e.id < event.id) :
    (keptEvents (history ++ [event])).Pairwise fun a b => a.id < b.id :=
  List.Pairwise.filter _ (h.concat hevent hid).sorted

/-- An observation of the view after the call is one of the history. -/
lemma mem_history_of_isObservation (hevent : event.condensation? = some action) {e : Event}
    (he : e ∈ keptEvents (history ++ [event])) (hobs : e.isObservation = true) : e ∈ history := by
  obtain hmem | hmem := List.mem_append.mp (mem_of_mem_keptEvents he)
  · exact hmem
  · obtain rfl := List.mem_singleton.mp hmem
    rw [Event.condensation?] at hevent
    split at hevent
    · next htype => simp [Event.isObservation, htype] at hobs
    · cases hevent

/-- A fitting window is shown. -/
lemma WindowFits.shown (hfits : WindowFits message history) (h : Admitted history)
    (hwindow : applyConversationWindow (some message) history = .ok window)
    (haction : handleLongContextError (some message) history = .ok action)
    (hevent : event.condensation? = some action) (hid : ∀ e ∈ history, e.id < event.id) :
    WindowShown message history window event := by
  have hkept : ∀ e ∈ history, (e ∈ keptEvents (history ++ [event]) ↔
      e ∈ keptEvents history ∧ ¬ Dropped message history e) := fun e he =>
    hfits.mem_keptEvents_iff h haction hevent he
  refine ⟨fun e he => ?_, fun e he => ?_, fun e he => ?_⟩
  · rw [hkept e he, Except.ok.inj (hwindow.symm.trans (h.applyConversationWindow_eq message)),
      h.mem_window_iff message he]
  · have hmem := h.essentialEvents_subset message he
    refine (hkept e hmem).mpr ⟨?_, fun hdrop => hdrop.notMem_essentialEvents he⟩
    exact List.mem_filter.mpr ⟨hmem, by simpa using hfits.essential e he⟩
  · by_contra hobs
    rw [Bool.not_eq_false] at hobs
    have hmem := List.mem_of_find?_eq_some he
    have hhistory := mem_history_of_isObservation hevent hmem hobs
    obtain ⟨hold, hdrop⟩ := (hkept e hhistory).mp hmem
    obtain ⟨f, hf, hlt, hfdrop, hfessential⟩ :=
      hfits.first e hold hobs hdrop (by simpa using List.find?_some he)
    -- The event before it would be found first.
    have hfmem := (hkept f (mem_of_mem_keptEvents hf)).mpr ⟨hf, hfdrop⟩
    have hle := id_le_of_find? (pairwise_keptEvents_concat h hevent hid) he hfmem
      (by simpa using hfessential)
    omega

/-- A window that is shown fits. -/
lemma WindowShown.fits (hshown : WindowShown message history window event) (h : Admitted history)
    (hwindow : applyConversationWindow (some message) history = .ok window)
    (haction : handleLongContextError (some message) history = .ok action)
    (hevent : event.condensation? = some action) (hid : ∀ e ∈ history, e.id < event.id) :
    WindowFits message history := by
  have hkept : ∀ e ∈ history, (e ∈ keptEvents (history ++ [event]) ↔
      e ∈ keptEvents history ∧ ¬ Dropped message history e) := fun e he => by
    rw [hshown.exact e he,
      Except.ok.inj (hwindow.symm.trans (h.applyConversationWindow_eq message)),
      h.mem_window_iff message he]
  have hforgotten : ∀ e ∈ keptEvents history, ¬ Dropped message history e →
      e.id ∉ action.forgotten := fun e he hdrop =>
    ((mem_keptEvents_concat hevent (mem_of_mem_keptEvents he)).mp
      ((hkept e (mem_of_mem_keptEvents he)).mpr ⟨he, hdrop⟩)).2
  refine ⟨fun e he hdrop a b ha hb hab => ?_, fun hnone e he hzero => ?_, fun e he => ?_,
    fun e he hobs hdrop hessential => ?_⟩
  · exact hforgotten e he hdrop ((h.mem_forgotten_action haction).mpr
      (.inl ⟨a, b, ha, hb, hab.1.le, hab.2.le⟩))
  · exact hforgotten e he (hnone e (mem_of_mem_keptEvents he))
      ((h.mem_forgotten_action haction).mpr (.inr ⟨hnone, hzero⟩))
  · have hmem := h.essentialEvents_subset message he
    have hold := ((mem_keptEvents_concat hevent hmem).mp (hshown.essential e he)).1
    simpa using (List.mem_filter.mp hold).2
  · have hmem := (hkept e (mem_of_mem_keptEvents he)).mpr ⟨he, hdrop⟩
    have hp : decide (e ∉ essentialEvents message history) = true := by simpa using hessential
    cases hfind : (keptEvents (history ++ [event])).find?
        fun e => e ∉ essentialEvents message history with
    | none => exact absurd hp (List.find?_eq_none.mp hfind e hmem)
    | some f =>
      have hle := id_le_of_find? (pairwise_keptEvents_concat h hevent hid) hfind hmem hp
      have hfmem := List.mem_of_find?_eq_some hfind
      have hlt : e.id < event.id := hid e (mem_of_mem_keptEvents he)
      have hfhistory : f ∈ history := by
        obtain hf | hf := List.mem_append.mp (mem_of_mem_keptEvents hfmem)
        · exact hf
        · obtain rfl := List.mem_singleton.mp hf
          omega
      obtain ⟨hfold, hfdrop⟩ := (hkept f hfhistory).mp hfmem
      refine ⟨f, hfold, hle.lt_of_ne fun heq => ?_, hfdrop, by simpa using List.find?_some hfind⟩
      -- The event found first is no observation, so it is another one.
      have hfobs := hshown.first f hfind
      rw [h.eq_of_id_eq hfhistory (mem_of_mem_keptEvents he) heq, hobs] at hfobs
      cases hfobs

/-- **When the view shows the window**: every call returns, and the view after it shows the window
that it applied exactly if the window fits into one range of ids. -/
theorem windowShown_iff (message : Event) (h : Admitted history) :
    (∃ window action, applyConversationWindow (some message) history = .ok window ∧
      handleLongContextError (some message) history = .ok action) ∧
    ∀ window action event, applyConversationWindow (some message) history = .ok window →
      handleLongContextError (some message) history = .ok action →
      event.condensation? = some action → (∀ e ∈ history, e.id < event.id) →
        (WindowShown message history window event ↔ WindowFits message history) := by
  refine ⟨⟨_, _, h.applyConversationWindow_eq message, h.handleLongContextError_eq message⟩,
    fun window action event hwindow haction hevent hid => ?_⟩
  exact ⟨fun hshown => hshown.fits h hwindow haction hevent hid,
    fun hfits => hfits.shown h hwindow haction hevent hid⟩

/-! ### A long and a short history -/

/-- **A window that is shown**: the call on nine events forgets the actions 4 to 6. -/
theorem windowFits_nineEvents :
    WindowShown taskMessage nineEvents
      (essentialEvents taskMessage nineEvents ++ validatedRecentEvents taskMessage nineEvents)
      (condensationEvent 9) ∧ WindowFits taskMessage nineEvents := by
  have hshown : WindowShown taskMessage nineEvents
      (essentialEvents taskMessage nineEvents ++ validatedRecentEvents taskMessage nineEvents)
      (condensationEvent 9) := by
    refine ⟨by decide, by decide, fun e he => ?_⟩
    obtain rfl : ⟨7, some .agent, none, .otherAction "run"⟩ = e := Option.some.inj he
    rfl
  exact ⟨hshown, ((windowShown_iff taskMessage admitted_nineEvents).2 _ _ _ rfl (by decide) rfl
    (by decide)).mp hshown⟩

/-- A system message and a user message, and nothing else. -/
def twoEvents : List Event :=
  [⟨0, some .agent, none, .systemMessage "You are an agent."⟩, taskMessage]

/-- The condensation of a call that drops nothing. -/
def emptyCondensation : Event := ⟨2, some .agent, none, .condensation ⟨.range 0 0, none⟩⟩

/-- **A window that is not shown**: nothing is dropped, so the call forgets event 0, which is the
system message. -/
theorem not_windowShown_twoEvents : Admitted twoEvents ∧
    applyConversationWindow (some taskMessage) twoEvents = .ok (twoEvents ++ [taskMessage]) ∧
    handleLongContextError (some taskMessage) twoEvents = .ok ⟨.range 0 0, none⟩ ∧
    keptEvents (twoEvents ++ [emptyCondensation]) = [taskMessage, emptyCondensation] ∧
    ¬ WindowShown taskMessage twoEvents (twoEvents ++ [taskMessage]) emptyCondensation := by
  refine ⟨⟨by decide, ⟨taskMessage, by decide, by decide⟩, fun event hevent => ?_⟩, by decide,
    by decide, by decide, fun h => ?_⟩
  · obtain rfl : ⟨0, some .agent, none, .systemMessage "You are an agent."⟩ = event :=
      Option.some.inj hevent
    rfl
  · have hsystem := h.essential ⟨0, some .agent, none, .systemMessage "You are an agent."⟩
      (by decide)
    exact absurd hsystem (by decide)

end ProRLAgent.Memory
