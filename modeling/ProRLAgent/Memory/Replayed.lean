import ProRLAgent.Memory.Rendering

set_option relaxedAutoImplicit false
set_option autoImplicit false

/-!
# Building a prompt again

What building a prompt leaves behind in the events, and that building it again from the same list
gives the same messages. An event is not changed but for two things that are saved in it on purpose:
the empty thought of a finish action becomes the content of the assistant message, and the diff of a
file edit is cached.

A finish action that has a thought of its own, and an assistant message with another content, gets
that content appended, and once more whenever a prompt is built. The events here are without such
actions.

## Main definitions

* `ProRLAgent.Memory.HistoryEvent.Settled` — no content is appended to the thought of the event.
* `ProRLAgent.Memory.Saves` — what a prompt may save in an event.

## Main results

* `ProRLAgent.Memory.render_saved` — a converted event is converted like before.
* `ProRLAgent.Memory.processHistory_again` — the messages of a second call.
-/

namespace ProRLAgent.Memory

open Replay

variable {P : PromptSetup}

/-! ## What is saved -/

/-- The event behind its conversion. -/
def HistoryEvent.saved (P : PromptSetup) : HistoryEvent → HistoryEvent
  | .finish source thought (some metadata) =>
    .finish source (savedThought thought (metadata.modelResponse.content.getD "")) (some metadata)
  | .fileEdit edit metadata => .fileEdit (edit.str P).1 metadata
  | event => event

/-- **Settled events**: a finish action with metadata has no thought, or the content of the assistant
message as its thought. -/
def HistoryEvent.Settled : HistoryEvent → Prop
  | .finish _ thought (some metadata) =>
    thought = "" ∨ thought = metadata.modelResponse.content.getD ""
  | _ => True

/-- **What a prompt may save in an event**: nothing, the content of the assistant message in an empty
thought, or the diff of a file edit. -/
inductive Saves : HistoryEvent → HistoryEvent → Prop
  | same (event : HistoryEvent) : Saves event event
  | thought (source : Option EventSource) (metadata : CallMetadata) :
      Saves (.finish source "" (some metadata))
        (.finish source (metadata.modelResponse.content.getD "") (some metadata))
  | diff (edit : FileEdit) (metadata : Option CallMetadata) (hcache : edit.diffCache = none)
      (diff : String) :
      Saves (.fileEdit edit metadata) (.fileEdit { edit with diffCache := some diff } metadata)

-- The equations of these functions are generated here, not in each proof that unfolds them.
section

attribute [local simp] HistoryEvent.saved HistoryEvent.Settled

end

/-- The content that is saved is not appended. -/
lemma savedThought_of_settled {thought content : String} (h : thought = "" ∨ thought = content) :
    savedThought thought content = content ∧ savedThought content content = content := by
  have hself : savedThought content content = content := by
    rw [savedThought]
    split_ifs with hne hsame
    · exact absurd rfl hsame
    · rfl
    · rfl
  refine ⟨?_, hself⟩
  rcases h with rfl | rfl
  · rfl
  · exact hself

/-- The diff is computed once. -/
lemma FileEdit.visualizeDiff_cases (edit : FileEdit) : (edit.visualizeDiff P).1 = edit ∨
    edit.diffCache = none ∧ ∃ diff, (edit.visualizeDiff P).1 = { edit with diffCache := some diff } := by
  obtain ⟨content, path, prevExist, oldContent, newContent, implSource, diffCache⟩ := edit
  cases diffCache with
  | none => exact Or.inr ⟨rfl, _, rfl⟩
  | some diff => exact Or.inl rfl

/-- A file edit is changed only in its cache. -/
lemma FileEdit.str_cases (edit : FileEdit) : (edit.str P).1 = edit ∨
    edit.diffCache = none ∧ ∃ diff, (edit.str P).1 = { edit with diffCache := some diff } := by
  rw [str]
  split
  · exact Or.inl rfl
  · split_ifs
    · exact Or.inl rfl
    · exact Or.inl rfl
    · exact edit.visualizeDiff_cases

/-- A file edit whose diff is cached has the same text. -/
lemma FileEdit.str_str (edit : FileEdit) : (edit.str P).1.str P = edit.str P := by
  obtain ⟨content, path, prevExist, oldContent, newContent, implSource, diffCache⟩ := edit
  cases implSource with
  | ohAci => rfl
  | llmBasedEdit =>
    cases prevExist with
    | false =>
      by_cases hold : oldContent = some ""
      · simp [str, hold]
      · simp [str, hold]
    | true => cases diffCache <;> rfl

/-- The event that the converters leave. -/
lemma render_fst (earlier : List HistoryEvent) (event : HistoryEvent) :
    (render P earlier event).1 = event.saved P := by
  cases event with
  | finish source thought metadata => cases metadata <;> rfl
  | _ => rfl

/-- What is saved in a settled event. -/
lemma HistoryEvent.Settled.saves {event : HistoryEvent} (h : event.Settled) :
    Saves event (event.saved P) := by
  cases event with
  | finish source thought metadata =>
    cases metadata with
    | none => exact .same _
    | some metadata =>
      rw [saved, (savedThought_of_settled h).1]
      rcases h with rfl | rfl
      · exact .thought source metadata
      · exact .same _
  | fileEdit edit metadata =>
    rw [saved]
    rcases edit.str_cases with heq | ⟨hcache, diff, heq⟩
    · rw [heq]
      exact .same _
    · rw [heq]
      exact .diff edit metadata hcache diff
  | _ => exact .same _

/-- A settled event is saved once. -/
lemma HistoryEvent.Settled.saved_saved {event : HistoryEvent} (h : event.Settled) :
    (event.saved P).saved P = event.saved P := by
  cases event with
  | finish source thought metadata =>
    cases metadata with
    | none => rfl
    | some metadata =>
      obtain ⟨hfirst, hself⟩ := savedThought_of_settled h
      rw [saved, hfirst, saved, hself]
  | fileEdit edit metadata => rw [saved, saved, edit.str_str]
  | _ => rfl

/-! ## The converters again -/

/-- **A converted event is converted like before.** -/
theorem render_saved {event : HistoryEvent} (h : event.Settled) (earlier : List HistoryEvent) :
    (render P earlier (event.saved P)).2 = (render P earlier event).2 := by
  cases event with
  | finish source thought metadata =>
    cases metadata with
    | none => rfl
    | some metadata =>
      obtain ⟨hfirst, hself⟩ := savedThought_of_settled h
      simp only [HistoryEvent.saved, render, hfirst, hself]
  | fileEdit edit metadata => simp only [HistoryEvent.saved, render, edit.str_str]
  | _ => rfl

/-- Only the agents of the earlier events matter. -/
lemma render_congr {earlier earlier' : List HistoryEvent}
    (h : ∀ name, hasAgentInEarlierEvents name earlier' = hasAgentInEarlierEvents name earlier)
    (event : HistoryEvent) : render P earlier' event = render P earlier event := by
  cases event with
  | finish source thought metadata => cases metadata <;> rfl
  | recallObservation obs metadata =>
    have hnew : obs.newAgents P earlier' = obs.newAgents P earlier := by
      simp only [Recall.newAgents, h]
    simp only [render, renderRecall, hnew]
  | _ => rfl

/-- An event, as it was, or saved if it is settled. -/
def AsSaved (P : PromptSetup) (event event' : HistoryEvent) : Prop :=
  event' = event ∨ event.Settled ∧ event' = event.saved P

section AsSaved

variable {event event' : HistoryEvent} (h : AsSaved P event event')

include h

/-- The kind of an event stays, and with it the agents of a recall. -/
lemma AsSaved.kind : event'.isSystemMessage = event.isSystemMessage ∧
    event'.isUserMessage = event.isUserMessage ∧
    ∀ name, event'.hasAgent name = event.hasAgent name := by
  rcases h with rfl | ⟨-, rfl⟩
  · exact ⟨rfl, rfl, fun _ => rfl⟩
  · cases event with
    | finish source thought metadata => cases metadata <;> exact ⟨rfl, rfl, fun _ => rfl⟩
    | _ => exact ⟨rfl, rfl, fun _ => rfl⟩

/-- What was saved is on purpose. -/
lemma AsSaved.saves : Saves event event' := by
  rcases h with rfl | ⟨hsettled, rfl⟩
  · exact .same _
  · exact hsettled.saves

/-- A settled event is as it was or saved behind one more conversion. -/
lemma AsSaved.saved (hsettled : event.Settled) : AsSaved P event (event'.saved P) := by
  rcases h with rfl | ⟨-, rfl⟩
  · exact Or.inr ⟨hsettled, rfl⟩
  · exact Or.inr ⟨hsettled, hsettled.saved_saved⟩

end AsSaved

/-- The agents of the earlier events stay. -/
lemma hasAgentInEarlierEvents_congr {earlier earlier' : List HistoryEvent}
    (h : List.Forall₂ (AsSaved P) earlier earlier') (name : String) :
    hasAgentInEarlierEvents name earlier' = hasAgentInEarlierEvents name earlier := by
  induction h with
  | nil => rfl
  | cons hevent _ ih =>
    simp only [hasAgentInEarlierEvents, List.any_cons] at ih ⊢
    rw [ih, hevent.kind.2.2]

/-- **A settled event is seen the same**, as it was or saved, behind events that are as they were or
saved. -/
theorem render_asSaved {event event' : HistoryEvent} (hsettled : event.Settled)
    (h : AsSaved P event event') {earlier earlier' : List HistoryEvent}
    (hearlier : List.Forall₂ (AsSaved P) earlier earlier') :
    (render P earlier' event').2 = (render P earlier event).2 ∧
      AsSaved P event (render P earlier' event').1 := by
  rw [render_fst]
  refine ⟨?_, h.saved hsettled⟩
  rcases h with rfl | ⟨-, rfl⟩
  · rw [render_congr (hasAgentInEarlierEvents_congr hearlier)]
  · rw [render_saved hsettled, render_congr (hasAgentInEarlierEvents_congr hearlier)]

/-! ## The list of events -/

/-- The list that `process_events` works on, with its first two events. -/
def SharedHistory.prepared (P : PromptSetup) (history : SharedHistory) (initialUserAction : ℕ) :
    SharedHistory :=
  (history.ensureSystemMessage P).ensureInitialUserMessage initialUserAction

/-- A list with a first user message is not changed. -/
lemma ensureInitialUserMessage_again {α : Type} (isUserMessage : α → Bool) {initial : α}
    (hinitial : isUserMessage initial) (events : List α) :
    ensureInitialUserMessage isUserMessage initial
        (ensureInitialUserMessage isUserMessage initial events) =
      ensureInitialUserMessage isUserMessage initial events := by
  match events with
  | [] => rfl
  | [first] =>
    show ensureInitialUserMessage isUserMessage initial [first, initial] = [first, initial]
    rw [ensureInitialUserMessage, if_pos hinitial]
  | first :: second :: rest =>
    rw [ensureInitialUserMessage]
    split_ifs with hsecond
    · rw [ensureInitialUserMessage, if_pos hsecond]
    · show ensureInitialUserMessage isUserMessage initial (first :: initial :: second :: rest) =
        first :: initial :: second :: rest
      rw [ensureInitialUserMessage, if_pos hinitial]

/-- The old objects are in the store as before. -/
lemma SharedHistory.prepared_event (history : SharedHistory) (initialUserAction : ℕ) {ref : ℕ}
    (h : ref < history.objects.length) :
    (history.prepared P initialUserAction).event ref = history.event ref := by
  rw [prepared, event, ensureInitialUserMessage, ensureSystemMessage]
  split_ifs
  · rfl
  · exact lookup_append h _
  · rfl

/-- The names of a list stay in it. -/
lemma mem_ensureInitialUserMessage_of_mem {α : Type} {isUserMessage : α → Bool} {initial a : α}
    {events : List α} (h : a ∈ events) :
    a ∈ ensureInitialUserMessage isUserMessage initial events := by
  match events with
  | [first] => exact Slices.mem_insertAt.mpr (Or.inr h)
  | first :: second :: rest =>
    rw [ensureInitialUserMessage]
    split_ifs
    · exact h
    · exact Slices.mem_insertAt.mpr (Or.inr h)

/-- There is a system message, unless there is nothing to say in it. -/
lemma SharedHistory.exists_systemMessage (history : SharedHistory) (initialUserAction : ℕ) :
    (∃ ref ∈ (history.prepared P initialUserAction).events,
      ((history.prepared P initialUserAction).event ref).isSystemMessage) ∨
      P.systemPrompt = "" := by
  have hsystem : (∃ ref ∈ (history.ensureSystemMessage P).events,
      ((history.ensureSystemMessage P).event ref).isSystemMessage) ∨ P.systemPrompt = "" := by
    rw [ensureSystemMessage]
    split_ifs with hany hprompt
    · exact Or.inl (List.any_eq_true.mp hany)
    · refine Or.inl ⟨history.objects.length, Slices.mem_insertAt.mpr (Or.inl rfl), ?_⟩
      rw [event, lookup_length]
      rfl
    · exact Or.inr (not_not.mp hprompt)
  refine hsystem.imp_left fun hsystem => ?_
  obtain ⟨ref, hmem, href⟩ := hsystem
  exact ⟨ref, mem_ensureInitialUserMessage_of_mem hmem, href⟩

/-- **A prepared list is not changed again**, whatever was saved in its events. -/
theorem SharedHistory.prepared_again {history : SharedHistory} {initialUserAction : ℕ}
    (huser : (history.event initialUserAction).isUserMessage) {objects : List HistoryEvent}
    (h : Agree .unknownEvent (AsSaved P) (history.prepared P initialUserAction).objects objects) :
    SharedHistory.prepared P ⟨objects, (history.prepared P initialUserAction).events⟩
        initialUserAction =
      ⟨objects, (history.prepared P initialUserAction).events⟩ := by
  set again : SharedHistory := ⟨objects, (history.prepared P initialUserAction).events⟩ with hagain
  have hsystem : again.ensureSystemMessage P = again := by
    rw [ensureSystemMessage]
    split_ifs with hany hprompt
    · rfl
    · obtain ⟨ref, hmem, href⟩ := (history.exists_systemMessage initialUserAction).resolve_right
        hprompt
      refine absurd (List.any_eq_true.mpr ⟨ref, hmem, ?_⟩) hany
      exact ((h ref).kind.1).trans href
    · rfl
  have hkind (ref : ℕ) : (again.event ref).isUserMessage =
      ((history.ensureSystemMessage P).event ref).isUserMessage := (h ref).kind.2.1
  have hinitial : ((history.ensureSystemMessage P).event initialUserAction).isUserMessage := by
    have hlt : initialUserAction < history.objects.length := by
      by_contra hge
      rw [event, lookup, List.getElem?_eq_none (not_lt.mp hge)] at huser
      cases huser
    rw [← huser]
    exact congrArg HistoryEvent.isUserMessage
      (history.prepared_event (P := P) initialUserAction hlt)
  rw [prepared, hsystem, ensureInitialUserMessage]
  simp only [hkind]
  have hevents : again.events = Memory.ensureInitialUserMessage
      (fun ref => ((history.ensureSystemMessage P).event ref).isUserMessage) initialUserAction
      (history.ensureSystemMessage P).events := rfl
  rw [hevents, ensureInitialUserMessage_again
    (fun ref => ((history.ensureSystemMessage P).event ref).isUserMessage) hinitial]
  rfl

/-! ## The messages of a second call -/

/-- The objects of the prepared list: the old ones, and a new system message. -/
lemma SharedHistory.prepared_event_cases (history : SharedHistory) (initialUserAction ref : ℕ) :
    (history.prepared P initialUserAction).event ref = history.event ref ∨
      (history.prepared P initialUserAction).event ref = .systemMessage P.systemPrompt := by
  rcases Nat.lt_trichotomy ref history.objects.length with hlt | rfl | hlt
  · exact Or.inl (history.prepared_event initialUserAction hlt)
  · rw [prepared, event, ensureInitialUserMessage, ensureSystemMessage]
    split_ifs
    · exact Or.inl rfl
    · exact Or.inr (lookup_length _ _)
    · exact Or.inl rfl
  · left
    rw [prepared, event, event, ensureInitialUserMessage, ensureSystemMessage]
    split_ifs
    · rfl
    · have hlong : (history.objects ++ [HistoryEvent.systemMessage P.systemPrompt]).length ≤ ref := by
        rw [List.length_append, List.length_singleton]
        exact hlt
      rw [lookup, lookup, List.getElem?_eq_none hlong, List.getElem?_eq_none hlt.le]
    · rfl

/-- The events of the prepared list are settled. -/
lemma SharedHistory.settled_prepared {history : SharedHistory} {initialUserAction : ℕ}
    (huser : (history.event initialUserAction).isUserMessage)
    (h : ∀ ref ∈ history.events, (history.event ref).Settled) :
    ∀ ref ∈ (history.prepared P initialUserAction).events,
      ((history.prepared P initialUserAction).event ref).Settled := by
  intro ref hmem
  rcases history.prepared_event_cases initialUserAction ref with heq | heq
  · rw [heq]
    have hsystem : ref = initialUserAction ∨ ref ∈ (history.ensureSystemMessage P).events :=
      mem_ensureInitialUserMessage hmem
    rcases hsystem with rfl | hmem
    · cases hevent : history.event ref with
      | message source content imageUrls => trivial
      | _ => rw [hevent] at huser; cases huser
    · rw [ensureSystemMessage] at hmem
      split_ifs at hmem
      · exact h ref hmem
      · rcases Slices.mem_insertAt.mp hmem with rfl | hmem
        · rw [event, lookup, List.getElem?_eq_none le_rfl]
          trivial
        · exact h ref hmem
      · exact h ref hmem
  · rw [heq]
    trivial

/-- The call as a loop over the prepared list. -/
lemma processHistory_eq (history : SharedHistory) (initialUserAction : ℕ) :
    processHistory P history initialUserAction =
      (let prepared := history.prepared P initialUserAction
       let done := run .unknownEvent (render P) absorb prepared.objects [] ([], ⟨.empty, .empty⟩)
         prepared.events
       (⟨done.1, prepared.events⟩, done.2.map fun state =>
         applyUserMessageFormatting none (filterUnmatchedToolCalls state.1))) := rfl

/-- **Building a prompt again**: a first call saves nothing in the events but the content of an
assistant message in an empty thought and the diff of a file edit, and a second call works on the
same list and returns the same messages. -/
theorem processHistory_again {history : SharedHistory} {initialUserAction : ℕ}
    (huser : (history.event initialUserAction).isUserMessage)
    (hsettled : ∀ ref ∈ history.events, (history.event ref).Settled) :
    (∀ ref < history.objects.length,
      Saves (history.event ref) ((processHistory P history initialUserAction).1.event ref)) ∧
    (processHistory P (processHistory P history initialUserAction).1 initialUserAction).1.events =
      (processHistory P history initialUserAction).1.events ∧
    (processHistory P (processHistory P history initialUserAction).1 initialUserAction).2 =
      (processHistory P history initialUserAction).2 := by
  set prepared := history.prepared P initialUserAction with hprepared
  have hall : ∀ ref ∈ prepared.events, (prepared.event ref).Settled :=
    SharedHistory.settled_prepared huser hsettled
  set first := run .unknownEvent (render P) absorb prepared.objects [] ([], ⟨.empty, .empty⟩)
    prepared.events with hfirst
  have hbase : Agree .unknownEvent (AsSaved P) prepared.objects prepared.objects :=
    fun _ => Or.inl rfl
  have hagree : Agree .unknownEvent (AsSaved P) prepared.objects first.1 := by
    refine agree_run (fun ref hmem seen a ha => ?_) hbase
    rw [render_fst]
    exact ha.saved (hall ref hmem)
  have hagain : SharedHistory.prepared P ⟨first.1, prepared.events⟩ initialUserAction =
      ⟨first.1, prepared.events⟩ := SharedHistory.prepared_again huser hagree
  rw [processHistory_eq, processHistory_eq]
  dsimp only
  rw [← hprepared, ← hfirst, hagain]
  refine ⟨fun ref href => ?_, rfl, ?_⟩
  · have hold := history.prepared_event (P := P) initialUserAction href
    rw [← hold]
    exact (hagree ref).saves
  · refine congrArg (Except.map _) ?_
    refine run_eq_of_agree (fun ref hmem seen seen' a hseen ha => ?_) hbase hagree
    exact render_asSaved (hall ref hmem) ha hseen

/-! ## A conversation that is told twice -/

/-- A setup without extensions. -/
def plainSetup : PromptSetup where
  enablePromptExtensions := false
  enableSomVisualBrowsing := false
  disabledMicroagents := []
  maxMessageChars := none
  visionIsActive := false
  systemPrompt := "You are a coding agent."
  buildWorkspaceContext := fun _ _ _ _ => ""
  buildMicroagentInfo := fun _ => ""
  editGroups := fun oldContent newContent => [(["-1|" ++ oldContent], ["+1|" ++ newContent])]

/-- The metadata of a call that is alone in its response. -/
def callMetadata (callId content : String) : CallMetadata :=
  ⟨"tool", callId, ⟨"chat_" ++ callId, .assistant, some content, some [⟨callId, "tool"⟩]⟩⟩

/-- An edit of a file, and the agent that finishes with a thought. -/
def finishedHistory (thought : String) : SharedHistory where
  objects :=
    [.message (some .user) (some "Fix it.") none,
      .toolAction (some (callMetadata "a" "The name is wrong.")),
      .fileEdit ⟨"", "main.py", true, some "nmae", some "name", .llmBasedEdit, none⟩
        (some (callMetadata "a" "The name is wrong.")),
      .finish (some .agent) thought (some (callMetadata "b" "All tests pass."))]
  events := [0, 1, 2, 3]

/-- A finish action without a thought, and a diff that is not cached. -/
theorem processHistory_again_run :
    (∀ ref < (finishedHistory "").objects.length, Saves ((finishedHistory "").event ref)
      ((processHistory plainSetup (finishedHistory "") 0).1.event ref)) ∧
    (processHistory plainSetup (processHistory plainSetup (finishedHistory "") 0).1 0).1.events =
      (processHistory plainSetup (finishedHistory "") 0).1.events ∧
    (processHistory plainSetup (processHistory plainSetup (finishedHistory "") 0).1 0).2 =
      (processHistory plainSetup (finishedHistory "") 0).2 :=
  processHistory_again rfl (by
    have hmessage (content : String) :
        (HistoryEvent.message (some .user) (some content) none).Settled := trivial
    have hfinish (source : Option EventSource) (metadata : CallMetadata) :
        (HistoryEvent.finish source "" (some metadata)).Settled := Or.inl rfl
    intro ref href
    simp only [finishedHistory, List.mem_cons, List.not_mem_nil, or_false] at href
    rcases href with rfl | rfl | rfl | rfl
    · exact hmessage _
    · trivial
    · trivial
    · exact hfinish _ _)

/-- The first call changes the thought of the finish action and the cache of the file edit, and a
thought that differs from the content gets the content once more in the second call. -/
theorem not_unchanged_finish :
    (processHistory plainSetup (finishedHistory "") 0).1.event 3 ≠ (finishedHistory "").event 3 ∧
    (processHistory plainSetup (finishedHistory "") 0).1.event 2 ≠ (finishedHistory "").event 2 ∧
    (processHistory plainSetup (processHistory plainSetup (finishedHistory "Done.") 0).1 0).2 ≠
      (processHistory plainSetup (finishedHistory "Done.") 0).2 := by
  refine ⟨?_, ?_, fun heq => ?_⟩
  · show HistoryEvent.finish _ "All tests pass." _ ≠ .finish _ "" _
    simp
  · show HistoryEvent.fileEdit ⟨_, _, _, _, _, _, some _⟩ _ ≠ .fileEdit ⟨_, _, _, _, _, _, none⟩ _
    simp
  · have hlast := congrArg (Except.map fun messages => messages.getLast?.map Message.content) heq
    revert hlast
    decide

end ProRLAgent.Memory
