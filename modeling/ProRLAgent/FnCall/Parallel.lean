import ProRLAgent.FnCall.Prompts
import ProRLAgent.Lib.Dict
import ProRLAgent.Lib.Except

set_option relaxedAutoImplicit false
set_option autoImplicit false

/-!
# Parallel tool calls

An assistant message with several tool calls is split into one message for each call, and each of
them is put before its result. The calls wait in a table for their results.

The conversion looks at the roles, the contents, the tool calls with their ids and the ids of the
results. What else a message or a call has is carried along, so it is a type of its own: marks put
on messages and calls tell where the parts of the output come from.

## Main definitions

* `ProRLAgent.Parallel.Message` — a chat message.
* `ProRLAgent.Parallel.convertFromMultipleToolCallsToSingleToolCallMessages` — the conversion.

## Main results

* `ProRLAgent.Parallel.step_cases` — what one message does.
* `ProRLAgent.Parallel.convert_map` — the conversion does not look at marks.
-/

namespace ProRLAgent.Parallel

open FnCall (ConverterError)

/-! ## Messages -/

/-- A tool call: its id, `none` if it has no such key, and its other keys. -/
structure ToolCall (ι κ : Type) where
  id : Option ι
  fields : κ

/-- A chat message. The tool calls are `none` if the key is absent or holds `None`; `fields` are the
other keys. -/
structure Message (ι κ β τ : Type) where
  role : Role
  content : β
  toolCalls : Option (List (ToolCall ι κ))
  toolCallId : Option ι
  fields : τ

variable {ι κ κ' β τ τ' : Type}

/-- The tool calls of a message. -/
def Message.calls (message : Message ι κ β τ) : List (ToolCall ι κ) := message.toolCalls.getD []

/-- An assistant message with several tool calls. -/
def Message.IsParallel (message : Message ι κ β τ) : Prop :=
  message.role = .assistant ∧ 1 < message.calls.length

instance (message : Message ι κ β τ) : Decidable message.IsParallel :=
  inferInstanceAs (Decidable (_ ∧ _))

/-- A tool call with other keys. -/
def ToolCall.map (f : κ → κ') (call : ToolCall ι κ) : ToolCall ι κ' := ⟨call.id, f call.fields⟩

/-- A message with other keys. -/
def Message.map (f : κ → κ') (g : τ → τ') (message : Message ι κ β τ) : Message ι κ' β τ' where
  role := message.role
  content := message.content
  toolCalls := message.toolCalls.map (List.map (ToolCall.map f))
  toolCallId := message.toolCallId
  fields := g message.fields

@[simp] lemma Message.role_map (f : κ → κ') (g : τ → τ') (message : Message ι κ β τ) :
    (message.map f g).role = message.role := rfl

@[simp] lemma Message.content_map (f : κ → κ') (g : τ → τ') (message : Message ι κ β τ) :
    (message.map f g).content = message.content := rfl

@[simp] lemma Message.toolCallId_map (f : κ → κ') (g : τ → τ') (message : Message ι κ β τ) :
    (message.map f g).toolCallId = message.toolCallId := rfl

@[simp] lemma Message.calls_map (f : κ → κ') (g : τ → τ') (message : Message ι κ β τ) :
    (message.map f g).calls = message.calls.map (ToolCall.map f) := by
  rw [calls, map, calls]
  cases message.toolCalls <;> rfl

@[simp] lemma Message.isParallel_map (f : κ → κ') (g : τ → τ') (message : Message ι κ β τ) :
    (message.map f g).IsParallel ↔ message.IsParallel := by
  rw [IsParallel, IsParallel, role_map, calls_map, List.length_map]

/-! ## The conversion -/

section Convert

variable [DecidableEq ι] (emptyContent : β) (noFields : τ)

/-- The message for call `i` of a message: the first one has its content, the others the empty
one. -/
def toolCallMessage (content : β) (i : ℕ) (toolCall : ToolCall ι κ) : Message ι κ β τ where
  role := .assistant
  content := if i = 0 then content else emptyContent
  toolCalls := some [toolCall]
  toolCallId := none
  fields := noFields

/-- The calls of a message, from call `i` on, are put into the table. -/
def addToolCalls (content : β) : ℕ → List (ToolCall ι κ) → Dict ι (Message ι κ β τ) →
    Except ConverterError (Dict ι (Message ι κ β τ))
  | _, [], pending => return pending
  | i, toolCall :: toolCalls, pending =>
    match toolCall.id with
    | none => throw (.python (.keyError "id"))
    | some id => addToolCalls content (i + 1) toolCalls
        (pending.set id (toolCallMessage emptyContent noFields content i toolCall))

/-- One message: the new table, and the messages that are put out. -/
def step (pending : Dict ι (Message ι κ β τ)) (message : Message ι κ β τ) :
    Except ConverterError (Dict ι (Message ι κ β τ) × List (Message ι κ β τ)) :=
  match message.role with
  | .assistant =>
    if 1 < message.calls.length then do
      let pending ← addToolCalls emptyContent noFields message.content 0 message.calls pending
      return (pending, [])
    else return (pending, [message])
  | .tool =>
    match message.toolCallId with
    | none => throw (.python (.keyError "tool_call_id"))
    | some id =>
      match pending.get? id with
      | some toolCallMessage => return (pending.erase id, [toolCallMessage, message])
      | none =>
        if pending.entries ≠ [] then throw (.python .assertionError)
        else return (pending, [message])
  | .system | .user =>
    if pending.entries ≠ [] then throw (.python .assertionError) else return (pending, [message])

/-- The loop over the messages. -/
def convertMessages (pending : Dict ι (Message ι κ β τ)) :
    List (Message ι κ β τ) →
      Except ConverterError (Dict ι (Message ι κ β τ) × List (Message ι κ β τ))
  | [] => return (pending, [])
  | message :: messages => do
    let (pending, converted) ← step emptyContent noFields pending message
    let (pending, rest) ← convertMessages pending messages
    return (pending, converted ++ rest)

/-- The function `convert_from_multiple_tool_calls_to_single_tool_call_messages`. -/
def convertFromMultipleToolCallsToSingleToolCallMessages (messages : List (Message ι κ β τ))
    (ignoreFinalToolResult : Bool) : Except ConverterError (List (Message ι κ β τ)) := do
  let (pending, converted) ← convertMessages emptyContent noFields Dict.empty messages
  if !ignoreFinalToolResult ∧ pending.entries ≠ [] then
    throw (.conversion "Found pending tool calls but no tool result: ")
  return converted

end Convert

/-! ## One message -/

section Step

variable [DecidableEq ι] {emptyContent : β} {noFields : τ}
  {pending pending' : Dict ι (Message ι κ β τ)} {message : Message ι κ β τ}
  {converted : List (Message ι κ β τ)}

/-- **What one message does**: several calls are put into the table; a result takes its call out of
the table and comes behind it; another assistant message passes; all others pass if no call
waits. -/
theorem step_cases (h : step emptyContent noFields pending message = .ok (pending', converted)) :
    (message.IsParallel ∧ addToolCalls emptyContent noFields message.content 0 message.calls pending
        = .ok pending' ∧ converted = []) ∨
    (message.role = .tool ∧ ∃ id toolCallMessage, message.toolCallId = some id ∧
      pending.get? id = some toolCallMessage ∧ pending' = pending.erase id ∧
      converted = [toolCallMessage, message]) ∨
    (¬ message.IsParallel ∧ (message.role = .assistant ∨ pending.entries = []) ∧
      pending' = pending ∧ converted = [message]) := by
  rw [step] at h
  cases hrole : message.role with
  | assistant =>
    simp only [hrole] at h
    split_ifs at h with hcalls
    · obtain ⟨added, hadded, heq⟩ := Except.bind_eq_ok.mp h
      obtain ⟨rfl, rfl⟩ := Prod.mk.inj (Except.ok.inj heq)
      exact Or.inl ⟨⟨hrole, hcalls⟩, hadded, rfl⟩
    · obtain ⟨rfl, rfl⟩ := Prod.mk.inj (Except.ok.inj h)
      exact Or.inr (Or.inr ⟨fun hpar => hcalls hpar.2, Or.inl rfl, rfl, rfl⟩)
  | tool =>
    have hpar : ¬ message.IsParallel := fun hpar => by
      rw [hpar.1] at hrole
      cases hrole
    simp only [hrole] at h
    split at h
    · cases h
    · rename_i id hid
      split at h
      · rename_i toolCallMessage hget
        obtain ⟨rfl, rfl⟩ := Prod.mk.inj (Except.ok.inj h)
        exact Or.inr (Or.inl ⟨rfl, id, toolCallMessage, hid, hget, rfl, rfl⟩)
      · split_ifs at h with hempty
        obtain ⟨rfl, rfl⟩ := Prod.mk.inj (Except.ok.inj h)
        exact Or.inr (Or.inr ⟨hpar, Or.inr (not_not.mp hempty), rfl, rfl⟩)
  | _ =>
    have hpar : ¬ message.IsParallel := fun hpar => by
      rw [hpar.1] at hrole
      cases hrole
    simp only [hrole] at h
    split_ifs at h with hempty
    obtain ⟨rfl, rfl⟩ := Prod.mk.inj (Except.ok.inj h)
    exact Or.inr (Or.inr ⟨hpar, Or.inr (not_not.mp hempty), rfl, rfl⟩)

/-- **The calls of a message in the table**: every call has an id, and calls with new ids are put
behind the others. -/
theorem addToolCalls_spec {content : β} {i : ℕ} {calls : List (ToolCall ι κ)}
    (h : addToolCalls emptyContent noFields content i calls pending = .ok pending')
    (hids : (calls.filterMap ToolCall.id).Nodup)
    (hnew : ∀ call ∈ calls, ∀ id, call.id = some id → pending.get? id = none) :
    (∀ call ∈ calls, call.id.isSome) ∧
      ∃ added, pending'.entries = pending.entries ++ added ∧
        (added.flatMap fun e => e.2.calls) = calls ∧
        ∀ e, e ∈ added ↔ ∃ j call, calls[j]? = some call ∧ call.id = some e.1 ∧
          e.2 = toolCallMessage emptyContent noFields content (i + j) call := by
  induction calls generalizing i pending with
  | nil =>
    obtain rfl := Except.ok.inj h
    exact ⟨by simp, [], by simp, rfl, by simp⟩
  | cons call calls ih =>
    obtain ⟨hcall, hcalls⟩ := List.forall_mem_cons.mp hnew
    rw [addToolCalls] at h
    cases hid : call.id with
    | none =>
      rw [hid] at h
      cases h
    | some id =>
      rw [hid] at h
      rw [List.filterMap_cons_some hid, List.nodup_cons, List.mem_filterMap] at hids
      have hnew' : ∀ other ∈ calls, ∀ id', other.id = some id' →
          (pending.set id (toolCallMessage emptyContent noFields content i call)).get? id' =
            none := by
        intro other hother id' hid'
        have hne : id' ≠ id := by
          rintro rfl
          exact hids.1 ⟨other, hother, hid'⟩
        rw [Dict.get?_set, if_neg hne]
        exact hcalls other hother id' hid'
      obtain ⟨hsome, added, hentries, hflat, hadded⟩ := ih h hids.2 hnew'
      refine ⟨List.forall_mem_cons.mpr ⟨by rw [hid]; rfl, hsome⟩,
        (id, toolCallMessage emptyContent noFields content i call) :: added, ?_, ?_, ?_⟩
      · rw [hentries, Dict.entries_set_of_get?_eq_none (hcall id hid), List.append_assoc]
        rfl
      · rw [List.flatMap_cons, hflat]
        rfl
      · intro e
        rw [List.mem_cons, hadded]
        constructor
        · rintro (rfl | ⟨j, other, hj, hother, he⟩)
          · exact ⟨0, call, rfl, hid, rfl⟩
          · exact ⟨j + 1, other, hj, hother, by rw [he, Nat.add_right_comm, Nat.add_assoc]⟩
        · rintro ⟨j, other, hj, hother, he⟩
          cases j with
          | zero =>
            obtain rfl := Option.some.inj hj
            rw [hid] at hother
            exact Or.inl (Prod.ext (Option.some.inj hother).symm he)
          | succ j => exact Or.inr ⟨j, other, hj, hother, by
              rw [he, Nat.add_right_comm, Nat.add_assoc]⟩

/-- The loop takes the first message, then the others. -/
lemma convertMessages_cons {messages : List (Message ι κ β τ)} :
    convertMessages emptyContent noFields pending (message :: messages) =
        .ok (pending', converted) ↔
      ∃ between first second, step emptyContent noFields pending message = .ok (between, first) ∧
        convertMessages emptyContent noFields between messages = .ok (pending', second) ∧
        converted = first ++ second := by
  simp only [convertMessages, Except.bind_eq_ok]
  constructor
  · rintro ⟨⟨between, first⟩, hstep, ⟨_, second⟩, hrest, heq⟩
    obtain ⟨rfl, rfl⟩ := Prod.mk.inj (Except.ok.inj heq)
    exact ⟨between, first, second, hstep, hrest, rfl⟩
  · rintro ⟨between, first, second, hstep, hrest, rfl⟩
    exact ⟨_, hstep, _, hrest, rfl⟩

/-- The loop goes over the messages in order. -/
lemma convertMessages_append {messages messages' : List (Message ι κ β τ)} :
    convertMessages emptyContent noFields pending (messages ++ messages') =
        .ok (pending', converted) ↔
      ∃ between first second,
        convertMessages emptyContent noFields pending messages = .ok (between, first) ∧
        convertMessages emptyContent noFields between messages' = .ok (pending', second) ∧
        converted = first ++ second := by
  induction messages generalizing pending converted with
  | nil =>
    constructor
    · exact fun h => ⟨pending, [], converted, rfl, h, rfl⟩
    · rintro ⟨between, first, second, hfirst, hsecond, rfl⟩
      obtain ⟨rfl, rfl⟩ := Prod.mk.inj (Except.ok.inj hfirst)
      exact hsecond
  | cons message messages ih =>
    simp only [List.cons_append, convertMessages_cons, ih]
    constructor
    · rintro ⟨_, start, _, hstart, ⟨between, first, second, hfirst, hsecond, rfl⟩, rfl⟩
      exact ⟨between, start ++ first, second, ⟨_, start, first, hstart, hfirst, rfl⟩, hsecond,
        (List.append_assoc _ _ _).symm⟩
    · rintro ⟨between, _, second, ⟨_, start, first, hstart, hfirst, rfl⟩, hsecond, rfl⟩
      exact ⟨_, start, _, hstart, ⟨between, first, second, hfirst, hsecond, rfl⟩,
        List.append_assoc _ _ _⟩

/-- The loop takes the last message behind the others. -/
lemma convertMessages_concat {messages : List (Message ι κ β τ)} :
    convertMessages emptyContent noFields pending (messages ++ [message]) =
        .ok (pending', converted) ↔
      ∃ between first second,
        convertMessages emptyContent noFields pending messages = .ok (between, first) ∧
        step emptyContent noFields between message = .ok (pending', second) ∧
        converted = first ++ second := by
  rw [convertMessages_append]
  refine exists_congr fun between => exists_congr fun first => exists_congr fun second => ?_
  refine and_congr_right fun _ => and_congr_left fun _ => ?_
  rw [convertMessages_cons]
  constructor
  · rintro ⟨_, first', _, hstep, hrest, rfl⟩
    obtain ⟨rfl, rfl⟩ := Prod.mk.inj (Except.ok.inj hrest)
    rwa [List.append_nil]
  · exact fun hstep => ⟨pending', second, [], hstep, rfl, (List.append_nil _).symm⟩

end Step

/-! ## Other keys -/

section Map

variable [DecidableEq ι] (emptyContent : β) (noFields : τ) (f : κ → κ') (g : τ → τ')

/-- The calls of a message with other keys. -/
lemma addToolCalls_map (content : β) (i : ℕ) (calls : List (ToolCall ι κ))
    (pending : Dict ι (Message ι κ β τ)) :
    addToolCalls emptyContent (g noFields) content i (calls.map (ToolCall.map f))
        (pending.mapValues (Message.map f g)) =
      (addToolCalls emptyContent noFields content i calls pending).map
        (Dict.mapValues (Message.map f g)) := by
  induction calls generalizing i pending with
  | nil => rfl
  | cons call calls ih =>
    have hid : (call.map f).id = call.id := rfl
    rw [List.map_cons, addToolCalls, addToolCalls, hid]
    cases call.id with
    | none => rfl
    | some id =>
      dsimp only
      rw [← ih, Dict.mapValues_set]
      rfl

/-- One message with other keys. -/
lemma step_map (pending : Dict ι (Message ι κ β τ)) (message : Message ι κ β τ) :
    step emptyContent (g noFields) (pending.mapValues (Message.map f g)) (message.map f g) =
      (step emptyContent noFields pending message).map fun result =>
        (result.1.mapValues (Message.map f g), result.2.map (Message.map f g)) := by
  have hempty : (pending.mapValues (Message.map f g)).entries = [] ↔ pending.entries = [] :=
    List.map_eq_nil_iff
  simp only [step, Message.role_map, Message.toolCallId_map, Message.content_map,
    Message.calls_map, List.length_map, hempty, ne_eq]
  cases message.role with
  | assistant =>
    dsimp only
    split_ifs
    · rw [addToolCalls_map]
      cases addToolCalls emptyContent noFields message.content 0 message.calls pending <;> rfl
    · rfl
  | tool =>
    dsimp only
    cases message.toolCallId with
    | none => rfl
    | some id =>
      dsimp only
      rw [Dict.get?_mapValues]
      cases pending.get? id with
      | none =>
        dsimp only [Option.map_none]
        split_ifs <;> rfl
      | some waiting => exact congrArg Except.ok (Prod.ext (Dict.mapValues_erase _ _ _).symm rfl)
  | _ =>
    dsimp only
    split_ifs <;> rfl

/-- The loop over messages with other keys. -/
lemma convertMessages_map (pending : Dict ι (Message ι κ β τ))
    (messages : List (Message ι κ β τ)) :
    convertMessages emptyContent (g noFields) (pending.mapValues (Message.map f g))
        (messages.map (Message.map f g)) =
      (convertMessages emptyContent noFields pending messages).map fun result =>
        (result.1.mapValues (Message.map f g), result.2.map (Message.map f g)) := by
  induction messages generalizing pending with
  | nil => rfl
  | cons message messages ih =>
    rw [List.map_cons, convertMessages, convertMessages, step_map]
    cases step emptyContent noFields pending message with
    | error err => rfl
    | ok result =>
      simp only [Except.map, Except.ok_bind, ih]
      cases convertMessages emptyContent noFields result.1 messages with
      | error err => rfl
      | ok rest => exact congrArg Except.ok (Prod.ext rfl List.map_append.symm)

/-- **The conversion does not look at other keys**: it carries them along. -/
theorem convert_map (messages : List (Message ι κ β τ)) (ignoreFinalToolResult : Bool) :
    convertFromMultipleToolCallsToSingleToolCallMessages emptyContent (g noFields)
        (messages.map (Message.map f g)) ignoreFinalToolResult =
      (convertFromMultipleToolCallsToSingleToolCallMessages emptyContent noFields messages
        ignoreFinalToolResult).map (List.map (Message.map f g)) := by
  have hstart : (Dict.empty : Dict ι (Message ι κ' β τ')) =
      (Dict.empty : Dict ι (Message ι κ β τ)).mapValues (Message.map f g) := rfl
  rw [convertFromMultipleToolCallsToSingleToolCallMessages,
    convertFromMultipleToolCallsToSingleToolCallMessages, hstart, convertMessages_map]
  cases convertMessages emptyContent noFields Dict.empty messages with
  | error err => rfl
  | ok result =>
    have hempty : (result.1.mapValues (Message.map f g)).entries = [] ↔ result.1.entries = [] :=
      List.map_eq_nil_iff
    simp only [Except.map, Except.ok_bind, ne_eq, hempty]
    split_ifs <;> rfl

end Map

end ProRLAgent.Parallel
