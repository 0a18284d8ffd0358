import Mathlib.Data.List.Chain
import Mathlib.Data.List.Infix
import Mathlib.Data.List.DropRight
import ProRLAgent.Tokens.Qwen3

set_option relaxedAutoImplicit false
set_option autoImplicit false

/-!
# Training tokens and generated tokens

The message loop of `process_messages_from_agent_state` (`openhands/nvidia/utils.py`) attaches
token ids to every message of a finished conversation: an answered assistant message keeps the
ids that were sampled, every other message is tokenized on its own. The loop passes one message
at a time to `convert_messages_to_tokens`, so each of them is the last of its list and gets the
generation prompt, while at generation time only the last pending message gets it.

## Main definitions

* `ProRLAgent.processMessages` — the loop, with the preceding cut of trailing messages.
* `ProRLAgent.Conversation` — the append-only conversations.
* `ProRLAgent.TokensAgree` — the attached ids up to an assistant message are the input and
  output ids of the call that produced it.
* `ProRLAgent.AnsweredAtOnce` — every user or tool message is followed by an assistant message.

## Main results

* `ProRLAgent.tokensAgree_iff_answeredAtOnce` — the two token streams agree exactly on the
  conversations that answer every user or tool message at once.
-/

namespace ProRLAgent

variable {Tool : Type}

/-! ## The message loop -/

/-- A message as the loop hands it to the trainer. -/
structure TrainingMessage where
  role : Role
  content : String
  toolCalls : Option (List FunctionCall)
  tokenIds : List Token
  inputIds : Option (List Token)
  logprobs : Option (List Float)

/-- The result of the loop. -/
structure ProcessedMessages where
  messages : List TrainingMessage
  endProperly : Bool

/-- The text of a content in the loop: an empty list stands for the empty text. -/
def Content.trainingText : Content → Except PyError String
  | .items [] => .ok ""
  | content => content.text

/-- The tool calls as the loop keeps them: the `function` entry of each. -/
def Message.functions (message : Message) : Option (List FunctionCall) :=
  message.toolCalls.map fun calls => calls.map Prod.snd

/-- The ids that the loop attaches to a message: its output ids, or else the ids of the new
message converted on its own. -/
def messageTokenIds (T : Tokenizer Tool) (enableThinking : Bool) (tools : List Tool)
    (message : Message) (content : String) : Except PyError (List Token) :=
  match message.outputIds with
  | some outputIds => .ok outputIds
  | none => do
    let tokenList ← convertMessagesToTokens T .qwen3 true enableThinking tools
      [⟨message.role, .str content, message.functions.map fun calls => calls.map .function, none,
        none, none⟩]
    match tokenList with
    | tokenIds :: _ => .ok tokenIds
    | [] => .error .indexError

/-- The loop body up to the end of the token block. -/
def newMessage (T : Tokenizer Tool) (enableThinking : Bool) (tools : List Tool)
    (message : Message) : Except PyError TrainingMessage := do
  let content ← message.content.trainingText
  let tokenIds ← messageTokenIds T enableThinking tools message content
  return ⟨message.role, content, message.functions, tokenIds, message.inputIds, message.logprobs⟩

/-- An assistant text that opens its reasoning and never closes it. -/
def leavesThinkingOpen (role : Role) (content : String) : Bool :=
  role = .assistant && decide ("<think>".toList <:+: content.toList) &&
    !decide ("</think>".toList <:+: content.toList)

/-- The text of one tool call inside an unfinished reasoning text. -/
def toolCallText (call : FunctionCall) : String :=
  "\n<tool_call>\n\x7b\"name\": \"" ++ call.name ++ "\", \"arguments\": " ++ call.arguments ++
    "\x7d\n</tool_call>"

/-- Move the tool calls of an unfinished reasoning text into the text and close it. -/
def closeThinking (m : TrainingMessage) : TrainingMessage :=
  match m.toolCalls with
  | none => m
  | some calls =>
    { m with
      content := m.content ++ "\n" ++ String.join (calls.map toolCallText) ++ "</think>"
      toolCalls := none }

/-- The loop over the messages. With `ensureThinkingEndProperly` it returns at the first
assistant message whose reasoning is left open. -/
def processLoop (T : Tokenizer Tool) (enableThinking : Bool) (tools : List Tool)
    (ensureThinkingEndProperly endProperly : Bool) :
    List Message → Except PyError ProcessedMessages
  | [] => .ok ⟨[], endProperly⟩
  | message :: rest => do
    let new ← newMessage T enableThinking tools message
    if ensureThinkingEndProperly && leavesThinkingOpen new.role new.content then
      return ⟨[closeThinking new], false⟩
    let out ← processLoop T enableThinking tools ensureThinkingEndProperly endProperly rest
    return ⟨new :: out.messages, out.endProperly⟩

/-- Cut the messages after the last assistant message, then run the loop. -/
def processMessages (T : Tokenizer Tool) (enableThinking : Bool) (tools : List Tool)
    (ensureThinkingEndProperly endProperly : Bool) (messages : List Message) :
    Except PyError ProcessedMessages :=
  processLoop T enableThinking tools ensureThinkingEndProperly endProperly
    (messages.rdropWhile fun m => m.role ≠ .assistant)

/-! ## What the loop attaches -/

/-- The ids attached to a message, empty if the message makes the loop raise. -/
def attachedIds (T : Tokenizer Tool) (e : Bool) (tools : List Tool) (m : Message) : List Token :=
  match newMessage T e tools m with
  | .ok new => new.tokenIds
  | .error _ => []

/-- The loop returns at this message. -/
def stopsAt (ensure : Bool) (m : Message) : Bool :=
  match m.content.trainingText with
  | .ok s => ensure && leavesThinkingOpen m.role s
  | .error _ => false

/-- The messages that the loop reaches. -/
def reached (ensure : Bool) : List Message → List Message
  | [] => []
  | m :: ms => if stopsAt ensure m then [m] else m :: reached ensure ms

/-- Closing an open reasoning text keeps the ids. -/
@[simp] lemma closeThinking_tokenIds (m : TrainingMessage) :
    (closeThinking m).tokenIds = m.tokenIds := by
  unfold closeThinking
  split <;> rfl

/-- A message is converted when it has a text and its ids can be computed. -/
lemma newMessage_eq_ok (T : Tokenizer Tool) (e : Bool) (tools : List Tool) (m : Message)
    (new : TrainingMessage) :
    newMessage T e tools m = .ok new ↔ ∃ s ids, m.content.trainingText = .ok s ∧
      messageTokenIds T e tools m s = .ok ids ∧
      new = ⟨m.role, s, m.functions, ids, m.inputIds, m.logprobs⟩ := by
  unfold newMessage
  cases hs : m.content.trainingText with
  | error err => simp [bind, Except.bind]
  | ok s =>
    cases hids : messageTokenIds T e tools m s with
    | error err => simp [hids, bind, Except.bind]
    | ok ids => simp [hids, bind, Except.bind, pure, Except.pure, eq_comm]

/-- The loop over messages that can be converted returns the attached ids of the messages it
reaches. -/
lemma processLoop_tokenIds (T : Tokenizer Tool) (e : Bool) (tools : List Tool)
    (ensure endProperly : Bool) (ms : List Message)
    (hms : ∀ m ∈ ms, ∃ new, newMessage T e tools m = .ok new) :
    ∃ out, processLoop T e tools ensure endProperly ms = .ok out ∧
      out.messages.map TrainingMessage.tokenIds =
        (reached ensure ms).map (attachedIds T e tools) := by
  induction ms with
  | nil => exact ⟨⟨[], endProperly⟩, rfl, rfl⟩
  | cons m ms ih =>
    obtain ⟨new, hnew⟩ := hms m (by simp)
    obtain ⟨s, ids, htext, hids', rfl⟩ := (newMessage_eq_ok T e tools m new).mp hnew
    obtain ⟨out, hout, hids⟩ := ih fun m' hm' => hms m' (by simp [hm'])
    have hattached : attachedIds T e tools m = ids := by simp [attachedIds, hnew]
    have hstop : (ensure && leavesThinkingOpen m.role s) = stopsAt ensure m := by
      simp [stopsAt, htext]
    simp only [processLoop, hnew, hout, bind, Except.bind, hstop, reached]
    by_cases hs : stopsAt ensure m = true
    · simp [hs, pure, Except.pure, hattached]
    · simp [hs, pure, Except.pure, hattached, hids]

/-- The loop reaches an initial part of the messages. -/
lemma reached_isPrefix (ensure : Bool) (ms : List Message) : reached ensure ms <+: ms := by
  induction ms with
  | nil => exact List.prefix_rfl
  | cons m ms ih =>
    unfold reached
    split_ifs with hs
    · exact ⟨ms, rfl⟩
    · exact List.cons_prefix_cons.mpr ⟨rfl, ih⟩

/-- An answered message keeps its output ids. -/
lemma attachedIds_of_outputIds (T : Tokenizer Tool) (e : Bool) (tools : List Tool) (m : Message)
    (s : String) (o : List Token) (hs : m.content.trainingText = .ok s)
    (ho : m.outputIds = some o) :
    (∃ new, newMessage T e tools m = .ok new) ∧ attachedIds T e tools m = o := by
  have hnew := (newMessage_eq_ok T e tools m _).mpr ⟨s, o, hs, by simp [messageTokenIds, ho], rfl⟩
  exact ⟨⟨_, hnew⟩, by simp [attachedIds, hnew]⟩

/-- Any other message is tokenized with the generation prompt. -/
lemma attachedIds_of_pending (T : Tokenizer Tool) (e : Bool) (tools : List Tool) (m : Message)
    (s : String) (hs : m.content.text = .ok s) (ho : m.outputIds = none)
    (hr : m.role ≠ .assistant) :
    (∃ new, newMessage T e tools m = .ok new) ∧
      attachedIds T e tools m = turnTokens T e tools true m.role s := by
  have htext : m.content.trainingText = .ok s := by
    unfold Content.trainingText
    split
    · rename_i heq
      simp [heq, Content.text] at hs
    · exact hs
  have hturn := applyChatTemplate_eq_turnTokens T e tools ⟨m.role, .str s,
    m.functions.map fun calls => calls.map .function, none, none, none⟩ s hr true
  have hids : messageTokenIds T e tools m s = .ok (turnTokens T e tools true m.role s) := by
    simp [messageTokenIds, ho, convertMessagesToTokens, Content.text, bind, Except.bind, pure,
      Except.pure, ← hturn]
  have hnew := (newMessage_eq_ok T e tools m _).mpr ⟨s, _, htext, hids, rfl⟩
  exact ⟨⟨_, hnew⟩, by simp [attachedIds, hnew]⟩

/-! ## Append-only conversations -/

/-- The append-only conversations: a system, user or tool message carries no ids, and an
assistant message carries the ids of a request on the messages before it. The inference server
may answer each request differently. -/
inductive Conversation (T : Tokenizer Tool) (maxModelLen : ℤ) (e : Bool) (tools : List Tool) :
    List Message → Prop
  | nil : Conversation T maxModelLen e tools []
  | message (ms : List Message) (m : Message) (h : Conversation T maxModelLen e tools ms)
      (hrole : m.role ≠ .assistant) (hin : m.inputIds = none) (hout : m.outputIds = none) :
      Conversation T maxModelLen e tools (ms ++ [m])
  | answer (ms : List Message) (m : Message) (s : String) (res : GenerateResult)
      (post : List Token → ℤ → Except PyError GenerateResponse)
      (h : Conversation T maxModelLen e tools ms) (hrole : m.role = .assistant)
      (hres : requestResponseTokens T maxModelLen e tools post ms = .ok res)
      (hin : m.inputIds = some res.inputIds) (hout : m.outputIds = some res.outputIds)
      (htext : m.content.trainingText = .ok s) :
      Conversation T maxModelLen e tools (ms ++ [m])

/-- The messages after the last answered one, oldest first. -/
def pendingMessages (ms : List Message) : List Message := (collectPending ms.reverse).2.reverse

/-- The ids of the last answered turn. -/
def answeredIds (ms : List Message) : List Token := (collectPending ms.reverse).1

section Conversations

variable {T : Tokenizer Tool} {maxModelLen : ℤ} {e : Bool} {tools : List Tool}

/-- A message without ids joins the pending ones. -/
lemma pendingMessages_concat_of_none (ms : List Message) (m : Message) (h : m.outputIds = none) :
    pendingMessages (ms ++ [m]) = pendingMessages ms ++ [m] ∧
      answeredIds (ms ++ [m]) = answeredIds ms := by
  simp [pendingMessages, answeredIds, collectPending, h]

/-- An answered message leaves nothing pending. -/
lemma pendingMessages_concat_of_some (ms : List Message) (m : Message) (i o : List Token)
    (hi : m.inputIds = some i) (h : m.outputIds = some o) :
    pendingMessages (ms ++ [m]) = [] ∧ answeredIds (ms ++ [m]) = i ++ o := by
  simp [pendingMessages, answeredIds, collectPending, h, hi]

/-- No pending message is an assistant message. -/
lemma Conversation.pending_roles {ms : List Message} (h : Conversation T maxModelLen e tools ms) :
    ∀ m ∈ pendingMessages ms, m.role ≠ .assistant ∧ m.outputIds = none := by
  induction h with
  | nil => simp [pendingMessages, collectPending]
  | message ms m h hrole hin hout ih =>
    rw [(pendingMessages_concat_of_none _ _ hout).1]
    intro x hx
    rcases List.mem_append.mp hx with hx | hx
    · exact ih x hx
    · rw [List.mem_singleton.mp hx]
      exact ⟨hrole, hout⟩
  | answer ms m s res post h hrole hres hin hout htext ih =>
    simp [(pendingMessages_concat_of_some _ _ _ _ hin hout).1]

/-- The last message is pending or an assistant message. -/
lemma Conversation.getLast_pending {ms : List Message}
    (h : Conversation T maxModelLen e tools ms) :
    ∀ m ∈ ms.getLast?, m.role = .assistant ∨ m ∈ (pendingMessages ms).getLast? := by
  cases h with
  | nil => simp
  | message ms m h hrole hin hout =>
    intro x hx
    right
    rw [(pendingMessages_concat_of_none _ _ hout).1]
    simpa using hx
  | answer ms m s res post h hrole hres hin hout htext =>
    intro x hx
    left
    obtain rfl : m = x := by simpa using hx
    exact hrole

/-- The part of a conversation before a message is a conversation. -/
lemma Conversation.of_concat {ms : List Message} {m : Message}
    (h : Conversation T maxModelLen e tools (ms ++ [m])) :
    Conversation T maxModelLen e tools ms := by
  generalize hl : ms ++ [m] = l at h
  cases h with
  | nil => simp at hl
  | message ms m h hrole hin hout => exact (List.append_inj' hl rfl).1 ▸ h
  | answer ms m s res post h hrole hres hin hout htext => exact (List.append_inj' hl rfl).1 ▸ h

/-- An initial part of a conversation is a conversation. -/
lemma Conversation.of_prefix {ms ms' : List Message} (h : Conversation T maxModelLen e tools ms')
    (hp : ms <+: ms') : Conversation T maxModelLen e tools ms := by
  obtain ⟨t, rfl⟩ := hp
  induction t using List.reverseRecOn with
  | nil => simpa using h
  | append_singleton t m ih =>
    rw [← List.append_assoc] at h
    exact ih h.of_concat

end Conversations

/-! ## The generation prompt -/

/-- The generation prompt is not empty: with it a user or tool message has more tokens. -/
def Tokenizer.PromptsGeneration (T : Tokenizer Tool) (e : Bool) : Prop :=
  ∀ r s, r = .user ∨ r = .tool →
    (T.applyChatTemplate [⟨r, .str s, none, none, none, none⟩] false e none .qwen3).length <
      (T.applyChatTemplate [⟨r, .str s, none, none, none, none⟩] true e none .qwen3).length

/-- Every message but the last is a system message. -/
def SystemFirst (ts : List (Role × String)) : Prop := ts.IsChain fun a _ => a.1 = .system

/-- Tokenizing one by one, with the prompt each time, agrees with tokenizing the pending list
when every message but the last is a system message. -/
lemma pendingTokens_of_systemFirst (T : Tokenizer Tool) (e : Bool) (tools : List Tool)
    (ts : List (Role × String)) (h : SystemFirst ts) :
    pendingTokens T e tools ts = ts.flatMap fun t => turnTokens T e tools true t.1 t.2 := by
  induction ts with
  | nil => rfl
  | cons t ts ih =>
    obtain ⟨r, s⟩ := t
    rw [pendingTokens, List.flatMap_cons, ih (List.IsChain.of_cons h)]
    congr 1
    cases ts with
    | nil => rfl
    | cons t' ts =>
      have hr : r = .system := (List.isChain_cons_cons.mp h).1
      simp [turnTokens, hr]

/-- Tokenizing one by one never gives fewer tokens, and gives more unless every message but the
last is a system message.

**Proof sketch.** Induction on the list. Only the head of a longer list can differ: with the
prompt it has at least as many tokens, and strictly more when it is a user or tool message. -/
lemma length_pendingTokens_le (T : Tokenizer Tool) (e : Bool) (tools : List Tool)
    (hT : T.PromptsGeneration e) (ts : List (Role × String)) (hts : ∀ t ∈ ts, t.1 ≠ .assistant) :
    (pendingTokens T e tools ts).length ≤
        (ts.flatMap fun t => turnTokens T e tools true t.1 t.2).length ∧
      ((pendingTokens T e tools ts).length =
        (ts.flatMap fun t => turnTokens T e tools true t.1 t.2).length → SystemFirst ts) := by
  induction ts with
  | nil => exact ⟨le_rfl, fun _ => List.IsChain.nil⟩
  | cons t ts ih =>
    obtain ⟨r, s⟩ := t
    obtain ⟨hle, heq⟩ := ih fun t ht => hts t (by simp [ht])
    have hr : r ≠ .assistant := hts (r, s) (by simp)
    simp only [pendingTokens, List.flatMap_cons, List.length_append]
    cases ts with
    | nil => exact ⟨by simp [pendingTokens], fun _ => List.IsChain.singleton _⟩
    | cons t' ts =>
      by_cases hsys : r = .system
      · have hhead : turnTokens T e tools (t' :: ts).isEmpty r s =
            turnTokens T e tools true r s := by simp [turnTokens, hsys]
        rw [hhead]
        refine ⟨by omega, fun h => List.isChain_cons_cons.mpr ⟨hsys, heq (by omega)⟩⟩
      · have hlt : (turnTokens T e tools (t' :: ts).isEmpty r s).length <
            (turnTokens T e tools true r s).length := by
          have hut : r = .user ∨ r = .tool := by
            cases r <;> simp_all
          simpa [turnTokens, hsys] using hT r s hut
        exact ⟨by omega, fun h => by omega⟩

/-! ## Agreement of the two token streams -/

/-- Up to every assistant message the attached ids, concatenated, are its input and output
ids. -/
def AgreeOn (T : Tokenizer Tool) (e : Bool) (tools : List Tool) (ms : List Message) : Prop :=
  ∀ pre m post i o, ms = pre ++ m :: post → m.role = .assistant → m.inputIds = some i →
    m.outputIds = some o → (pre ++ [m]).flatMap (attachedIds T e tools) = i ++ o

/-- Every user or tool message is followed by an assistant message. -/
def AnsweredAtOnce (ms : List Message) : Prop :=
  ms.IsChain fun a b => a.role = .user ∨ a.role = .tool → b.role = .assistant

section Agreement

variable {T : Tokenizer Tool} {maxModelLen : ℤ} {e : Bool} {tools : List Tool}

/-- Agreement on a longer conversation is agreement before and at the new message. -/
lemma agreeOn_concat {ms : List Message} {m : Message} :
    AgreeOn T e tools (ms ++ [m]) ↔ AgreeOn T e tools ms ∧
      (m.role = .assistant → ∀ i o, m.inputIds = some i → m.outputIds = some o →
        (ms ++ [m]).flatMap (attachedIds T e tools) = i ++ o) := by
  constructor
  · intro h
    refine ⟨fun pre m' post i o hms => h pre m' (post ++ [m]) i o (by simp [hms]), ?_⟩
    intro hrole i o hi ho
    exact h ms m [] i o rfl hrole hi ho
  · rintro ⟨h, hm⟩ pre m' post i o hms
    rcases List.eq_nil_or_concat' post with rfl | ⟨post', x, rfl⟩
    · obtain ⟨rfl, hmm⟩ := List.append_inj' hms rfl
      obtain rfl : m = m' := by simpa using hmm
      exact fun hrole hi ho => hm hrole i o hi ho
    · rw [← List.cons_append, ← List.append_assoc] at hms
      exact h pre m' post' i o (List.append_inj' hms rfl).1

/-- On an agreeing conversation the attached ids are those of the last answered turn followed by
those of the pending messages. -/
lemma Conversation.flatMap_attachedIds {ms : List Message}
    (h : Conversation T maxModelLen e tools ms) (ha : AgreeOn T e tools ms) :
    ms.flatMap (attachedIds T e tools) =
      answeredIds ms ++ (pendingMessages ms).flatMap (attachedIds T e tools) := by
  induction h with
  | nil => rfl
  | message ms m h hrole hin hout ih =>
    obtain ⟨hp, hi⟩ := pendingMessages_concat_of_none _ _ hout
    rw [hp, hi, List.flatMap_append, List.flatMap_append, ih (agreeOn_concat.1 ha).1,
      List.append_assoc]
  | answer ms m s res post h hrole hres hin hout htext ih =>
    obtain ⟨hp, hi⟩ := pendingMessages_concat_of_some _ _ _ _ hin hout
    rw [(agreeOn_concat.1 ha).2 hrole _ _ hin hout, hp, hi]
    simp

variable (T e tools) in
/-- The loop converts pending messages with texts one by one, each with the prompt. -/
lemma flatMap_attachedIds_of_hasTexts {pend : List Message} {ts : List (Role × String)}
    (hroles : ∀ m ∈ pend, m.role ≠ .assistant ∧ m.outputIds = none)
    (hts : HasTexts (pend.map fun m => (m.role, m.content)) ts) :
    ts.map Prod.fst = pend.map Message.role ∧
      (∀ m ∈ pend, ∃ new, newMessage T e tools m = .ok new) ∧
      pend.flatMap (attachedIds T e tools) =
        ts.flatMap fun t => turnTokens T e tools true t.1 t.2 := by
  induction pend generalizing ts with
  | nil =>
    cases hts
    simp
  | cons m pend ih =>
    rcases ts with - | ⟨t, ts⟩
    · cases hts
    obtain ⟨⟨hrole, htext⟩, htail⟩ := List.forall₂_cons.mp hts
    have hm := hroles m (by simp)
    obtain ⟨hnew, hattached⟩ := attachedIds_of_pending T e tools m t.2 htext hm.2 hm.1
    obtain ⟨hfst, hall, hflat⟩ := ih (fun m' hm' => hroles m' (by simp [hm'])) htail
    refine ⟨by simp [hfst, ← hrole], ?_, ?_⟩
    · intro m' hm'
      rcases List.mem_cons.mp hm' with rfl | hm'
      · exact hnew
      · exact hall m' hm'
    · rw [List.flatMap_cons, List.flatMap_cons, hflat, hattached, ← hrole]

/-- The pending messages of an answered request have texts; the input ids end with their
`pendingTokens`, and the loop tokenizes them one by one. -/
lemma Conversation.answer_spec {ms : List Message} {res : GenerateResult}
    {post : List Token → ℤ → Except PyError GenerateResponse}
    (h : Conversation T maxModelLen e tools ms)
    (hres : requestResponseTokens T maxModelLen e tools post ms = .ok res) :
    ∃ ts : List (Role × String), ts.map Prod.fst = (pendingMessages ms).map Message.role ∧
      res.inputIds = answeredIds ms ++ pendingTokens T e tools ts ∧
      (∀ m ∈ pendingMessages ms, ∃ new, newMessage T e tools m = .ok new) ∧
      (pendingMessages ms).flatMap (attachedIds T e tools) =
        ts.flatMap fun t => turnTokens T e tools true t.1 t.2 := by
  have hroles := h.pending_roles
  obtain ⟨ts, hts, hids⟩ := requestResponseTokens_spec T maxModelLen e tools post ms
    (fun m hm => (hroles m (List.mem_reverse.mpr hm)).1) res hres
  obtain ⟨hfst, hall, hflat⟩ := flatMap_attachedIds_of_hasTexts T e tools hroles hts
  exact ⟨ts, hfst, hids, hall, hflat⟩

/-- Every message of a conversation that is not pending can be converted. -/
lemma Conversation.convertible {ms : List Message} (h : Conversation T maxModelLen e tools ms) :
    ∀ m ∈ ms, m ∈ pendingMessages ms ∨ ∃ new, newMessage T e tools m = .ok new := by
  induction h with
  | nil => simp
  | message ms m h hrole hin hout ih =>
    rw [(pendingMessages_concat_of_none _ _ hout).1]
    intro x hx
    rcases List.mem_append.mp hx with hx | hx
    · exact (ih x hx).imp_left (List.mem_append_left _)
    · exact Or.inl (List.mem_append_right _ hx)
  | answer ms m s res post h hrole hres hin hout htext ih =>
    obtain ⟨ts, -, -, hall, -⟩ := h.answer_spec hres
    intro x hx
    right
    rcases List.mem_append.mp hx with hx | hx
    · exact (ih x hx).elim (hall x) id
    · rw [List.mem_singleton.mp hx]
      exact (attachedIds_of_outputIds T e tools _ _ _ htext hout).1

/-- In a conversation that answers at once, every pending message but the last is a system
message. -/
lemma Conversation.pending_system {ms : List Message} (h : Conversation T maxModelLen e tools ms)
    (ha : AnsweredAtOnce ms) : (pendingMessages ms).IsChain fun a _ => a.role = .system := by
  induction h with
  | nil => exact List.IsChain.nil
  | message ms m h hrole hin hout ih =>
    obtain ⟨hms, -, hlast⟩ := List.isChain_append.mp ha
    rw [(pendingMessages_concat_of_none _ _ hout).1]
    refine List.isChain_append.mpr ⟨ih hms, List.IsChain.singleton _, fun x hx y hy => ?_⟩
    -- the last pending message is the last message, and the new one does not answer it
    have hxms : x ∈ ms.getLast? := by
      cases h with
      | nil => simp [pendingMessages, collectPending] at hx
      | message ms' m' h hrole' hin' hout' =>
        rw [(pendingMessages_concat_of_none _ _ hout').1] at hx
        simpa using hx
      | answer ms' m' s' res' post' h hrole' hres' hin' hout' htext' =>
        simp [(pendingMessages_concat_of_some _ _ _ _ hin' hout').1] at hx
    have hxrole := (h.pending_roles x (List.mem_of_mem_getLast? hx)).1
    have hnot := mt (hlast x hxms m (by simp)) hrole
    cases hr : x.role <;> simp_all
  | answer ms m s res post h hrole hres hin hout htext ih =>
    rw [(pendingMessages_concat_of_some _ _ _ _ hin hout).1]
    exact List.IsChain.nil

/-- A conversation that answers at once agrees.

**Proof sketch.** Induction on the conversation. At an answer every pending message but the last
is a system message (`Conversation.pending_system`), so tokenizing them one by one gives the
pending tokens of the request (`pendingTokens_of_systemFirst`). -/
lemma Conversation.agreeOn {ms : List Message} (h : Conversation T maxModelLen e tools ms)
    (ha : AnsweredAtOnce ms) : AgreeOn T e tools ms := by
  induction h with
  | nil => intro pre m post i o hms; simp at hms
  | message ms m h hrole hin hout ih =>
    exact agreeOn_concat.2 ⟨ih (List.isChain_append.mp ha).1, fun hr => absurd hr hrole⟩
  | answer ms m s res post h hrole hres hin hout htext ih =>
    have hms := (List.isChain_append.mp ha).1
    have hagree := ih hms
    obtain ⟨ts, hroles, hids, -, hflat⟩ := h.answer_spec hres
    have hsys : SystemFirst ts := by
      have hchain := h.pending_system hms
      rw [← List.isChain_map (R := fun a _ => a = Role.system), ← hroles, List.isChain_map]
        at hchain
      exact hchain
    refine agreeOn_concat.2 ⟨hagree, fun _ i o hi ho => ?_⟩
    obtain rfl : res.inputIds = i := by simpa [hin] using hi
    obtain rfl : res.outputIds = o := by simpa [hout] using ho
    rw [List.flatMap_append, h.flatMap_attachedIds hagree, hids, hflat,
      pendingTokens_of_systemFirst T e tools ts hsys]
    simp [(attachedIds_of_outputIds T e tools m s _ htext hout).2]

/-- A conversation that agrees answers at once, as far as its answered part goes.

**Proof sketch.** Induction on the conversation. At an answer, agreement before and at the new
message says that tokenizing the pending messages one by one gives as many tokens as the request
did, so every one of them but the last is a system message (`length_pendingTokens_le`). -/
lemma Conversation.answeredAtOnce {ms : List Message} (hT : T.PromptsGeneration e)
    (h : Conversation T maxModelLen e tools ms) (ha : AgreeOn T e tools ms)
    (hp : (pendingMessages ms).IsChain fun a _ => a.role = .system) : AnsweredAtOnce ms := by
  induction h with
  | nil => exact List.IsChain.nil
  | message ms m h hrole hin hout ih =>
    rw [(pendingMessages_concat_of_none _ _ hout).1] at hp
    obtain ⟨hpend, -, hlast⟩ := List.isChain_append.mp hp
    refine List.isChain_append.mpr ⟨ih (agreeOn_concat.mp ha).1 hpend, List.IsChain.singleton _,
      fun x hx y hy => ?_⟩
    rcases h.getLast_pending x hx with hr | hx'
    · simp [hr]
    · simp [hlast x hx' _ rfl]
  | answer ms m s res post h hrole hres hin hout htext ih =>
    obtain ⟨hms, hm⟩ := agreeOn_concat.mp ha
    obtain ⟨ts, hroles, hids, -, hflat⟩ := h.answer_spec hres
    have heq := hm hrole _ _ hin hout
    rw [List.flatMap_append, h.flatMap_attachedIds hms, hids, hflat] at heq
    simp only [List.flatMap_cons, List.flatMap_nil, List.append_nil,
      (attachedIds_of_outputIds T e tools m s _ htext hout).2] at heq
    have hts : ∀ t ∈ ts, t.1 ≠ .assistant := by
      intro t ht
      have hmem : t.1 ∈ (pendingMessages ms).map Message.role := by
        rw [← hroles]
        exact List.mem_map_of_mem ht
      obtain ⟨x, hx, hxr⟩ := List.mem_map.mp hmem
      exact hxr ▸ (h.pending_roles x hx).1
    have hsys : SystemFirst ts := by
      refine (length_pendingTokens_le T e tools hT ts hts).2 ?_
      have hlen := congrArg List.length heq
      simp only [List.length_append] at hlen
      omega
    refine List.isChain_append.mpr ⟨ih hms ?_, List.IsChain.singleton _, fun x hx y hy => ?_⟩
    · rw [← List.isChain_map (R := fun a _ => a = Role.system), ← hroles, List.isChain_map]
      exact hsys
    · obtain rfl : m = y := by simpa using hy
      exact fun _ => hrole

end Agreement

/-- The part of a conversation that the loop runs over, up to the last assistant message. -/
def answeredPart (conv : List Message) : List Message :=
  conv.rdropWhile fun m => m.role ≠ .assistant

/-- **Training tokens equal generated tokens**: the loop returns, and the ids it attaches up to
and including any assistant message are the input ids followed by the output ids of the request
that produced this message. -/
def TokensAgree (T : Tokenizer Tool) (e : Bool) (tools : List Tool) (ensure endProperly : Bool)
    (conv : List Message) : Prop :=
  ∃ out, processMessages T e tools ensure endProperly conv = .ok out ∧
    ∀ k m i o, conv[k]? = some m → k < out.messages.length → m.role = .assistant →
      m.inputIds = some i → m.outputIds = some o →
      (out.messages.take (k + 1)).flatMap TrainingMessage.tokenIds = i ++ o

section Main

variable {T : Tokenizer Tool} {maxModelLen : ℤ} {e : Bool} {tools : List Tool}

/-- The answered part is empty or ends with an assistant message. -/
lemma getLast_answeredPart (conv : List Message) :
    ∀ m ∈ (answeredPart conv).getLast?, m.role = .assistant := by
  intro m hm
  obtain ⟨hne, rfl⟩ := List.mem_getLast?_eq_getLast hm
  have hnot := List.rdropWhile_last_not (fun m : Message => m.role ≠ .assistant) conv hne
  simpa [answeredPart] using hnot

/-- Only an assistant text leaves its reasoning open. -/
lemma leavesThinkingOpen_role {r : Role} {s : String} (h : leavesThinkingOpen r s = true) :
    r = .assistant := by
  unfold leavesThinkingOpen at h
  rw [Bool.and_eq_true, Bool.and_eq_true] at h
  exact of_decide_eq_true h.1.1

/-- What the loop reaches of a list that ends with an assistant message ends with one too. -/
lemma getLast_reached (ensure : Bool) (ms : List Message)
    (h : ∀ m ∈ ms.getLast?, m.role = .assistant) :
    ∀ m ∈ (reached ensure ms).getLast?, m.role = .assistant := by
  induction ms with
  | nil => simp [reached]
  | cons a ms ih =>
    unfold reached
    split_ifs with hs
    · -- the loop stops only at an assistant message
      intro m hm
      obtain rfl : a = m := by simpa using hm
      unfold stopsAt at hs
      split at hs
      · exact leavesThinkingOpen_role (Bool.and_eq_true_iff.mp hs).2
      · simp at hs
    · cases ms with
      | nil => simpa [reached] using h
      | cons b ms =>
        have hb : ∀ m ∈ (b :: ms).getLast?, m.role = .assistant := by
          intro m hm
          exact h m (by rwa [List.getLast?_cons_cons])
        intro m hm
        refine ih hb m ?_
        have hne : reached ensure (b :: ms) ≠ [] := by
          unfold reached
          split_ifs <;> simp
        obtain ⟨c, cs, hc⟩ := List.exists_cons_of_ne_nil hne
        rw [hc, List.getLast?_cons_cons] at hm
        rw [hc]
        exact hm

/-- A conversation that ends with an assistant message has nothing pending. -/
lemma Conversation.pending_eq_nil {ms : List Message} (h : Conversation T maxModelLen e tools ms)
    (hlast : ∀ m ∈ ms.getLast?, m.role = .assistant) : pendingMessages ms = [] := by
  cases h with
  | nil => rfl
  | message ms m h hrole hin hout => exact absurd (hlast _ (by simp)) hrole
  | answer ms m s res post h hrole hres hin hout htext =>
    exact (pendingMessages_concat_of_some _ _ _ _ hin hout).1

/-- The loop agrees on a conversation exactly when the attached ids agree on the part it
reaches. -/
lemma Conversation.tokensAgree_iff {conv : List Message} (ensure endProperly : Bool)
    (h : Conversation T maxModelLen e tools conv) :
    TokensAgree T e tools ensure endProperly conv ↔
      AgreeOn T e tools (reached ensure (answeredPart conv)) := by
  have hpart : Conversation T maxModelLen e tools (answeredPart conv) :=
    h.of_prefix (List.rdropWhile_prefix _ _)
  have hconv : ∀ m ∈ answeredPart conv, ∃ new, newMessage T e tools m = .ok new := by
    intro m hm
    have hnil := hpart.pending_eq_nil (getLast_answeredPart conv)
    have := hpart.convertible m hm
    simpa [hnil] using this
  obtain ⟨out, hout, hids⟩ := processLoop_tokenIds T e tools ensure endProperly _ hconv
  have hprefix : reached ensure (answeredPart conv) <+: conv :=
    (reached_isPrefix ensure _).trans (List.rdropWhile_prefix _ _)
  have hlen : out.messages.length = (reached ensure (answeredPart conv)).length := by
    simpa using congrArg List.length hids
  have htake : ∀ k, (out.messages.take k).flatMap TrainingMessage.tokenIds =
      ((reached ensure (answeredPart conv)).take k).flatMap (attachedIds T e tools) := by
    intro k
    rw [List.flatMap_def, List.flatMap_def, List.map_take, List.map_take, hids]
  have hget : ∀ k < (reached ensure (answeredPart conv)).length,
      conv[k]? = (reached ensure (answeredPart conv))[k]? := by
    intro k hk
    obtain ⟨t, ht⟩ := hprefix
    exact (congrArg (·[k]?) ht).symm.trans (List.getElem?_append_left hk)
  generalize reached ensure (answeredPart conv) = M at hget hlen htake
  constructor
  · rintro ⟨out', hout', hagree⟩ pre m post i o hM hrole hi ho
    obtain rfl : out = out' := by
      have heq := hout.symm.trans hout'
      simpa using heq
    have hk : pre.length < M.length := by simp [hM]
    have hm : conv[pre.length]? = some m := by
      rw [hget _ hk, hM]
      simp
    have := hagree pre.length m i o hm (by omega) hrole hi ho
    rw [htake, hM, List.append_cons, List.take_left' (by simp)] at this
    exact this
  · intro hagree
    refine ⟨out, hout, fun k m i o hconvk hk hrole hi ho => ?_⟩
    have hkM : k < M.length := by omega
    have hm : M[k] = m := by
      rw [hget k hkM, List.getElem?_eq_getElem hkM] at hconvk
      simpa using hconvk
    have hsplit : M = M.take k ++ m :: M.drop (k + 1) := by
      rw [← hm, List.cons_getElem_drop_succ, List.take_append_drop]
    rw [htake, ← hagree _ m _ i o hsplit hrole hi ho, List.take_succ_eq_append_getElem hkM, hm]

/-- **When training tokens equal generated tokens.** With any tokenizer the two agree on a
conversation in which, as far as the loop gets, every user or tool message is followed by an
assistant message. With a tokenizer whose generation prompt is not empty they agree on no other
conversation. -/
theorem tokensAgree_iff_answeredAtOnce {conv : List Message} (ensure endProperly : Bool)
    (h : Conversation T maxModelLen e tools conv) :
    (AnsweredAtOnce (reached ensure (answeredPart conv)) →
        TokensAgree T e tools ensure endProperly conv) ∧
      (T.PromptsGeneration e → TokensAgree T e tools ensure endProperly conv →
        AnsweredAtOnce (reached ensure (answeredPart conv))) := by
  have hreached : Conversation T maxModelLen e tools (reached ensure (answeredPart conv)) :=
    h.of_prefix ((reached_isPrefix ensure _).trans (List.rdropWhile_prefix _ _))
  rw [h.tokensAgree_iff]
  refine ⟨hreached.agreeOn, fun hT ha => hreached.answeredAtOnce hT ha ?_⟩
  rw [hreached.pending_eq_nil (getLast_reached ensure _ (getLast_answeredPart conv))]
  exact List.IsChain.nil

end Main

/-! ## A concrete tokenizer

One token for the role of each message, and one token for the generation prompt. -/

/-- The token of a role. -/
def roleToken : Role → Token
  | .system => 1
  | .user => 2
  | .assistant => 3
  | .tool => 4

/-- The tokenizer that gives one token to each message and one to the generation prompt. -/
def roleTokenizer : Tokenizer Unit where
  applyChatTemplate conversation addGenerationPrompt _ _ _ :=
    conversation.map (fun m => roleToken m.role) ++ if addGenerationPrompt then [9] else []
  reads_role_content m m' _ hrole _ g e ts := by simp [hrole]

/-- Two tool results after a turn with two tool calls, then an answer. The answers are the single
tokens `5` and `6`. -/
def twoToolResults : List Message :=
  [⟨.user, .str "fix the bug", none, none, none, none, none, none⟩,
    ⟨.assistant, .str "", some [2, 9], some [5], none,
      some [("a", ⟨"grep", ""⟩), ("b", ⟨"ls", ""⟩)], none, none⟩,
    ⟨.tool, .str "line 3", none, none, none, none, some "a", some "grep"⟩,
    ⟨.tool, .str "main.c", none, none, none, none, some "b", some "ls"⟩,
    ⟨.assistant, .str "done", some [2, 9, 5, 4, 4, 9], some [6], none, none, none, none⟩]

/-- The two tool results form a conversation of the concrete tokenizer. -/
lemma twoToolResults_conversation :
    Conversation roleTokenizer 100 true ([] : List Unit) twoToolResults := by
  refine .answer (twoToolResults.take 4) twoToolResults[4] "done" ⟨[2, 9, 5, 4, 4, 9], [6], none⟩
    (fun _ _ => .ok ⟨some [6], none⟩) ?_ rfl rfl rfl rfl rfl
  refine .message (twoToolResults.take 3) twoToolResults[3] ?_ (by decide) rfl rfl
  refine .message (twoToolResults.take 2) twoToolResults[2] ?_ (by decide) rfl rfl
  refine .answer (twoToolResults.take 1) twoToolResults[1] "" ⟨[2, 9], [5], none⟩
    (fun _ _ => .ok ⟨some [5], none⟩) ?_ rfl rfl rfl rfl rfl
  exact .message [] twoToolResults[0] .nil (by decide) rfl rfl

/-- The generation prompt of the concrete tokenizer is not empty. -/
lemma roleTokenizer_promptsGeneration (e : Bool) : roleTokenizer.PromptsGeneration e := by
  intro r s _
  simp [roleTokenizer]

/-- **The token streams do not always agree**: after two consecutive tool results the loop
attaches the generation prompt twice. -/
theorem not_tokensAgree_twoToolResults :
    ¬ ∀ conv, Conversation roleTokenizer 100 true ([] : List Unit) conv →
      TokensAgree roleTokenizer true [] false true conv := by
  intro h
  have hpart : answeredPart twoToolResults = twoToolResults := by
    simp [answeredPart, twoToolResults, List.rdropWhile]
  have hagree := (twoToolResults_conversation.tokensAgree_iff false true).mp
    (h _ twoToolResults_conversation)
  rw [hpart] at hagree
  have hlast := hagree (twoToolResults.take 4) twoToolResults[4] [] [2, 9, 5, 4, 4, 9] [6]
    (by rfl) rfl rfl rfl
  exact absurd hlast (by decide)

/-- The first turn alone, with a trailing tool result, is answered at once, and the token streams
agree on it. -/
theorem tokensAgree_firstTurn :
    Conversation roleTokenizer 100 true ([] : List Unit) (twoToolResults.take 3) ∧
      TokensAgree roleTokenizer true [] false true (twoToolResults.take 3) ∧
      AnsweredAtOnce (reached false (answeredPart (twoToolResults.take 3))) := by
  have hconv : Conversation roleTokenizer 100 true ([] : List Unit) (twoToolResults.take 3) :=
    twoToolResults_conversation.of_prefix (List.take_prefix _ _)
  obtain ⟨hif, honly⟩ := tokensAgree_iff_answeredAtOnce false true hconv
  have hpart : reached false (answeredPart (twoToolResults.take 3)) = twoToolResults.take 2 := by
    simp [answeredPart, twoToolResults, List.rdropWhile, reached, stopsAt, Content.trainingText,
      Content.text]
  have hagree := hif (by rw [hpart]; simp [AnsweredAtOnce, twoToolResults])
  exact ⟨hconv, hagree, honly (roleTokenizer_promptsGeneration true) hagree⟩

end ProRLAgent
