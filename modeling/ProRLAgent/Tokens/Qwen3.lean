import Mathlib.Data.List.Forall2
import ProRLAgent.Basic

set_option relaxedAutoImplicit false
set_option autoImplicit false

/-!
# Token-in, token-out generation

The request side of `openhands/llm/nvidia/qwen3.py`: how the pending messages of a conversation
are tokenized one by one (`convert_messages_to_tokens`) and how the prompt of a generation
request is put together from the ids of the last answered turn and the pending messages
(`request_response_tokens`).

The tokenizer is a parameter. `apply_chat_template` may be any function of its arguments, with
one law: on a single message that is not an assistant message the qwen3 chat template looks at
the role and the content only, so the other keys of the message dictionary do not matter.

## Main definitions

* `ProRLAgent.Message` — a serialized chat message with the ids of the call that produced it.
* `ProRLAgent.ChatDict` — a message dictionary as `apply_chat_template` receives it.
* `ProRLAgent.Tokenizer` — the tokenizer.
* `ProRLAgent.convertMessagesToTokens`, `ProRLAgent.requestResponseTokens`.
* `ProRLAgent.turnTokens` — the tokens of one message that is not an assistant message.
* `ProRLAgent.pendingTokens` — the tokens of a list of pending messages.

## Main results

* `ProRLAgent.convertMessagesToTokens_flatten` — converting pending messages gives
  `pendingTokens`.
* `ProRLAgent.requestResponseTokens_spec` — the ids an answered request returns.
-/

namespace ProRLAgent

/-- One entry of a list-valued message content. -/
inductive ContentItem where
  | text (text : String)
  | imageUrl (url : String)
  deriving DecidableEq, Repr

/-- The content of a message: a string, or a list of content entries. -/
inductive Content where
  | str (text : String)
  | items (entries : List ContentItem)
  deriving DecidableEq, Repr

/-- The `function` entry of a tool call. -/
structure FunctionCall where
  name : String
  arguments : String
  deriving DecidableEq, Repr

/-- A tool call inside a message dictionary: the full entry, or its `function` part alone. -/
inductive ToolCallDict where
  | call (id : String) (function : FunctionCall)
  | function (function : FunctionCall)
  deriving DecidableEq, Repr

/-- A chat message as the message model serializes it. An assistant message carries the ids and
log-probabilities of the generation call that produced it. -/
structure Message where
  role : Role
  content : Content
  inputIds : Option (List Token) := none
  outputIds : Option (List Token) := none
  logprobs : Option (List Float) := none
  toolCalls : Option (List (String × FunctionCall)) := none
  toolCallId : Option String := none
  name : Option String := none

/-- A message dictionary as the chat template receives it. In `logprobs` the outer `none` says
that the key is absent. -/
structure ChatDict where
  role : Role
  content : Content
  toolCalls : Option (List ToolCallDict) := none
  toolCallId : Option String := none
  name : Option String := none
  logprobs : Option (Option (List Float)) := none

/-- The chat templates of the program that this part uses. -/
inductive ChatTemplate where
  | qwen3
  deriving DecidableEq, Repr

/-- A tokenizer. `Tool` is the type of the tool descriptions, which only the template reads. -/
structure Tokenizer (Tool : Type) where
  /-- The ids of the rendered conversation. -/
  applyChatTemplate : (conversation : List ChatDict) → (addGenerationPrompt : Bool) →
    (enableThinking : Bool) → (tools : Option (List Tool)) → ChatTemplate → List Token
  /-- On one system, user or tool message the template reads the role and the content only. -/
  reads_role_content : ∀ (m m' : ChatDict), m.role ≠ .assistant → m'.role = m.role →
    m'.content = m.content → ∀ g e ts,
      applyChatTemplate [m'] g e ts .qwen3 = applyChatTemplate [m] g e ts .qwen3

variable {Tool : Type}

/-! ## Tokenizing pending messages -/

/-- The text of a content: a list content stands for the text of its first entry. -/
def Content.text : Content → Except PyError String
  | .str s => .ok s
  | .items [] => .error .indexError
  | .items (.text s :: _) => .ok s
  | .items (.imageUrl _ :: _) => .error (.keyError "text")

/-- `convert_messages_to_tokens`: the ids of each message, tokenized on its own. Only a system
message gets the tools, and only the last message of the list the generation prompt. -/
def convertMessagesToTokens (T : Tokenizer Tool) (chatTemplate : ChatTemplate)
    (addGenerationPrompt enableThinking : Bool) (tools : List Tool) :
    List ChatDict → Except PyError (List (List Token))
  | [] => .ok []
  | message :: rest => do
    let text ← message.content.text
    let message := { message with content := .str text }
    let tokenIds :=
      if message.role = .system then
        T.applyChatTemplate [message] false enableThinking (some tools) chatTemplate
      else if rest.isEmpty then
        T.applyChatTemplate [message] addGenerationPrompt enableThinking none chatTemplate
      else
        T.applyChatTemplate [message] false enableThinking none chatTemplate
    let tokenList ← convertMessagesToTokens T chatTemplate addGenerationPrompt enableThinking
      tools rest
    return tokenIds :: tokenList

/-- The ids of one message of role `r` and text `s`, with or without the generation prompt. A
system message never gets the prompt. -/
def turnTokens (T : Tokenizer Tool) (enableThinking : Bool) (tools : List Tool) (prompt : Bool)
    (r : Role) (s : String) : List Token :=
  if r = .system then
    T.applyChatTemplate [⟨r, .str s, none, none, none, none⟩] false enableThinking (some tools)
      .qwen3
  else
    T.applyChatTemplate [⟨r, .str s, none, none, none, none⟩] prompt enableThinking none .qwen3

/-- The ids of pending messages, given by role and text: the generation prompt follows the last
one. -/
def pendingTokens (T : Tokenizer Tool) (enableThinking : Bool) (tools : List Tool) :
    List (Role × String) → List Token
  | [] => []
  | (r, s) :: rest =>
    turnTokens T enableThinking tools rest.isEmpty r s ++ pendingTokens T enableThinking tools rest

/-- A message that is not an assistant message is tokenized from its role and text alone. -/
lemma applyChatTemplate_eq_turnTokens (T : Tokenizer Tool) (e : Bool) (tools : List Tool)
    (m : ChatDict) (s : String) (hm : m.role ≠ .assistant) (prompt : Bool) :
    (if m.role = .system then
      T.applyChatTemplate [{ m with content := .str s }] false e (some tools) .qwen3
    else
      T.applyChatTemplate [{ m with content := .str s }] prompt e none .qwen3) =
      turnTokens T e tools prompt m.role s := by
  have hreads : ∀ g ts, T.applyChatTemplate [{ m with content := .str s }] g e ts .qwen3 =
      T.applyChatTemplate [⟨m.role, .str s, none, none, none, none⟩] g e ts .qwen3 :=
    fun g ts => T.reads_role_content ⟨m.role, .str s, none, none, none, none⟩
      { m with content := .str s } hm rfl rfl g e ts
  unfold turnTokens
  split_ifs <;> exact hreads _ _

/-- Each of the messages, given by role and content, has a text, and `ts` lists the roles and
texts. -/
def HasTexts (ms : List (Role × Content)) (ts : List (Role × String)) : Prop :=
  List.Forall₂ (fun m t => m.1 = t.1 ∧ m.2.text = .ok t.2) ms ts

/-- Converting messages none of which is an assistant message succeeds only if every one of
them has a text, and then gives, concatenated, their `pendingTokens`.

**Proof sketch.** Induction on the list. The head contributes `turnTokens`, with the prompt
exactly when nothing follows it. -/
theorem convertMessagesToTokens_flatten (T : Tokenizer Tool) (e : Bool) (tools : List Tool)
    (ms : List ChatDict) (hms : ∀ m ∈ ms, m.role ≠ .assistant) (out : List (List Token))
    (hout : convertMessagesToTokens T .qwen3 true e tools ms = .ok out) :
    ∃ ts, HasTexts (ms.map fun m => (m.role, m.content)) ts ∧
      out.flatten = pendingTokens T e tools ts := by
  induction ms generalizing out with
  | nil =>
    obtain rfl : [] = out := by simpa [convertMessagesToTokens] using hout
    exact ⟨[], List.Forall₂.nil, rfl⟩
  | cons m rest ih =>
    have hm : m.role ≠ .assistant := hms m (by simp)
    rw [convertMessagesToTokens] at hout
    cases hs : m.content.text with
    | error err => simp [hs, bind, Except.bind] at hout
    | ok s =>
      cases hc : convertMessagesToTokens T .qwen3 true e tools rest with
      | error err => simp [hs, hc, bind, Except.bind] at hout
      | ok tokens =>
        simp only [hs, hc, bind, Except.bind, pure, Except.pure, Except.ok.injEq] at hout
        obtain ⟨ts, hts, hflat⟩ := ih (fun m' hm' => hms m' (by simp [hm'])) tokens hc
        refine ⟨(m.role, s) :: ts, List.Forall₂.cons ⟨rfl, hs⟩ hts, ?_⟩
        -- the prompt flag of the head says whether anything follows it
        have hempty : rest.isEmpty = ts.isEmpty := by
          have hlen := hts.length_eq
          cases rest <;> cases ts <;> simp_all
        have hhead := applyChatTemplate_eq_turnTokens T e tools m s hm ts.isEmpty
        rw [← hout, List.flatten_cons, hflat, pendingTokens, ← hhead, hempty]
        congr 1
        cases ts.isEmpty <;> simp

/-! ## A generation request -/

/-- The dictionary of a pending message: the ids are taken out, every other key stays. -/
def Message.toDict (message : Message) : ChatDict :=
  ⟨message.role, message.content, message.toolCalls.map fun calls =>
    calls.map fun c => .call c.1 c.2, message.toolCallId, message.name, some message.logprobs⟩

/-- The ids of the last answered turn and, newest first, the messages after it. The argument is
the conversation newest message first. -/
def collectPending : List Message → List Token × List Message
  | [] => ([], [])
  | message :: older =>
    match message.outputIds with
    | some outputIds => (message.inputIds.getD [] ++ outputIds, [])
    | none => ((collectPending older).1, message :: (collectPending older).2)

/-- The decoded body of the inference server's answer. -/
structure GenerateResponse where
  responseIds : Option (List Token)
  logprobs : Option (List Float)

/-- What an answered request carries over into the assistant message. -/
structure GenerateResult where
  inputIds : List Token
  outputIds : List Token
  logprobs : Option (List Float)

/-- `request_response_tokens`: build the prompt from the last answered turn and the pending
messages, and post it. `post` stands for the inference server: it maps the prompt and the token
budget to an answer or an exception. -/
def requestResponseTokens (T : Tokenizer Tool) (maxModelLen : ℤ) (enableThinking : Bool)
    (tools : List Tool) (post : List Token → ℤ → Except PyError GenerateResponse)
    (messages : List Message) : Except PyError GenerateResult := do
  let (inputIds, pendingMessages) := collectPending messages.reverse
  let pendingMessagesIds ← convertMessagesToTokens T .qwen3 true enableThinking tools
    (pendingMessages.reverse.map Message.toDict)
  let inputIds := inputIds ++ pendingMessagesIds.flatten
  let maxTokens := maxModelLen - inputIds.length
  if maxTokens ≤ 0 then
    throw (.contextWindowExceeded inputIds.length maxTokens maxModelLen)
  let resp ← post inputIds maxTokens
  match resp.responseIds with
  | none => throw (.valueError "Response does not contain response_ids")
  | some responseIds => return ⟨inputIds, responseIds, resp.logprobs⟩

/-- **The ids of an answered request**: its input ids are those of the last answered turn
followed by the tokens of the pending messages. -/
theorem requestResponseTokens_spec (T : Tokenizer Tool) (maxModelLen : ℤ) (e : Bool)
    (tools : List Tool) (post : List Token → ℤ → Except PyError GenerateResponse)
    (messages : List Message) (hpend : ∀ m ∈ (collectPending messages.reverse).2,
      m.role ≠ .assistant) (res : GenerateResult)
    (hres : requestResponseTokens T maxModelLen e tools post messages = .ok res) :
    ∃ ts, HasTexts ((collectPending messages.reverse).2.reverse.map fun m => (m.role, m.content)) ts
      ∧ res.inputIds = (collectPending messages.reverse).1 ++ pendingTokens T e tools ts := by
  rw [requestResponseTokens] at hres
  cases hc : convertMessagesToTokens T .qwen3 true e tools
      ((collectPending messages.reverse).2.reverse.map Message.toDict) with
  | error err => simp only [hc, bind, Except.bind, reduceCtorEq] at hres
  | ok tokens =>
    have hroles : ∀ d ∈ (collectPending messages.reverse).2.reverse.map Message.toDict,
        d.role ≠ .assistant := by
      intro d hd
      obtain ⟨m, hm, rfl⟩ := List.mem_map.mp hd
      exact hpend m (List.mem_reverse.mp hm)
    obtain ⟨ts, hts, hflat⟩ := convertMessagesToTokens_flatten T e tools _ hroles tokens hc
    refine ⟨ts, by simpa [Message.toDict, Function.comp_def] using hts, ?_⟩
    simp only [hc, bind, Except.bind, hflat, throw, throwThe, MonadExceptOf.throw, pure,
      Except.pure] at hres
    split_ifs at hres with hle
    split at hres
    · simp at hres
    · split at hres
      · simp at hres
      · simp only [Except.ok.injEq] at hres
        rw [← hres]

end ProRLAgent
