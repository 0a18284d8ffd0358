import Mathlib.Data.List.Chain
import Mathlib.Data.List.Infix
import ProRLAgent.Tokens.Qwen3

set_option relaxedAutoImplicit false
set_option autoImplicit false

/-!
# The chat template of Qwen3

The template of `openhands/llm/nvidia/qwen3.py` renders a whole conversation: it looks at the first
message, at the roles of the neighbours of a tool message and at the position of the last query.
`convert_messages_to_tokens` feeds it one message at a time. A filter that the template calls,
`tojson`, is a parameter.

## Main definitions

* `ProRLAgent.qwen3ChatTemplate` — the text of a conversation.
* `ProRLAgent.convertMessagesToTexts` — the texts that `convert_messages_to_tokens` tokenizes.
* `ProRLAgent.templateTokenizer` — the tokenizer of the template and an encoding of texts.

## Main results

* `ProRLAgent.convertMessagesToTokens_template` — the tokens are the encoded texts.
* `ProRLAgent.length_texts` — how much longer the single texts are than the whole one.
* `ProRLAgent.texts_eq_template_iff` — when both are the same text.
-/

namespace ProRLAgent

/-! ## Messages in the template -/

/-- The `function` of a tool call. Its arguments are a text, or a value that the template renders as
JSON. -/
structure TemplateFunction (J : Type) where
  name : String
  arguments : String ⊕ J

/-- A tool call: the full entry, or its `function` part alone. -/
inductive TemplateCall (J : Type) where
  | call (function : TemplateFunction J)
  | function (function : TemplateFunction J)

/-- `tool_call.function if tool_call.function else tool_call`. -/
def TemplateCall.unwrap {J : Type} : TemplateCall J → TemplateFunction J
  | .call f => f
  | .function f => f

/-- What the template reads of a message. The content is a text: `convert_messages_to_tokens` puts
the text of the first entry in place of a list before it renders the message. -/
structure TemplateMessage (J : Type) where
  role : Role
  content : String
  reasoningContent : Option String := none
  toolCalls : List (TemplateCall J) := []

/-- `text.lstrip('\\n')`. -/
def lstripNewlines (text : String) : String :=
  String.ofList (text.toList.dropWhile (· = '\n'))

/-- `text.rstrip('\\n')`. -/
def rstripNewlines (text : String) : String :=
  String.ofList (text.toList.reverse.dropWhile (· = '\n')).reverse

/-- `text.strip('\\n')`. -/
def stripNewlines (text : String) : String := lstripNewlines (rstripNewlines text)

/-- `sub in text`. -/
def hasSubtext (sub text : String) : Bool := decide (sub.toList <:+: text.toList)

/-- `text.split(sep)[0]`. -/
def splitFirst (sep text : String) : String := (text.splitOn sep).head?.getD ""

/-- `text.split(sep)[-1]`. -/
def splitLast (sep text : String) : String := (text.splitOn sep).getLast?.getD ""

section Template

variable {J : Type} (tojson : J → String)

/-! ## The template -/

/-- The part of the system turn between its text and the tools. -/
def toolsIntro : String :=
  "# Tools\n\nYou may call one or more functions to assist with the user query.\n\n" ++
    "You are provided with function signatures within <tools></tools> XML tags:\n<tools>"

/-- The end of the system turn after the tools. -/
def toolsOutro : String :=
  "\n</tools>\n\nFor each function call, return a json object with function name and arguments " ++
    "within <tool_call></tool_call> XML tags:\n<tool_call>\n\x7b\"name\": <function-name>, " ++
    "\"arguments\": <args-json-object>\x7d\n</tool_call><|im_end|>\n"

/-- The system turn, for a first message of role system, and the tools if there are some. -/
def templateHeader (tools : Option (List J)) (first : Option (TemplateMessage J)) : String :=
  match tools with
  | some (tool :: rest) =>
    "<|im_start|>system\n" ++
      (match first with
        | some message => if message.role = .system then message.content ++ "\n\n" else ""
        | none => "") ++
      toolsIntro ++ String.join ((tool :: rest).map fun tool => "\n" ++ tojson tool) ++ toolsOutro
  | _ =>
    match first with
    | some message =>
      if message.role = .system then "<|im_start|>system\n" ++ message.content ++ "<|im_end|>\n"
      else ""
    | none => ""

/-- A user message that is a query and no tool response. -/
def TemplateMessage.isQuery (message : TemplateMessage J) : Bool :=
  message.role = .user ∧ ¬ ("<tool_response>".toList <+: message.content.toList ∧
    "</tool_response>".toList <:+ message.content.toList)

/-- The index of the last query, or of the last message if there is none. -/
def lastQueryIndex (messages : List (TemplateMessage J)) : ℕ :=
  match messages.zipIdx.reverse.find? fun entry => entry.1.isQuery with
  | some (_, index) => index
  | none => messages.length - 1

/-- The reasoning of an assistant message: its own field, or what its content has up to the end of
the thinking. -/
def TemplateMessage.reasoning (message : TemplateMessage J) : String :=
  match message.reasoningContent with
  | some reasoning => reasoning
  | none =>
    if hasSubtext "</think>" message.content then
      lstripNewlines (splitLast "<think>" (rstripNewlines (splitFirst "</think>" message.content)))
    else ""

/-- The content of an assistant message without the reasoning. -/
def TemplateMessage.answer (message : TemplateMessage J) : String :=
  match message.reasoningContent with
  | some _ => message.content
  | none =>
    if hasSubtext "</think>" message.content then
      lstripNewlines (splitLast "</think>" message.content)
    else message.content

/-- One tool call. -/
def templateCallText (call : TemplateFunction J) : String :=
  "<tool_call>\n\x7b\"name\": \"" ++ call.name ++ "\", \"arguments\": " ++
    (match call.arguments with
      | .inl text => text
      | .inr value => tojson value) ++ "\x7d\n</tool_call>"

/-- The tool calls, each on a new line, except for the first one of a message without content. -/
def toolCallsText (content : String) : (first : Bool) → List (TemplateCall J) → String
  | _, [] => ""
  | first, call :: calls =>
    (if (first ∧ content ≠ "") ∨ ¬ first then "\n" else "") ++ templateCallText tojson call.unwrap ++
      toolCallsText content false calls

/-- What the model generated for an assistant message. The branches differ in the original template;
here all of them keep the reasoning. -/
def generationText (lastQuery index : ℕ) (last : Bool) (message : TemplateMessage J) : String :=
  let thinking := "<think>\n" ++ stripNewlines message.reasoning ++ "\n</think>\n\n" ++
    lstripNewlines message.answer
  (if lastQuery < index then
    if last ∨ message.reasoning ≠ "" then thinking else thinking
  else thinking) ++ toolCallsText tojson message.answer true message.toolCalls

/-- One message of the loop, with the roles before and after it. There is none before the first
message and none after the last one. -/
def messageText (lastQuery index : ℕ) (previous next : Option Role) (message : TemplateMessage J) :
    String :=
  match message.role with
  | .user => "<|im_start|>" ++ message.role.name ++ "\n" ++ message.content ++ "<|im_end|>\n"
  | .system =>
    if previous ≠ none then
      "<|im_start|>" ++ message.role.name ++ "\n" ++ message.content ++ "<|im_end|>\n"
    else ""
  | .assistant =>
    "<|im_start|>" ++ message.role.name ++ "\n" ++
      generationText tojson lastQuery index (next = none) message ++ "<|im_end|>" ++ "\n"
  | .tool =>
    (if previous ≠ some .tool then "<|im_start|>user" else "") ++
      ("\n<tool_response>\n" ++ message.content ++ "\n</tool_response>") ++
      if next ≠ some .tool then "<|im_end|>\n" else ""

/-- The loop over the messages. -/
def messagesText (lastQuery : ℕ) :
    (index : ℕ) → (previous : Option Role) → List (TemplateMessage J) → String
  | _, _, [] => ""
  | index, previous, message :: rest =>
    messageText tojson lastQuery index previous (rest.head?.map TemplateMessage.role) message ++
      messagesText lastQuery (index + 1) (some message.role) rest

/-- The start of the next turn. -/
def generationPrompt (addGenerationPrompt enableThinking : Bool) : String :=
  if addGenerationPrompt then
    "<|im_start|>assistant\n" ++ if enableThinking = false then "<think>\n\n</think>\n\n" else ""
  else ""

/-- The template `qwen3_chat_template`: the text of a conversation. -/
def qwen3ChatTemplate (messages : List (TemplateMessage J)) (tools : Option (List J))
    (addGenerationPrompt enableThinking : Bool) : String :=
  templateHeader tojson tools messages.head? ++
    messagesText tojson (lastQueryIndex messages) 0 none messages ++
    generationPrompt addGenerationPrompt enableThinking

/-- The texts that `convert_messages_to_tokens` tokenizes, one for each message: a system message is
rendered with the tools and without the generation prompt, the last message with the prompt. -/
def convertMessagesToTexts (tools : Option (List J)) (addGenerationPrompt enableThinking : Bool) :
    List (TemplateMessage J) → List String
  | [] => []
  | message :: rest =>
    (if message.role = .system then
      qwen3ChatTemplate tojson [message] tools false enableThinking
    else if rest.isEmpty then
      qwen3ChatTemplate tojson [message] none addGenerationPrompt enableThinking
    else
      qwen3ChatTemplate tojson [message] none false enableThinking) ::
      convertMessagesToTexts tools addGenerationPrompt enableThinking rest

/-! ## The tokenizer of the template -/

/-- What the template reads of a message dictionary. -/
def ChatDict.toTemplate (message : ChatDict) : TemplateMessage J where
  role := message.role
  content :=
    match message.content with
    | .str text => text
    | .items _ => ""
  toolCalls := (message.toolCalls.getD []).map fun call =>
    match call with
    | .call _ f => .call ⟨f.name, .inl f.arguments⟩
    | .function f => .function ⟨f.name, .inl f.arguments⟩

/-- A message that is not an assistant message is rendered from its role and its content. -/
lemma messageText_congr {m m' : TemplateMessage J} (hm : m.role ≠ .assistant)
    (hrole : m'.role = m.role) (hcontent : m'.content = m.content) (lastQuery lastQuery' index : ℕ)
    (previous next : Option Role) :
    messageText tojson lastQuery' index previous next m' =
      messageText tojson lastQuery index previous next m := by
  unfold messageText
  rw [hrole, hcontent]
  cases hr : m.role with
  | assistant => exact absurd hr hm
  | system => rfl
  | user => rfl
  | tool => rfl

/-- So is its turn with the header and the prompt. -/
lemma qwen3ChatTemplate_congr {m m' : TemplateMessage J} (hm : m.role ≠ .assistant)
    (hrole : m'.role = m.role) (hcontent : m'.content = m.content) (tools : Option (List J))
    (addGenerationPrompt enableThinking : Bool) :
    qwen3ChatTemplate tojson [m'] tools addGenerationPrompt enableThinking =
      qwen3ChatTemplate tojson [m] tools addGenerationPrompt enableThinking := by
  have hheader : templateHeader tojson tools (some m') = templateHeader tojson tools (some m) := by
    unfold templateHeader
    simp only [hrole, hcontent]
  have hmessage : ∀ lastQuery lastQuery', messageText tojson lastQuery' 0 none none m' =
      messageText tojson lastQuery 0 none none m := fun lastQuery lastQuery' =>
    messageText_congr tojson hm hrole hcontent lastQuery lastQuery' 0 none none
  show templateHeader tojson tools (some m') ++ (messageText tojson _ 0 none none m' ++ "") ++ _ =
    templateHeader tojson tools (some m) ++ (messageText tojson _ 0 none none m ++ "") ++ _
  rw [hheader, hmessage]

/-- The tokenizer that renders the template and encodes the text. -/
def templateTokenizer (encode : String → List Token) : Tokenizer J where
  applyChatTemplate conversation addGenerationPrompt enableThinking tools
    | .qwen3 => encode (qwen3ChatTemplate tojson (conversation.map ChatDict.toTemplate) tools
        addGenerationPrompt enableThinking)
  reads_role_content m m' hm hrole hcontent g e ts := by
    refine congrArg encode (qwen3ChatTemplate_congr tojson ?_ hrole ?_ ts g e)
    · exact hm
    · simp only [ChatDict.toTemplate, hcontent]

/-- **The tokens are the encoded texts**, for messages whose contents are texts. -/
theorem convertMessagesToTokens_template (encode : String → List Token)
    (addGenerationPrompt enableThinking : Bool) (tools : List J) (messages : List ChatDict)
    (hmessages : ∀ m ∈ messages, ∃ text, m.content = .str text) :
    convertMessagesToTokens (templateTokenizer tojson encode) .qwen3 addGenerationPrompt
        enableThinking tools messages =
      .ok ((convertMessagesToTexts tojson (some tools) addGenerationPrompt enableThinking
        (messages.map ChatDict.toTemplate)).map encode) := by
  induction messages with
  | nil => rfl
  | cons m rest ih =>
    obtain ⟨text, htext⟩ := hmessages m (by simp)
    have hrest := ih fun m' hm' => hmessages m' (by simp [hm'])
    obtain ⟨role, content, toolCalls, toolCallId, name, logprobs⟩ := m
    obtain rfl : content = .str text := htext
    rw [convertMessagesToTokens, hrest, List.map_cons, convertMessagesToTexts, List.isEmpty_map]
    show Except.ok _ = Except.ok _
    congr 2
    cases role <;> cases rest <;> rfl

/-! ## Single messages and the whole conversation -/

/-- The generated text depends neither on the position of the message nor on the last query. -/
lemma generationText_eq (lastQuery index : ℕ) (last : Bool) (message : TemplateMessage J) :
    generationText tojson lastQuery index last message = generationText tojson 0 0 true message := by
  unfold generationText
  simp only [ite_self]

/-- The text of a message that is rendered on its own. -/
def singleText (message : TemplateMessage J) : String := messageText tojson 0 0 none none message

/-- What a message loses when its neighbours are tool messages: the start of its turn and the
end. -/
def mergeLoss (previous next : Option Role) (message : TemplateMessage J) : ℕ :=
  if message.role = .tool then
    (if previous = some .tool then "<|im_start|>user".length else 0) +
      if next = some .tool then "<|im_end|>
".length else 0
  else 0

/-- What the messages of a conversation lose. -/
def totalLoss : (previous : Option Role) → List (TemplateMessage J) → ℕ
  | _, [] => 0
  | previous, message :: rest =>
    mergeLoss previous (rest.head?.map TemplateMessage.role) message +
      totalLoss (some message.role) rest

/-- **A message in the loop** is shorter by its loss. -/
lemma length_messageText {message : TemplateMessage J} (hm : message.role ≠ .system)
    (lastQuery index : ℕ) (previous next : Option Role) :
    (messageText tojson lastQuery index previous next message).length +
      mergeLoss previous next message = (singleText tojson message).length := by
  unfold singleText messageText mergeLoss
  cases hr : message.role with
  | system => exact absurd hr hm
  | user => simp
  | assistant =>
    dsimp only
    rw [generationText_eq, generationText_eq tojson 0 0 (decide _)]
    simp
  | tool =>
    by_cases hp : previous = some .tool
    · by_cases hn : next = some .tool
      · simp [hp, hn, String.length_append]
        omega
      · simp [hp, hn, String.length_append]
        omega
    · by_cases hn : next = some .tool
      · simp [hp, hn, String.length_append]
      · simp [hp, hn]

/-- A message without loss is rendered as on its own. -/
lemma messageText_eq_singleText {message : TemplateMessage J} (hm : message.role ≠ .system)
    {lastQuery index : ℕ} {previous next : Option Role}
    (h : mergeLoss previous next message = 0) :
    messageText tojson lastQuery index previous next message = singleText tojson message := by
  unfold singleText messageText
  unfold mergeLoss at h
  cases hr : message.role with
  | system => exact absurd hr hm
  | user => rfl
  | assistant =>
    dsimp only
    rw [generationText_eq, generationText_eq tojson 0 0 (decide _)]
  | tool =>
    have hnone : previous ≠ some .tool ∧ next ≠ some .tool := by
      constructor
      · rintro rfl
        simp [hr] at h
      · rintro rfl
        simp [hr] at h
    simp [hnone]

/-- **The conversation is shorter** than its single messages by the total loss. -/
theorem length_texts {messages : List (TemplateMessage J)}
    (hmessages : ∀ m ∈ messages, m.role ≠ .system) (lastQuery index : ℕ)
    (previous : Option Role) :
    (messagesText tojson lastQuery index previous messages).length +
      totalLoss previous messages = (String.join (messages.map (singleText tojson))).length := by
  induction messages generalizing index previous with
  | nil => rfl
  | cons m rest ih =>
    have hhead := length_messageText tojson (hmessages m (by simp)) lastQuery index previous
      (rest.head?.map TemplateMessage.role)
    have hrest := ih (fun m' hm' => hmessages m' (by simp [hm'])) (index + 1) (some m.role)
    rw [messagesText, totalLoss, List.map_cons, String.join_cons, String.length_append,
      String.length_append]
    omega

/-- A conversation without loss is the text of its single messages. -/
lemma messagesText_eq_join {messages : List (TemplateMessage J)}
    (hmessages : ∀ m ∈ messages, m.role ≠ .system) {lastQuery index : ℕ}
    {previous : Option Role} (h : totalLoss previous messages = 0) :
    messagesText tojson lastQuery index previous messages =
      String.join (messages.map (singleText tojson)) := by
  induction messages generalizing index previous with
  | nil => rfl
  | cons m rest ih =>
    rw [totalLoss, Nat.add_eq_zero_iff] at h
    rw [messagesText, List.map_cons, String.join_cons,
      messageText_eq_singleText tojson (hmessages m (by simp)) h.1,
      ih (fun m' hm' => hmessages m' (by simp [hm'])) h.2]

/-- No two adjacent messages are tool messages. -/
def NoAdjacentTools (messages : List (TemplateMessage J)) : Prop :=
  messages.IsChain fun m m' => ¬ (m.role = .tool ∧ m'.role = .tool)

/-- Nothing is lost exactly if no two tool messages are adjacent. -/
lemma totalLoss_eq_zero_iff (previous : Option Role) (messages : List (TemplateMessage J)) :
    totalLoss previous messages = 0 ↔ NoAdjacentTools messages ∧
      ¬ (previous = some .tool ∧ messages.head?.map TemplateMessage.role = some .tool) := by
  induction messages generalizing previous with
  | nil => simp [totalLoss, NoAdjacentTools]
  | cons m rest ih =>
    have hchain : NoAdjacentTools (m :: rest) ↔
        ¬ (m.role = .tool ∧ rest.head?.map TemplateMessage.role = some .tool) ∧
          NoAdjacentTools rest := by
      cases rest with
      | nil => simp [NoAdjacentTools]
      | cons m' rest => simp [NoAdjacentTools, List.isChain_cons_cons]
    rw [totalLoss, Nat.add_eq_zero_iff, ih, hchain, mergeLoss]
    by_cases hm : m.role = .tool
    · have hpos : "<|im_start|>user".length ≠ 0 ∧ "<|im_end|>\n".length ≠ 0 := by decide
      by_cases hp : previous = some .tool <;>
        by_cases hn : rest.head?.map TemplateMessage.role = some .tool <;>
        simp [hm, hp, hn, hpos]
    · simp [hm]

/-- A message of another role than `system`, on its own. -/
lemma qwen3ChatTemplate_singleton {message : TemplateMessage J} (hm : message.role ≠ .system)
    (addGenerationPrompt enableThinking : Bool) :
    qwen3ChatTemplate tojson [message] none addGenerationPrompt enableThinking =
      singleText tojson message ++ generationPrompt addGenerationPrompt enableThinking := by
  have hloss : mergeLoss none none message = 0 := by simp [mergeLoss]
  have hheader : templateHeader tojson none (some message) = "" := if_neg hm
  rw [qwen3ChatTemplate, messagesText, messagesText, List.head?_cons, hheader, List.head?_nil,
    Option.map_none, messageText_eq_singleText tojson hm hloss, String.empty_append,
    String.append_empty]

/-- The single texts of a conversation, with the generation prompt after the last one. -/
lemma join_convertMessagesToTexts (tools : Option (List J))
    (addGenerationPrompt enableThinking : Bool) {messages : List (TemplateMessage J)}
    (hmessages : ∀ m ∈ messages, m.role ≠ .system) :
    String.join (convertMessagesToTexts tojson tools addGenerationPrompt enableThinking messages) =
      String.join (messages.map (singleText tojson)) ++
        if messages = [] then "" else generationPrompt addGenerationPrompt enableThinking := by
  induction messages with
  | nil => rfl
  | cons m rest ih =>
    have hm := hmessages m (by simp)
    have hrest := ih fun m' hm' => hmessages m' (by simp [hm'])
    rw [convertMessagesToTexts, String.join_cons, hrest, if_neg hm, List.map_cons,
      String.join_cons]
    cases rest with
    | nil => simp [qwen3ChatTemplate_singleton tojson hm]
    | cons m' rest =>
      simp [qwen3ChatTemplate_singleton tojson hm, generationPrompt, String.append_assoc]

/-- A conversation that starts with a system message: its texts and the whole text. -/
lemma texts_and_template (tools : Option (List J)) (addGenerationPrompt enableThinking : Bool)
    {system : TemplateMessage J} (hsystem : system.role = .system)
    {messages : List (TemplateMessage J)} (hmessages : ∀ m ∈ messages, m.role ≠ .system) :
    String.join (convertMessagesToTexts tojson tools addGenerationPrompt enableThinking
        (system :: messages)) =
      templateHeader tojson tools (some system) ++ (String.join (messages.map (singleText tojson)) ++
        if messages = [] then "" else generationPrompt addGenerationPrompt enableThinking) ∧
    qwen3ChatTemplate tojson (system :: messages) tools addGenerationPrompt enableThinking =
      templateHeader tojson tools (some system) ++
        messagesText tojson (lastQueryIndex (system :: messages)) 1 (some .system) messages ++
        generationPrompt addGenerationPrompt enableThinking := by
  have hfirst : ∀ (lastQuery : ℕ) next,
      messageText tojson lastQuery 0 none next system = "" := by
    intro lastQuery next
    simp [messageText, hsystem]
  constructor
  · have hsingle : qwen3ChatTemplate tojson [system] tools false enableThinking =
        templateHeader tojson tools (some system) := by
      simp [qwen3ChatTemplate, messagesText, hfirst, generationPrompt]
    rw [convertMessagesToTexts, String.join_cons, if_pos hsystem, hsingle,
      join_convertMessagesToTexts tojson _ _ _ hmessages]
  · simp [qwen3ChatTemplate, messagesText, hfirst, hsystem]

/-- With a message after the system one, the texts are longer than the whole text by the loss. -/
lemma length_join_texts (tools : Option (List J)) (addGenerationPrompt enableThinking : Bool)
    {system : TemplateMessage J} (hsystem : system.role = .system)
    {messages : List (TemplateMessage J)} (hmessages : ∀ m ∈ messages, m.role ≠ .system)
    (hne : messages ≠ []) :
    (String.join (convertMessagesToTexts tojson tools addGenerationPrompt enableThinking
        (system :: messages))).length =
      (qwen3ChatTemplate tojson (system :: messages) tools addGenerationPrompt
        enableThinking).length + totalLoss (some .system) messages := by
  obtain ⟨htexts, hwhole⟩ := texts_and_template tojson tools addGenerationPrompt enableThinking
    hsystem hmessages
  have hlength := length_texts tojson hmessages (lastQueryIndex (system :: messages)) 1
    (some .system)
  rw [htexts, hwhole, if_neg hne]
  simp only [String.length_append]
  omega

/-- **When the single texts are the text of the conversation**: exactly if no two tool messages are
adjacent, and the generation prompt, if there is one, follows another message than the system
one. -/
theorem texts_eq_template_iff (tools : Option (List J)) (addGenerationPrompt enableThinking : Bool)
    {system : TemplateMessage J} (hsystem : system.role = .system)
    {messages : List (TemplateMessage J)} (hmessages : ∀ m ∈ messages, m.role ≠ .system) :
    String.join (convertMessagesToTexts tojson tools addGenerationPrompt enableThinking
        (system :: messages)) =
      qwen3ChatTemplate tojson (system :: messages) tools addGenerationPrompt enableThinking ↔
    NoAdjacentTools messages ∧ (addGenerationPrompt = true → messages ≠ []) := by
  have hloss : totalLoss (some .system) messages = 0 ↔ NoAdjacentTools messages := by
    simp [totalLoss_eq_zero_iff]
  obtain ⟨htexts, hwhole⟩ := texts_and_template tojson tools addGenerationPrompt enableThinking
    hsystem hmessages
  by_cases hnil : messages = []
  · subst hnil
    rw [htexts, hwhole]
    cases addGenerationPrompt with
    | false => simp [generationPrompt, messagesText, NoAdjacentTools]
    | true =>
      refine iff_of_false (fun heq => ?_) fun h => h.2 rfl rfl
      have hlength := congrArg String.length heq
      simp [generationPrompt, messagesText] at hlength
  · rw [← hloss]
    constructor
    · intro heq
      have hlength := length_join_texts tojson tools addGenerationPrompt enableThinking hsystem
        hmessages hnil
      rw [heq] at hlength
      exact ⟨by omega, fun _ => hnil⟩
    · rintro ⟨hzero, -⟩
      rw [htexts, hwhole, if_neg hnil, messagesText_eq_join tojson hmessages hzero,
        String.append_assoc]

end Template

/-! ### Two tool messages after one answer -/

/-- The system message. -/
def calculatorSystem : TemplateMessage String := ⟨.system, "You are a calculator.", none, []⟩

/-- A question, an answer with two tool calls, and the first tool message. -/
def oneToolMessage : List (TemplateMessage String) :=
  [⟨.user, "Add 1 and 2, and 3 and 4.", none, []⟩,
    ⟨.assistant, "I add.", none,
      [.function ⟨"add", .inl "[1, 2]"⟩, .function ⟨"add", .inr "[3, 4]"⟩]⟩,
    ⟨.tool, "3", none, []⟩]

/-- **The same text**, with one tool message. -/
theorem texts_oneToolMessage :
    String.join (convertMessagesToTexts id (some ["add"]) true false
        (calculatorSystem :: oneToolMessage)) =
      qwen3ChatTemplate id (calculatorSystem :: oneToolMessage) (some ["add"]) true false :=
  (texts_eq_template_iff id (some ["add"]) true false rfl (by decide)).mpr
    ⟨by simp [NoAdjacentTools, oneToolMessage], fun _ => by simp [oneToolMessage]⟩

/-- **Different texts**: the second tool message is a turn of its own only if it is rendered on its
own. -/
theorem texts_ne_template_twoToolMessages :
    String.join ([⟨.tool, "3", none, []⟩, ⟨.tool, "7", none, []⟩].map (singleText id)) =
      "<|im_start|>user
<tool_response>
3
</tool_response><|im_end|>
" ++
        "<|im_start|>user
<tool_response>
7
</tool_response><|im_end|>
" ∧
    messagesText id 1 3 (some .assistant) [⟨.tool, "3", none, []⟩, ⟨.tool, "7", none, []⟩] =
      "<|im_start|>user
<tool_response>
3
</tool_response>" ++
        "
<tool_response>
7
</tool_response><|im_end|>
" ∧
    String.join (convertMessagesToTexts id (some ["add"]) true false
        (calculatorSystem :: (oneToolMessage ++ [⟨.tool, "7", none, []⟩]))) ≠
      qwen3ChatTemplate id (calculatorSystem :: (oneToolMessage ++ [⟨.tool, "7", none, []⟩]))
        (some ["add"]) true false := by
  refine ⟨by decide, by decide, fun heq => ?_⟩
  have hsystem : calculatorSystem.role = .system := rfl
  have hmessages : ∀ m ∈ oneToolMessage ++ [⟨.tool, "7", none, []⟩], m.role ≠ .system := by decide
  have hlength := length_join_texts id (some ["add"]) true false hsystem hmessages (by simp)
  rw [heq] at hlength
  simp [oneToolMessage, totalLoss, mergeLoss] at hlength

end ProRLAgent
