import Mathlib.Data.List.DropRight
import ProRLAgent.Tokens.Vision

set_option relaxedAutoImplicit false
set_option autoImplicit false

/-!
# Training tokens of the vision-language model

A request of `openhands/llm/nvidia/qwen2_5_vl.py` renders each pending message on its own with
`qwen2_5_vl_chat_template`, which puts a default system turn before a first message of another role,
and the last one with the start of the answer. The message loop of
`process_messages_from_agent_state_gui` renders each message with
`qwen2_5_vl_chat_template_partial`, which has no default turn, and without the start of an answer.

The texts of the templates are modelled here, and the tokenizer encodes a text. The templates do not
read the tools.

## Main definitions

* `ProRLAgent.Vision.qwen25VlChatTemplate`, `ProRLAgent.Vision.qwen25VlChatTemplatePartial` — the
  templates.
* `ProRLAgent.Vision.TextTokenizer` — an encoding that has the start of a turn as a token of its own.
* `ProRLAgent.Vision.processMessagesGui` — the ids that the loop attaches.
* `ProRLAgent.Vision.TextConversation` — the append-only conversations.
* `ProRLAgent.Vision.TokensMatch` — the attached ids up to an answer are those of its request.

## Main results

* `ProRLAgent.Vision.requestPayload_eq_textPayload` — the payload of the model of a request with a
  tokenizer that renders the template.
* `ProRLAgent.Vision.tokensMatch_iff` — which answers match.
-/

namespace ProRLAgent.Vision

/-! ## The templates -/

/-- An entry of a content list. -/
def NormalItem.rendered : NormalItem → String
  | .imageUrl _ => "<|vision_start|><|image_pad|><|vision_end|>"
  | .text t => t

/-- The content of a turn. -/
def NormalContent.rendered : NormalContent → String
  | .str text => text
  | .items entries => String.join (entries.map NormalItem.rendered)

/-- What follows the start of a turn. -/
def turnBody (role : Role) (content : NormalContent) : String :=
  role.name ++ "\n" ++ content.rendered ++ "<|im_end|>\n"

/-- One turn. -/
def turnText (message : Role × NormalContent) : String :=
  "<|im_start|>" ++ turnBody message.1 message.2

/-- The system turn of a conversation without one. -/
def defaultSystem : String := "<|im_start|>system\nYou are a helpful assistant.<|im_end|>\n"

/-- The start of the answer. -/
def answerStart (addGenerationPrompt : Bool) : String :=
  if addGenerationPrompt then "<|im_start|>assistant\n" else ""

/-- The template `qwen2_5_vl_chat_template`. -/
def qwen25VlChatTemplate (messages : List (Role × NormalContent)) (addGenerationPrompt : Bool) :
    String :=
  (match messages with
    | (role, _) :: _ => if role ≠ .system then defaultSystem else ""
    | [] => "") ++
    String.join (messages.map turnText) ++ answerStart addGenerationPrompt

/-- The template `qwen2_5_vl_chat_template_partial`. -/
def qwen25VlChatTemplatePartial (messages : List (Role × NormalContent))
    (addGenerationPrompt : Bool) : String :=
  String.join (messages.map turnText) ++ answerStart addGenerationPrompt

/-- An encoding of texts that cuts at the start of a turn. -/
structure TextTokenizer where
  /-- The ids of a text. -/
  encode : String → List Token
  /-- The id of the start of a turn. -/
  imStart : Token
  /-- The start of a turn is a token of its own. -/
  encode_imStart : ∀ before after,
    encode (before ++ "<|im_start|>" ++ after) = encode before ++ imStart :: encode after

section Tokenizer

variable (E : TextTokenizer)

/-- The function `convert_messages_to_tokens` with one of the templates: only the last message gets
the start of the answer, unless it is a system message. -/
def convertMessagesToIds (chatTemplate : List (Role × NormalContent) → Bool → String)
    (addGenerationPrompt : Bool) : List Message → List (List Token)
  | [] => []
  | message :: rest =>
    let content := message.content.normalized
    let tokenIds :=
      if message.role = .system then E.encode (chatTemplate [(message.role, content)] false)
      else if rest.isEmpty then
        E.encode (chatTemplate [(message.role, content)] addGenerationPrompt)
      else E.encode (chatTemplate [(message.role, content)] false)
    tokenIds :: convertMessagesToIds chatTemplate addGenerationPrompt rest

-- The equations of this function are generated here, not in each proof that unfolds it.
section

attribute [local simp] convertMessagesToIds

end

/-! ## Generation -/

/-- The prompt of a request: the ids of the last answered message, and the pending messages. -/
def promptIds (messages : List Message) : List Token :=
  let collected := collect messages.reverse
  collected.inputIds ++
    (convertMessagesToIds E qwen25VlChatTemplate true collected.pendingMessages.reverse).flatten

/-- The payload of a request. -/
def textPayload (maxModelLen : ℤ) (messages : List Message) : Except PyError RequestPayload := do
  let inputIds := promptIds E messages
  let allImagesBase64 := (collect messages.reverse).processedMessages.reverse.flatMap
    extractImagesFromMessage
  let maxTokens := maxModelLen - inputIds.length
  if maxTokens ≤ 0 then
    throw (.contextWindowExceeded inputIds.length maxTokens maxModelLen)
  return ⟨inputIds, maxTokens, if allImagesBase64.isEmpty then none else some allImagesBase64⟩

/-- The function `request_response_tokens`. -/
def textRequest (maxModelLen : ℤ) (post : RequestPayload → Except PyError (Option (List Token)))
    (messages : List Message) : Except PyError GenerateResult := do
  let payload ← textPayload E maxModelLen messages
  let responseIds ← post payload
  match responseIds with
  | none => throw (.valueError "Response does not contain response_ids")
  | some responseIds => return ⟨payload.promptIds, responseIds⟩

/-! ## Training -/

/-- An entry of the new message: a text or an image, and nothing else. -/
def Item.loopItem : Item → Except PyError Item
  | .str _ => .error (.typeError "string indices must be integers, not 'str'")
  | .dict (some "text") _ (some text) => .ok (.dict (some "text") none (some text))
  | .dict (some "text") _ none => .error (.keyError "text")
  | .dict (some "image_url") (some imageUrl) _ =>
    .ok (.dict (some "image_url") (some imageUrl) none)
  | .dict (some "image_url") none _ => .error (.keyError "image_url")
  | .dict (some type) _ _ => .error (.runtimeError ("Unsupported content type: " ++ type))
  | .dict none _ _ => .error (.keyError "type")

/-- The content of the new message: an empty list stands for the empty text. -/
def Content.loopContent : Content → Except PyError Content
  | .str text => .ok (.str text)
  | .items [] => .ok (.str "")
  | .items entries => Content.items <$> entries.mapM Item.loopItem

/-- The ids that the loop attaches to a message. -/
def attachedGuiIds (message : Message) : Except PyError (List Token) := do
  let content ← message.content.loopContent
  match message.outputIds with
  | some outputIds => return outputIds
  | none =>
    match convertMessagesToIds E qwen25VlChatTemplatePartial false
        [⟨message.role, content, none, none⟩] with
    | tokenIds :: _ => return tokenIds
    | [] => throw .indexError

/-- The loop of `process_messages_from_agent_state_gui`, after the cut of the messages behind the
last answer: the ids of each message. -/
def processMessagesGui (messages : List Message) : Except PyError (List (List Token)) :=
  (messages.rdropWhile fun message => message.role ≠ .assistant).mapM (attachedGuiIds E)

/-! ## Conversations -/

/-- An entry as the message model serializes it: a text or an image. -/
inductive Item.Serialized : Item → Prop
  | text (text : String) : Item.Serialized (.dict (some "text") none (some text))
  | image (imageUrl : ImageUrl) :
      Item.Serialized (.dict (some "image_url") (some imageUrl) none)

/-- A content as the message model serializes it. -/
def Content.Serialized : Content → Prop
  | .str _ => True
  | .items entries => ∀ item ∈ entries, item.Serialized

/-- **Append-only conversations**: a system message, then messages of the user and of tools, and
answers that a request on the messages so far returned. -/
inductive TextConversation : List Message → Prop
  | system (content : Content) (hcontent : content.Serialized) :
      TextConversation [⟨.system, content, none, none⟩]
  | message {ms : List Message} (h : TextConversation ms) (role : Role) (content : Content)
      (hrole : role = .user ∨ role = .tool) (hcontent : content.Serialized) :
      TextConversation (ms ++ [⟨role, content, none, none⟩])
  | answer {ms : List Message} (h : TextConversation ms) (maxModelLen : ℤ)
      (post : RequestPayload → Except PyError (Option (List Token))) (res : GenerateResult)
      (hres : textRequest E maxModelLen post ms = .ok res) (content : Content)
      (hcontent : content.Serialized) :
      TextConversation (ms ++ [⟨.assistant, content, some res.inputIds, some res.outputIds⟩])

/-- **The tokens match** up to the answer behind `before`: the attached ids of the conversation up to
it are the ids of its request and its own. -/
def TokensMatch (conversation before : List Message) (answer : Message) : Prop :=
  ∃ ids, processMessagesGui E conversation = .ok ids ∧
    (ids.take (before.length + 1)).flatten =
      answer.inputIds.getD [] ++ answer.outputIds.getD []

/-! ## One message -/

variable {E}

/-- A message as a request renders it. -/
def renderedIds (E : TextTokenizer) (addGenerationPrompt : Bool) (message : Message) : List Token :=
  E.encode (qwen25VlChatTemplate [(message.role, message.content.normalized)]
    (addGenerationPrompt && message.role ≠ .system))

/-- A message as the loop renders it. -/
def loopIds (E : TextTokenizer) (message : Message) : List Token :=
  match message.outputIds with
  | some outputIds => outputIds
  | none => E.encode (turnText (message.role, message.content.normalized))

/-- The loop keeps a serialized entry. -/
lemma Item.Serialized.loopItem_eq {item : Item} (h : item.Serialized) :
    item.loopItem = .ok item := by
  cases h <;> rfl

/-- The loop keeps the text of a serialized content. -/
lemma Content.Serialized.exists_loopContent {content : Content} (h : content.Serialized) :
    ∃ content', content.loopContent = .ok content' ∧
      content'.normalized.rendered = content.normalized.rendered := by
  cases content with
  | str text => exact ⟨_, rfl, rfl⟩
  | items entries =>
    cases entries with
    | nil => exact ⟨_, rfl, rfl⟩
    | cons item entries =>
      refine ⟨.items (item :: entries), ?_, rfl⟩
      have hmap : (item :: entries).mapM Item.loopItem = .ok (item :: entries) := by
        rw [Except.mapM_eq_ok_iff, List.forall₂_same]
        exact fun item hitem => (h item hitem).loopItem_eq
      rw [Content.loopContent, hmap]
      · rfl
      · simp

/-- The loop attaches the ids of its template. -/
lemma attachedGuiIds_eq {message : Message} (h : message.content.Serialized) :
    attachedGuiIds E message = .ok (loopIds E message) := by
  obtain ⟨content, hcontent, hrendered⟩ := h.exists_loopContent
  rw [attachedGuiIds, hcontent, Except.ok_bind]
  cases hout : message.outputIds with
  | some outputIds => simp [loopIds, hout, pure, Except.pure]
  | none =>
    have hturn : turnText (message.role, content.normalized) =
        turnText (message.role, message.content.normalized) := by
      rw [turnText, turnText, turnBody, turnBody, hrendered]
    simp [loopIds, hout, convertMessagesToIds, qwen25VlChatTemplatePartial, answerStart, hturn,
      pure, Except.pure]

/-- A system message is rendered without an answer in both places. -/
lemma renderedIds_system (content : Content) (addGenerationPrompt : Bool) :
    renderedIds E addGenerationPrompt ⟨.system, content, none, none⟩ =
      loopIds E ⟨.system, content, none, none⟩ := by
  simp [renderedIds, loopIds, qwen25VlChatTemplate, answerStart]

/-- The start of a turn adds a token to what stands before it. -/
lemma length_encode_lt (before after : String) :
    (E.encode before).length < (E.encode (before ++ "<|im_start|>" ++ after)).length := by
  rw [E.encode_imStart, List.length_append, List.length_cons]
  omega

/-- **The default turn**: a request renders more for a single message of the user or of a tool. -/
lemma length_loopIds_lt {role : Role} (hrole : role ≠ .system) (content : Content) :
    (loopIds E ⟨role, content, none, none⟩).length <
      (renderedIds E false ⟨role, content, none, none⟩).length := by
  have hloop : loopIds E ⟨role, content, none, none⟩ =
      E.encode ("" ++ "<|im_start|>" ++ turnBody role content.normalized) := by
    rw [loopIds, turnText, String.empty_append]
  have hrendered : renderedIds E false ⟨role, content, none, none⟩ =
      E.encode (defaultSystem ++ "<|im_start|>" ++ turnBody role content.normalized) := by
    simp [renderedIds, qwen25VlChatTemplate, answerStart, turnText, hrole, String.append_assoc]
  have hdefault : defaultSystem =
      "" ++ "<|im_start|>" ++ "system\nYou are a helpful assistant.<|im_end|>\n" := rfl
  rw [hloop, hrendered, E.encode_imStart, E.encode_imStart, hdefault, E.encode_imStart]
  simp only [List.length_append, List.length_cons]
  omega

/-- The start of the answer adds ids. -/
lemma length_renderedIds_le (message : Message) :
    (renderedIds E false message).length ≤ (renderedIds E true message).length := by
  by_cases hrole : message.role = .system
  · simp [renderedIds, hrole]
  · have hfalse : qwen25VlChatTemplate [(message.role, message.content.normalized)] true =
        qwen25VlChatTemplate [(message.role, message.content.normalized)] false ++
          "<|im_start|>" ++ "assistant\n" := by
      simp [qwen25VlChatTemplate, answerStart, String.append_assoc]
    simp only [renderedIds, hrole, Bool.false_and, ne_eq, not_false_eq_true, decide_true,
      Bool.and_self]
    rw [hfalse]
    exact (length_encode_lt _ _).le

/-! ## A run -/

/-- The ids of a request without the start of the answer. -/
def contextIds (E : TextTokenizer) (messages : List Message) : List Token :=
  let collected := collect messages.reverse
  collected.inputIds ++ collected.pendingMessages.reverse.flatMap (renderedIds E false)

/-- The converted messages, of which only the last one gets the start of the answer. -/
lemma convertMessagesToIds_concat (messages : List Message) (message : Message) :
    (convertMessagesToIds E qwen25VlChatTemplate true (messages ++ [message])).flatten =
      messages.flatMap (renderedIds E false) ++ renderedIds E true message := by
  induction messages with
  | nil =>
    by_cases hrole : message.role = .system <;> simp [convertMessagesToIds, renderedIds, hrole]
  | cons m messages ih =>
    rw [List.cons_append, convertMessagesToIds, List.flatten_cons, ih, List.flatMap_cons,
      List.append_assoc]
    congr 1
    simp [renderedIds]

/-- A request after one more message. -/
lemma promptIds_concat (messages : List Message) (role : Role) (content : Content) :
    promptIds E (messages ++ [⟨role, content, none, none⟩]) =
      contextIds E messages ++ renderedIds E true ⟨role, content, none, none⟩ := by
  rw [promptIds, List.reverse_concat, collect]
  simp only [List.reverse_cons, convertMessagesToIds_concat, contextIds, List.append_assoc]

/-- The context after one more message. -/
lemma contextIds_concat (messages : List Message) (role : Role) (content : Content) :
    contextIds E (messages ++ [⟨role, content, none, none⟩]) =
      contextIds E messages ++ renderedIds E false ⟨role, content, none, none⟩ := by
  rw [contextIds, List.reverse_concat, collect]
  simp [contextIds]

/-- A request after an answer takes over its ids. -/
lemma promptIds_answer (messages : List Message) (content : Content) (ids outputIds : List Token) :
    promptIds E (messages ++ [⟨.assistant, content, some ids, some outputIds⟩]) =
      ids ++ outputIds := by
  rw [promptIds, List.reverse_concat, collect]
  simp [convertMessagesToIds]

/-- The context after an answer is its ids. -/
lemma contextIds_answer (messages : List Message) (content : Content)
    (ids outputIds : List Token) :
    contextIds E (messages ++ [⟨.assistant, content, some ids, some outputIds⟩]) =
      ids ++ outputIds := by
  rw [contextIds, List.reverse_concat, collect]
  simp

/-- The ids of a returned request. -/
lemma inputIds_eq_promptIds {maxModelLen : ℤ}
    {post : RequestPayload → Except PyError (Option (List Token))} {messages : List Message}
    {res : GenerateResult} (h : textRequest E maxModelLen post messages = .ok res) :
    res.inputIds = promptIds E messages := by
  obtain ⟨payload, hpayload, hpost⟩ := Except.bind_eq_ok.mp h
  obtain ⟨responseIds, -, hreturn⟩ := Except.bind_eq_ok.mp hpost
  simp only [textPayload] at hpayload
  obtain ⟨-, hpayload⟩ := Except.ite_throw_eq_ok.mp hpayload
  obtain rfl := Except.ok.inj hpayload
  cases responseIds with
  | none => cases hreturn
  | some responseIds => rw [← Except.ok.inj hreturn]

/-- No message of the user or of a tool. -/
def NoInput (messages : List Message) : Prop :=
  ∀ message ∈ messages, message.role ≠ .user ∧ message.role ≠ .tool

/-- **What a request and the loop have of the same messages**: the same ids as long as no user and
no tool has spoken, and more for the request from then on. -/
structure Drift (E : TextTokenizer) (messages : List Message) : Prop where
  same : NoInput messages → promptIds E messages = messages.flatMap (loopIds E) ∧
    contextIds E messages = messages.flatMap (loopIds E)
  more : ¬ NoInput messages →
    (messages.flatMap (loopIds E)).length < (contextIds E messages).length
  le : (contextIds E messages).length ≤ (promptIds E messages).length

variable {conversation messages : List Message}

/-- The loop has no more ids than the context. -/
lemma Drift.length_le (h : Drift E messages) :
    (messages.flatMap (loopIds E)).length ≤ (contextIds E messages).length := by
  by_cases hnone : NoInput messages
  · exact (congrArg List.length (h.same hnone).2).ge
  · exact (h.more hnone).le

/-- **The drift of a conversation**: a message of the user or of a tool starts it, and an answer
keeps it. -/
theorem TextConversation.drift (h : TextConversation E messages) : Drift E messages := by
  induction h with
  | system content hcontent =>
    have hsame : contextIds E [⟨.system, content, none, none⟩] =
        [⟨.system, content, none, none⟩].flatMap (loopIds E) := by
      simpa [contextIds, collect] using renderedIds_system content false
    have hprompt : promptIds E [⟨.system, content, none, none⟩] =
        [⟨.system, content, none, none⟩].flatMap (loopIds E) := by
      simpa [contextIds, collect] using
        (promptIds_concat [] .system content).trans
          (congrArg _ (renderedIds_system content true))
    refine ⟨fun _ => ⟨hprompt, hsame⟩, fun hnot => absurd ?_ hnot, ?_⟩
    · simp [NoInput]
    · rw [hprompt, hsame]
  | @message ms _ role content hrole _ ih =>
    have hsystem : role ≠ .system := by rcases hrole with rfl | rfl <;> decide
    refine ⟨fun hnone => ?_, fun _ => ?_, ?_⟩
    · have hlast := hnone ⟨role, content, none, none⟩ (by simp)
      exact absurd hrole (by simpa using hlast)
    · rw [List.flatMap_append, List.flatMap_singleton, contextIds_concat, List.length_append,
        List.length_append]
      exact Nat.add_lt_add_of_le_of_lt ih.length_le (length_loopIds_lt hsystem content)
    · rw [contextIds_concat, promptIds_concat, List.length_append, List.length_append]
      exact Nat.add_le_add_left (length_renderedIds_le _) _
  | @answer ms _ maxModelLen post res hres content _ ih =>
    have hnoInput : NoInput (ms ++ [⟨.assistant, content, some res.inputIds,
        some res.outputIds⟩]) ↔ NoInput ms := by
      simp [NoInput, or_imp, forall_and]
    rw [inputIds_eq_promptIds hres] at *
    refine ⟨fun hnone => ?_, fun hsome => ?_, ?_⟩
    · rw [promptIds_answer, contextIds_answer, List.flatMap_append, List.flatMap_singleton,
        (ih.same (hnoInput.mp hnone)).1]
      exact ⟨rfl, rfl⟩
    · rw [contextIds_answer, List.flatMap_append, List.flatMap_singleton, List.length_append,
        List.length_append]
      exact Nat.add_lt_add_right ((ih.more (hnoInput.not.mp hsome)).trans_le ih.le) _
    · rw [contextIds_answer, promptIds_answer]

/-- Every content of a conversation is serialized. -/
lemma TextConversation.serialized (h : TextConversation E messages) :
    ∀ message ∈ messages, message.content.Serialized := by
  induction h with
  | system content hcontent => simpa using hcontent
  | message h role content hrole hcontent ih =>
    simpa [or_imp, forall_and] using ⟨ih, hcontent⟩
  | answer h maxModelLen post res hres content hcontent ih =>
    simpa [or_imp, forall_and] using ⟨ih, hcontent⟩

/-- **What stands before an answer** is a conversation, and the answer carries the ids of its
request. -/
lemma TextConversation.of_answer (h : TextConversation E conversation)
    {before after : List Message} {answer : Message}
    (hparts : conversation = before ++ answer :: after) (hrole : answer.role = .assistant) :
    TextConversation E before ∧ answer.inputIds = some (promptIds E before) ∧
      ∃ outputIds, answer.outputIds = some outputIds := by
  induction h generalizing after with
  | system content hcontent =>
    rw [eq_comm, List.append_eq_singleton_iff] at hparts
    rcases hparts with ⟨rfl, hanswer⟩ | ⟨-, hanswer⟩
    · obtain ⟨rfl, -⟩ := List.cons.inj hanswer
      cases hrole
    · cases hanswer
  | message h role content hinput hcontent ih =>
    rcases after.eq_nil_or_concat' with rfl | ⟨after, last, rfl⟩
    · obtain ⟨-, rfl⟩ := List.append_singleton_inj.mp hparts
      rcases hinput with rfl | rfl <;> cases hrole
    · rw [← List.cons_append, ← List.append_assoc] at hparts
      exact ih (List.append_singleton_inj.mp hparts).1
  | answer h maxModelLen post res hres content hcontent ih =>
    rcases after.eq_nil_or_concat' with rfl | ⟨after, last, rfl⟩
    · obtain ⟨rfl, rfl⟩ := List.append_singleton_inj.mp hparts
      exact ⟨h, congrArg some (inputIds_eq_promptIds hres), _, rfl⟩
    · rw [← List.cons_append, ← List.append_assoc] at hparts
      exact ih (List.append_singleton_inj.mp hparts).1

/-! ## The loop over a conversation -/

/-- The cut at the end keeps what stands up to an answer. -/
lemma exists_rdropWhile_eq (before after : List Message) {answer : Message}
    (hrole : answer.role = .assistant) :
    ∃ kept, (before ++ answer :: after).rdropWhile (fun message => message.role ≠ .assistant) =
      before ++ answer :: kept := by
  induction after using List.reverseRecOn with
  | nil => exact ⟨[], List.rdropWhile_concat_neg _ _ _ (by simp [hrole])⟩
  | append_singleton after last ih =>
    rw [← List.cons_append, ← List.append_assoc, List.rdropWhile_concat]
    split_ifs
    · exact ih
    · exact ⟨after ++ [last], by simp⟩

/-- **The ids that the loop attaches up to an answer**: those of the messages before it, and its
own. -/
lemma exists_processMessagesGui (h : TextConversation E conversation)
    {before after : List Message} {answer : Message}
    (hparts : conversation = before ++ answer :: after) (hrole : answer.role = .assistant) :
    ∃ ids, processMessagesGui E conversation = .ok ids ∧
      (ids.take (before.length + 1)).flatten =
        before.flatMap (loopIds E) ++ answer.outputIds.getD [] := by
  obtain ⟨kept, hkept⟩ := exists_rdropWhile_eq before after hrole
  obtain ⟨-, -, outputIds, houtputIds⟩ := h.of_answer hparts hrole
  have hkeep : before ++ answer :: kept <+: conversation := by
    rw [hparts, ← hkept]
    exact List.rdropWhile_prefix _ _
  refine ⟨(before ++ answer :: kept).map (loopIds E), ?_, ?_⟩
  · rw [processMessagesGui, hparts, hkept, Except.mapM_eq_ok_iff, List.forall₂_map_right_iff,
      List.forall₂_same]
    exact fun message hmessage =>
      attachedGuiIds_eq (h.serialized message (hkeep.subset hmessage))
  · rw [← List.map_take, List.append_cons, List.take_left' (by simp), List.map_append,
      List.flatten_append, List.flatMap]
    simp [loopIds, houtputIds]

/-- The tokens match exactly if the loop has the ids of the request before the answer. -/
lemma tokensMatch_iff_flatMap (h : TextConversation E conversation)
    {before after : List Message} {answer : Message}
    (hparts : conversation = before ++ answer :: after) (hrole : answer.role = .assistant) :
    TokensMatch E conversation before answer ↔
      before.flatMap (loopIds E) = promptIds E before := by
  obtain ⟨ids, hids, htake⟩ := exists_processMessagesGui h hparts hrole
  obtain ⟨-, hinputIds, -⟩ := h.of_answer hparts hrole
  constructor
  · rintro ⟨ids', hids', hmatch⟩
    obtain rfl := Except.ok.inj (hids.symm.trans hids')
    rw [htake, hinputIds] at hmatch
    exact List.append_cancel_right hmatch
  · intro heq
    exact ⟨ids, hids, by rw [htake, hinputIds, heq]; rfl⟩

/-- **When the tokens match**: exactly up to the answers that no message of the user or of a tool
stands before. -/
theorem tokensMatch_iff (h : TextConversation E conversation)
    {before after : List Message} {answer : Message}
    (hparts : conversation = before ++ answer :: after) (hrole : answer.role = .assistant) :
    TokensMatch E conversation before answer ↔
      ∀ message ∈ before, message.role ≠ .user ∧ message.role ≠ .tool := by
  rw [tokensMatch_iff_flatMap h hparts hrole]
  have hdrift : Drift E before := (h.of_answer hparts hrole).1.drift
  constructor
  · intro heq
    by_contra hsome
    have hlt := (hdrift.more hsome).trans_le hdrift.le
    rw [heq] at hlt
    exact lt_irrefl _ hlt
  · exact fun hnone => (hdrift.same hnone).1.symm

/-! ## The request with a tokenizer for images -/

/-- The messages that a request renders have the roles and contents of its messages. -/
lemma exists_of_mem_pendingMessages {message : Message}
    (h : message ∈ (collect messages).pendingMessages) :
    ∃ m ∈ messages, m.role = message.role ∧ m.content = message.content := by
  induction messages with
  | nil => cases h
  | cons m older ih =>
    rw [collect] at h
    cases hout : m.outputIds with
    | some outputIds => simp [hout] at h
    | none =>
      simp only [hout, List.mem_cons] at h
      rcases h with rfl | h
      · exact ⟨m, by simp, rfl, rfl⟩
      · obtain ⟨m', hm', heq⟩ := ih h
        exact ⟨m', List.mem_cons_of_mem _ hm', heq⟩

/-- **One payload**: a tokenizer for images that renders the template on the messages at hand gives
the payload of the encoded texts. -/
theorem requestPayload_eq_textPayload {Tool : Type} {T : Tokenizer Tool} (maxModelLen : ℤ)
    (tools : List Tool)
    (hT : ∀ message ∈ messages, ∀ addGenerationPrompt ts,
      T.applyChatTemplate message.role message.content.normalized addGenerationPrompt ts =
        E.encode (qwen25VlChatTemplate [(message.role, message.content.normalized)]
          addGenerationPrompt)) :
    requestPayload T maxModelLen tools messages = textPayload E maxModelLen messages := by
  have hconvert : ∀ pending : List Message,
      (∀ message ∈ pending, ∃ m ∈ messages, m.role = message.role ∧
        m.content = message.content) →
      convertMessagesToTokens T true tools pending =
        convertMessagesToIds E qwen25VlChatTemplate true pending := by
    intro pending hpending
    induction pending with
    | nil => rfl
    | cons message rest ih =>
      obtain ⟨⟨m, hm, hrole, hcontent⟩, hrest⟩ := List.forall_mem_cons.mp hpending
      have hmessage := hT m hm
      rw [hrole, hcontent] at hmessage
      simp only [convertMessagesToTokens, convertMessagesToIds, hmessage, ih hrest]
  have hpending := hconvert (collect messages.reverse).pendingMessages.reverse fun message hm => by
    obtain ⟨m, hm', heq⟩ := exists_of_mem_pendingMessages (List.mem_reverse.mp hm)
    exact ⟨m, List.mem_reverse.mp hm', heq⟩
  rw [requestPayload, textPayload, promptIds, ← hpending]

end Tokenizer

/-! ## Two conversations -/

/-- The characters of the start of a turn. -/
def imStartChars : List Char := ['<', '|', 'i', 'm', '_', 's', 't', 'a', 'r', 't', '|', '>']

/-- The ids of the characters, and an id for the start of a turn. The first `skip` characters are
those of a start that has its id. -/
def charIds : ℕ → List Char → List Token
  | _, [] => []
  | 0, c :: cs =>
    if imStartChars <+: c :: cs then 0 :: charIds 11 cs
    else (c.toNat + 1) :: charIds 0 cs
  | skip + 1, _ :: cs => charIds skip cs

/-- The start of a turn does not overlap itself. -/
lemma imStart_prefix_of_append {x after : List Char} (hx : x ≠ [])
    (h : imStartChars <+: x ++ (imStartChars ++ after)) :
    imStartChars <+: x := by
  rcases List.prefix_or_prefix_of_prefix h (List.prefix_append x _) with hkeep | ⟨t, ht⟩
  · exact hkeep
  · rw [← ht, List.prefix_append_right_inj] at h
    obtain ⟨c, x, rfl⟩ := List.exists_cons_of_ne_nil hx
    cases t with
    | nil => simp [← ht]
    | cons c' t =>
      -- The overlap would start with the only `<` of the start.
      obtain ⟨rfl, -⟩ := List.cons_prefix_cons.mp h
      have hhead : '<' = c' := (List.cons.inj ht).1.symm
      have htail : '<' ∈ imStartChars.tail := by
        rw [← ht, hhead]
        simp
      exact absurd htail (by decide)

/-- The start of a turn has its id wherever it stands. -/
lemma charIds_append (skip : ℕ) (before after : List Char) (hskip : skip ≤ before.length) :
    charIds skip (before ++ (imStartChars ++ after)) =
      charIds skip before ++ 0 :: charIds 0 after := by
  induction before generalizing skip with
  | nil =>
    obtain rfl := Nat.le_zero.mp hskip
    rfl
  | cons c before ih =>
    cases skip with
    | succ skip => exact ih skip (Nat.le_of_succ_le_succ hskip)
    | zero =>
      rw [List.cons_append, charIds, charIds, ← List.cons_append]
      by_cases h : imStartChars <+: c :: before
      · have hlength : 11 ≤ before.length := Nat.le_of_succ_le_succ h.length_le
        rw [if_pos h, if_pos (h.trans (List.prefix_append _ _)), ih 11 hlength]
        rfl
      · rw [if_neg h, if_neg (mt (imStart_prefix_of_append (by simp)) h), ih 0 (Nat.zero_le _)]
        rfl

/-- A tokenizer of characters. -/
def charTokenizer : TextTokenizer where
  encode text := charIds 0 text.toList
  imStart := 0
  encode_imStart before after := by
    have hstart : "<|im_start|>".toList = imStartChars := rfl
    rw [String.append_assoc, String.toList_append, String.toList_append, hstart,
      charIds_append 0 _ _ (Nat.zero_le _)]

/-- The messages before an answer, and the answer. -/
def answered (before : List Message) : List Message :=
  before ++ [⟨.assistant, .str "A window.", some (promptIds charTokenizer before), some [2]⟩]

/-- An answer to a conversation. -/
lemma textConversation_answered {before : List Message}
    (h : TextConversation charTokenizer before) :
    TextConversation charTokenizer (answered before) := by
  have hres : textRequest charTokenizer ((promptIds charTokenizer before).length + 1)
      (fun _ => .ok (some [2])) before = .ok ⟨promptIds charTokenizer before, [2]⟩ := by
    have hroom : ¬ (((promptIds charTokenizer before).length : ℤ) + 1 -
        (promptIds charTokenizer before).length ≤ 0) := by omega
    simp [textRequest, textPayload, hroom, pure, Except.pure, Except.ok_bind]
  exact h.answer _ _ _ hres _ trivial

/-- The system message. -/
def browseSystem : Message := ⟨.system, .str "You browse.", none, none⟩

/-- The first message of the user. -/
def screenMessage : Message :=
  ⟨.user, .items [.dict (some "image_url") (some (.str "iVBO")) none,
    .dict (some "text") none (some "What do you see?")], none, none⟩

/-- The tokens match up to an answer right after the system message. -/
theorem tokensMatch_systemOnly : TextConversation charTokenizer (answered [browseSystem]) ∧
    TokensMatch charTokenizer (answered [browseSystem]) [browseSystem]
      ⟨.assistant, .str "A window.", some (promptIds charTokenizer [browseSystem]), some [2]⟩ := by
  have hconversation : TextConversation charTokenizer (answered [browseSystem]) :=
    textConversation_answered (.system _ trivial)
  refine ⟨hconversation, (tokensMatch_iff hconversation rfl rfl).mpr ?_⟩
  intro message hmessage
  obtain rfl := List.mem_singleton.mp hmessage
  exact ⟨by decide, by decide⟩

/-- **Ids that the model never saw together**: the request renders the default system turn before
the message of the user, and the loop does not. -/
theorem not_tokensMatch_userMessage :
    TextConversation charTokenizer (answered [browseSystem, screenMessage]) ∧
      ¬ TokensMatch charTokenizer (answered [browseSystem, screenMessage])
        [browseSystem, screenMessage]
        ⟨.assistant, .str "A window.",
          some (promptIds charTokenizer [browseSystem, screenMessage]), some [2]⟩ := by
  have hbefore : TextConversation charTokenizer [browseSystem, screenMessage] := by
    refine (TextConversation.system (.str "You browse.") trivial).message .user _ (.inl rfl) ?_
    simp only [Content.Serialized, List.forall_mem_cons]
    exact ⟨.image _, .text _, by simp⟩
  have hconversation := textConversation_answered hbefore
  refine ⟨hconversation, ?_⟩
  rw [tokensMatch_iff_flatMap hconversation rfl rfl]
  intro heq
  have hlt := (hbefore.drift.more fun hnone => ?_).trans_le hbefore.drift.le
  · rw [heq] at hlt
    exact lt_irrefl _ hlt
  · exact (hnone screenMessage (by simp)).1 rfl

end ProRLAgent.Vision
