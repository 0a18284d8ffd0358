import Mathlib.Data.List.Infix
import ProRLAgent.Basic
import ProRLAgent.Lib.Except

set_option relaxedAutoImplicit false
set_option autoImplicit false

/-!
# Images of a generation request

The request side of `openhands/llm/nvidia/qwen2_5_vl.py`: like its text-only sibling it takes over
the ids of the last answered turn and tokenizes the messages after it, and besides it sends the
images of its messages.

The chat template writes one placeholder for each image of a message. The images are collected
from the last answered message and those after it only, while the ids taken over hold the
placeholders of all messages before. So the images fit the prompt exactly if no image stands
before an answer.

The tokenizer is a parameter: `apply_chat_template` may be any function of its arguments that
writes one placeholder for each image entry and none for text.

## Main definitions

* `ProRLAgent.Vision.Message` — a message with text and image entries and the ids of its call.
* `ProRLAgent.Vision.requestPayload`, `ProRLAgent.Vision.requestResponseTokens` — the request.
* `ProRLAgent.Vision.Conversation` — the append-only conversations.
* `ProRLAgent.Vision.ImagesFit` — the images of a request are those of its prompt.

## Main results

* `ProRLAgent.Vision.imagesFit_iff` — when they are.
-/

namespace ProRLAgent.Vision

/-! ## Messages -/

/-- The value of the key `image_url`: a text, or a dictionary with the key `url`. -/
inductive ImageUrl where
  | str (image : String)
  | dict (url : Option String)
  deriving DecidableEq, Repr

/-- An entry of a content list: a text, or a dictionary with `none` for an absent key. -/
inductive Item where
  | str (text : String)
  | dict (type : Option String) (imageUrl : Option ImageUrl) (text : Option String)
  deriving DecidableEq, Repr

/-- The content of a message. -/
inductive Content where
  | str (text : String)
  | items (entries : List Item)
  deriving DecidableEq, Repr

/-- A chat message. An assistant message carries the ids of the call that produced it. -/
structure Message where
  role : Role
  content : Content
  inputIds : Option (List Token) := none
  outputIds : Option (List Token) := none
  deriving DecidableEq, Repr

/-- The image of the key `image_url`. -/
def ImageUrl.image : ImageUrl → String
  | str image => image
  | dict url => url.getD ""

/-- The image without a data URI before it. -/
def cleanImage (image : String) : String :=
  if "data:image".toList <+: image.toList ∧ ',' ∈ image.toList then
    String.ofList (image.toList.dropWhile (· ≠ ',')).tail
  else
    image

/-- The image that an entry contributes, if any. -/
def Item.image? : Item → Option String
  | dict (some "image_url") imageUrl _ =>
    let image := cleanImage ((imageUrl.map ImageUrl.image).getD "")
    if image = "" then none else some image
  | _ => none

/-- The function `extract_images_from_message`. -/
def extractImagesFromMessage (message : Message) : List String :=
  match message.content with
  | .items entries => entries.filterMap Item.image?
  | .str _ => []

/-! ## Tokenizing pending messages -/

/-- An entry as the chat template gets it. -/
inductive NormalItem where
  | imageUrl (imageUrl : ImageUrl)
  | text (text : String)
  deriving DecidableEq, Repr

/-- The content as the chat template gets it. -/
inductive NormalContent where
  | str (text : String)
  | items (entries : List NormalItem)
  deriving DecidableEq, Repr

/-- The normalized entry: an image if the key is there, else a text, else nothing. -/
def Item.normalized? : Item → Option NormalItem
  | str text => some (.text text)
  | dict _ (some imageUrl) _ => some (.imageUrl imageUrl)
  | dict _ none (some text) => some (.text text)
  | dict _ none none => none

/-- The normalized content. -/
def Content.normalized : Content → NormalContent
  | str text => .str text
  | items entries => .items (entries.filterMap Item.normalized?)

/-- The entry is an image. -/
def NormalItem.isImage : NormalItem → Bool
  | imageUrl _ => true
  | text _ => false

/-- The number of image entries. -/
def NormalContent.imageCount : NormalContent → ℕ
  | str _ => 0
  | items entries => entries.countP NormalItem.isImage

/-- A tokenizer with the chat template of the model, which reads the role and the content of a
message. `Tool` is the type of the tool descriptions. -/
structure Tokenizer (Tool : Type) where
  /-- The ids of one rendered message. -/
  applyChatTemplate : Role → NormalContent → (addGenerationPrompt : Bool) →
    (tools : Option (List Tool)) → List Token
  /-- The id of the image placeholder. -/
  imagePad : Token
  /-- One placeholder is written for each image entry, and none for the rest. -/
  count_imagePad : ∀ role content prompt tools,
    (applyChatTemplate role content prompt tools).count imagePad = content.imageCount

variable {Tool : Type}

/-- The function `convert_messages_to_tokens`: only a system message gets the tools, and only the
last message of the list the generation prompt. -/
def convertMessagesToTokens (T : Tokenizer Tool) (addGenerationPrompt : Bool)
    (tools : List Tool) : List Message → List (List Token)
  | [] => []
  | message :: rest =>
    let content := message.content.normalized
    let tokenIds :=
      if message.role = .system then
        T.applyChatTemplate message.role content false (some tools)
      else if rest.isEmpty then
        T.applyChatTemplate message.role content addGenerationPrompt none
      else
        T.applyChatTemplate message.role content false none
    tokenIds :: convertMessagesToTokens T addGenerationPrompt tools rest

/-! ## A generation request -/

/-- What the loop over the messages collects, newest message first. -/
structure Collected where
  inputIds : List Token
  pendingMessages : List Message
  processedMessages : List Message

/-- The loop over the conversation, newest message first: it stops at the last answered message. -/
def collect : List Message → Collected
  | [] => ⟨[], [], []⟩
  | message :: older =>
    match message.outputIds with
    | some outputIds => ⟨message.inputIds.getD [] ++ outputIds, [], [message]⟩
    | none =>
      let rest := collect older
      let newMessage := { message with inputIds := none, outputIds := none }
      ⟨rest.inputIds, newMessage :: rest.pendingMessages, newMessage :: rest.processedMessages⟩

/-- The part of the request payload that depends on the messages; `images` is absent if there are
none. -/
structure RequestPayload where
  promptIds : List Token
  maxTokens : ℤ
  images : Option (List String)

/-- The payload of a request. -/
def requestPayload (T : Tokenizer Tool) (maxModelLen : ℤ) (tools : List Tool)
    (messages : List Message) : Except PyError RequestPayload := do
  let collected := collect messages.reverse
  let allImagesBase64 := collected.processedMessages.reverse.flatMap extractImagesFromMessage
  let pendingMessagesIds := convertMessagesToTokens T true tools collected.pendingMessages.reverse
  let inputIds := collected.inputIds ++ pendingMessagesIds.flatten
  let maxTokens := maxModelLen - inputIds.length
  if maxTokens ≤ 0 then
    throw (.contextWindowExceeded inputIds.length maxTokens maxModelLen)
  return ⟨inputIds, maxTokens, if allImagesBase64.isEmpty then none else some allImagesBase64⟩

/-- What an answered request carries over into the assistant message. -/
structure GenerateResult where
  inputIds : List Token
  outputIds : List Token

/-- The function `request_response_tokens`. The server maps the payload to the generated ids, if
its answer has them, or to an exception. -/
def requestResponseTokens (T : Tokenizer Tool) (maxModelLen : ℤ) (tools : List Tool)
    (post : RequestPayload → Except PyError (Option (List Token))) (messages : List Message) :
    Except PyError GenerateResult := do
  let payload ← requestPayload T maxModelLen tools messages
  let responseIds ← post payload
  match responseIds with
  | none => throw (.valueError "Response does not contain response_ids")
  | some responseIds => return ⟨payload.promptIds, responseIds⟩

/-! ## Conversations -/

/-- An entry is a text, or an image with type `image_url` and a value. -/
def Item.WellFormed : Item → Prop
  | str _ => True
  | dict type imageUrl _ =>
    (type = some "image_url" ∧ ∃ url, imageUrl = some url ∧ cleanImage url.image ≠ "") ∨
      (type ≠ some "image_url" ∧ imageUrl = none)

/-- All entries of a content are texts or images. -/
def Content.WellFormed : Content → Prop
  | str _ => True
  | items entries => ∀ item ∈ entries, item.WellFormed

/-- No entry of a content is an image. -/
def Content.TextOnly : Content → Prop
  | str _ => True
  | items entries => ∀ item ∈ entries, item.image? = none

/-- **Append-only conversations**: messages with text and images are appended, and answers that a
request on the messages so far returned. Generated ids hold no placeholder, and an answer is
text. -/
inductive Conversation (T : Tokenizer Tool) : List Message → Prop
  | nil : Conversation T []
  | message {ms : List Message} (h : Conversation T ms) (role : Role) (content : Content)
      (hrole : role ≠ .assistant) (hcontent : content.WellFormed) :
      Conversation T (ms ++ [⟨role, content, none, none⟩])
  | answer {ms : List Message} (h : Conversation T ms) (maxModelLen : ℤ) (tools : List Tool)
      (post : RequestPayload → Except PyError (Option (List Token))) (res : GenerateResult)
      (hres : requestResponseTokens T maxModelLen tools post ms = .ok res)
      (hgenerated : T.imagePad ∉ res.outputIds) (content : Content) (hcontent : content.TextOnly) :
      Conversation T (ms ++ [⟨.assistant, content, some res.inputIds, some res.outputIds⟩])

/-- **The images fit the prompt**: they are the images of all messages, one for each placeholder. -/
def ImagesFit (T : Tokenizer Tool) (messages : List Message) (payload : RequestPayload) : Prop :=
  payload.images.getD [] = messages.flatMap extractImagesFromMessage ∧
    (payload.images.getD []).length = payload.promptIds.count T.imagePad

/-- No image stands before an answer. -/
def NoImageBeforeAnswer (messages : List Message) : Prop :=
  ∀ before answer after, messages = before ++ answer :: after → answer.role = .assistant →
    ∀ message ∈ before, extractImagesFromMessage message = []

/-! ## Images and placeholders of messages -/

/-- A well-formed entry contributes an image exactly if its normalized entry is one. -/
lemma Item.WellFormed.isSome_image? {item : Item} (h : item.WellFormed) :
    item.image?.isSome = (item.normalized?.map NormalItem.isImage).getD false := by
  cases item with
  | str text => rfl
  | dict type imageUrl text =>
    rcases h with ⟨rfl, url, rfl, hurl⟩ | ⟨htype, rfl⟩
    · simp [Item.image?, Item.normalized?, NormalItem.isImage, hurl]
    · have hnone : (Item.dict type none text).image? = none := by
        rw [Item.image?.eq_def]
        split
        · next heq => exact absurd (Item.dict.inj heq).1 htype
        · rfl
      rw [hnone]
      cases text <;> rfl

/-- **As many images as placeholders**: the image entries that the chat template sees. -/
lemma length_extractImages {message : Message} (h : message.content.WellFormed) :
    (extractImagesFromMessage message).length = message.content.normalized.imageCount := by
  obtain ⟨role, content, inputIds, outputIds⟩ := message
  cases content with
  | str text => rfl
  | items entries =>
    simp only [extractImagesFromMessage, Content.normalized, NormalContent.imageCount]
    induction entries with
    | nil => rfl
    | cons item entries ih =>
      obtain ⟨hitem, hentries⟩ := List.forall_mem_cons.mp h
      have hhead := hitem.isSome_image?
      have htail := ih hentries
      cases himage : item.image? <;> cases hnormal : item.normalized? <;>
        simp_all

/-- The placeholders of converted messages. -/
lemma count_convertMessagesToTokens (T : Tokenizer Tool) (prompt : Bool) (tools : List Tool)
    {messages : List Message} (h : ∀ message ∈ messages, message.content.WellFormed) :
    (convertMessagesToTokens T prompt tools messages).flatten.count T.imagePad =
      (messages.flatMap extractImagesFromMessage).length := by
  induction messages with
  | nil => rfl
  | cons message messages ih =>
    obtain ⟨hmessage, hmessages⟩ := List.forall_mem_cons.mp h
    rw [convertMessagesToTokens, List.flatten_cons, List.count_append, ih hmessages,
      List.flatMap_cons, List.length_append, length_extractImages hmessage]
    congr 1
    split_ifs <;> exact T.count_imagePad _ _ _ _

/-- An answer contributes no image. -/
lemma extractImages_of_textOnly {message : Message} (h : message.content.TextOnly) :
    extractImagesFromMessage message = [] := by
  obtain ⟨role, content, inputIds, outputIds⟩ := message
  cases content with
  | str text => rfl
  | items entries => exact List.filterMap_eq_nil_iff.mpr h

/-! ## What the loop collects -/

/-- **The split of a conversation** at its last answer, with what the loop collects of it: ids
with the placeholders of the answered part, and the images of the part after it. -/
structure Split (T : Tokenizer Tool) (messages answered pending : List Message) : Prop where
  parts : messages = answered ++ pending
  answered_last : answered = [] ∨ ∃ before answer, answered = before ++ [answer] ∧
    answer.role = .assistant ∧ extractImagesFromMessage answer = []
  pending_roles : ∀ message ∈ pending, message.role ≠ .assistant
  pending_content : ∀ message ∈ pending, message.content.WellFormed
  pendingMessages : (collect messages.reverse).pendingMessages.reverse = pending
  images : (collect messages.reverse).processedMessages.reverse.flatMap extractImagesFromMessage =
    pending.flatMap extractImagesFromMessage
  placeholders : (collect messages.reverse).inputIds.count T.imagePad =
    (answered.flatMap extractImagesFromMessage).length

variable {T : Tokenizer Tool} {messages answered pending : List Message}

/-- The placeholders of a request are as many as the images of all messages. -/
lemma Split.count_promptIds (h : Split T messages answered pending) {maxModelLen : ℤ}
    {tools : List Tool} {payload : RequestPayload}
    (hpayload : requestPayload T maxModelLen tools messages = .ok payload) :
    payload.promptIds.count T.imagePad = (messages.flatMap extractImagesFromMessage).length ∧
      payload.images.getD [] = pending.flatMap extractImagesFromMessage := by
  simp only [requestPayload, h.pendingMessages, h.images] at hpayload
  obtain ⟨-, hpayload⟩ := Except.ite_throw_eq_ok.mp hpayload
  obtain rfl := Except.ok.inj hpayload
  constructor
  · simp only [List.count_append, h.placeholders,
      count_convertMessagesToTokens T true tools h.pending_content]
    rw [h.parts, List.flatMap_append, List.length_append]
  · cases hall : pending.flatMap extractImagesFromMessage <;> rfl

/-- **Every conversation splits**, with one more message in the pending part or a new answered
part. -/
theorem Conversation.exists_split (h : Conversation T messages) :
    ∃ answered pending, Split T messages answered pending := by
  induction h with
  | nil => exact ⟨[], [], rfl, .inl rfl, by simp, by simp, rfl, rfl, rfl⟩
  | @message ms _ role content hrole hcontent ih =>
    obtain ⟨answered, pending, hsplit⟩ := ih
    set m : Message := ⟨role, content, none, none⟩ with hm
    have hcollect : collect (ms ++ [m]).reverse =
        ⟨(collect ms.reverse).inputIds, m :: (collect ms.reverse).pendingMessages,
          m :: (collect ms.reverse).processedMessages⟩ := by
      rw [List.reverse_concat, collect]
    refine ⟨answered, pending ++ [m], ?_, hsplit.answered_last, ?_, ?_, ?_, ?_, ?_⟩
    · rw [hsplit.parts, List.append_assoc]
    · simpa [or_imp, forall_and] using ⟨hsplit.pending_roles, hrole⟩
    · simpa [or_imp, forall_and] using ⟨hsplit.pending_content, hcontent⟩
    · rw [hcollect, List.reverse_cons, hsplit.pendingMessages]
    · rw [hcollect, List.reverse_cons, List.flatMap_append, hsplit.images, List.flatMap_append]
    · rw [hcollect, hsplit.placeholders]
  | @answer ms _ maxModelLen tools post res hres hgenerated content hcontent ih =>
    obtain ⟨answered, pending, hsplit⟩ := ih
    set m : Message := ⟨.assistant, content, some res.inputIds, some res.outputIds⟩ with hm
    have himages : extractImagesFromMessage m = [] := extractImages_of_textOnly hcontent
    have hcollect : collect (ms ++ [m]).reverse = ⟨res.inputIds ++ res.outputIds, [], [m]⟩ := by
      rw [List.reverse_concat, collect]
      rfl
    -- The ids of the answer are those of its prompt, with the placeholders of all messages.
    obtain ⟨payload, hpayload, hpost⟩ := Except.bind_eq_ok.mp hres
    obtain ⟨responseIds, -, hreturn⟩ := Except.bind_eq_ok.mp hpost
    have hinputIds : res.inputIds = payload.promptIds := by
      cases responseIds with
      | none => cases hreturn
      | some responseIds => rw [← Except.ok.inj hreturn]
    refine ⟨ms ++ [m], [], by rw [List.append_nil], .inr ⟨ms, m, rfl, rfl, himages⟩, by simp,
      by simp, ?_, ?_, ?_⟩
    · rw [hcollect]
      rfl
    · rw [hcollect]
      simp [himages]
    · rw [hcollect, List.count_append, List.count_eq_zero.mpr hgenerated, hinputIds,
        (hsplit.count_promptIds hpayload).1, List.flatMap_append]
      simp [himages]

/-! ## When the images fit -/

/-- The answered part has no image exactly if no image stands before an answer. -/
lemma Split.noImageBeforeAnswer_iff (h : Split T messages answered pending) :
    NoImageBeforeAnswer messages ↔ answered.flatMap extractImagesFromMessage = [] := by
  constructor
  · intro hnone
    rcases h.answered_last with rfl | ⟨before, answer, rfl, hrole, himages⟩
    · rfl
    · have hparts : messages = before ++ answer :: pending := by
        rw [h.parts, List.append_assoc, List.singleton_append]
      have hbefore := hnone before answer pending hparts hrole
      rw [List.flatMap_append, List.flatMap_eq_nil_iff.mpr hbefore]
      simp [himages]
  · intro hnil before answer after hparts hrole message hmessage
    -- The answer is in the answered part, and what stands before it too.
    have hpending : answer ∉ pending := fun hmem => h.pending_roles answer hmem hrole
    have hmem : message ∈ answered := by
      rcases List.append_eq_append_iff.mp (h.parts.symm.trans hparts) with
        ⟨rest, -, hrest⟩ | ⟨rest, hrest, -⟩
      · exact absurd (hrest ▸ by simp) hpending
      · exact hrest ▸ List.mem_append_left _ hmessage
    exact List.flatMap_eq_nil_iff.mp hnil message hmem

/-- **The images fit the prompt** of a request on a conversation exactly if no image stands before
an answer. -/
theorem imagesFit_iff (h : Conversation T messages) {maxModelLen : ℤ} {tools : List Tool}
    {payload : RequestPayload}
    (hpayload : requestPayload T maxModelLen tools messages = .ok payload) :
    ImagesFit T messages payload ↔ NoImageBeforeAnswer messages := by
  obtain ⟨answered, pending, hsplit⟩ := h.exists_split
  obtain ⟨hcount, himages⟩ := hsplit.count_promptIds hpayload
  have hall : messages.flatMap extractImagesFromMessage =
      answered.flatMap extractImagesFromMessage ++ pending.flatMap extractImagesFromMessage := by
    rw [hsplit.parts, List.flatMap_append]
  rw [hsplit.noImageBeforeAnswer_iff, ImagesFit, hcount, himages, hall]
  constructor
  · rintro ⟨hfit, -⟩
    exact List.append_left_eq_self.mp hfit.symm
  · intro hnil
    rw [hnil]
    exact ⟨rfl, rfl⟩

/-! ### Two conversations -/

/-- The ids of a content: 1 for an image and 0 for a text. -/
def itemTokens : NormalContent → List Token
  | .str _ => [0]
  | .items entries => entries.map fun item => item.isImage.toNat

/-- A tokenizer that writes one id for each entry. -/
def itemTokenizer : Tokenizer Unit where
  applyChatTemplate _ content _ _ := itemTokens content
  imagePad := 1
  count_imagePad := by
    intro _ content _ _
    cases content with
    | str text => rfl
    | items entries =>
      rw [itemTokens, NormalContent.imageCount, List.count, List.countP_map]
      refine List.countP_congr fun item _ => ?_
      cases item <;> simp [NormalItem.isImage]

/-- An image entry. -/
def screenshot : Item :=
  .dict (some "image_url") (some (.dict (some "data:image/png;base64,iVBO"))) none

/-- A message, its answer, and a second message. -/
def exchange (first second : Content) : List Message :=
  [⟨.user, first, none, none⟩,
    ⟨.assistant, .str "A window.", some (itemTokens first.normalized), some [2]⟩,
    ⟨.user, second, none, none⟩]

/-- The exchange is a conversation. -/
lemma conversation_exchange {first second : Content} (hfirst : first.WellFormed)
    (hsecond : second.WellFormed) : Conversation itemTokenizer (exchange first second) := by
  have hask : Conversation itemTokenizer [⟨.user, first, none, none⟩] :=
    Conversation.nil.message .user first (by decide) hfirst
  have hroom : ¬ (((itemTokens first.normalized).length : ℤ) + 1 -
      (itemTokens first.normalized).length ≤ 0) := by omega
  have hres : requestResponseTokens itemTokenizer ((itemTokens first.normalized).length + 1) []
      (fun _ => .ok (some [2])) [⟨.user, first, none, none⟩] =
        .ok ⟨itemTokens first.normalized, [2]⟩ := by
    simp [requestResponseTokens, requestPayload, collect, convertMessagesToTokens, itemTokenizer,
      hroom, pure, Except.pure, Except.ok_bind]
  have hanswer := hask.answer _ [] _ _ hres (by simp [itemTokenizer]) (.str "A window.") trivial
  exact hanswer.message .user second (by decide) hsecond

/-- An image after the answer. -/
def imageLast : List Message :=
  exchange (.str "What do you see?") (.items [.str "This is the screen.", screenshot])

/-- An image before the answer. -/
def imageFirst : List Message :=
  exchange (.items [.str "This is the screen.", screenshot]) (.str "What do you see?")

/-- The entries of these messages are well formed. -/
lemma wellFormed_screen :
    (Content.items [.str "This is the screen.", screenshot]).WellFormed := by
  simp only [Content.WellFormed, List.forall_mem_cons]
  exact ⟨trivial, .inl ⟨rfl, _, rfl, by decide⟩, by simp⟩

/-- The image after the answer is sent. -/
theorem imagesFit_imageLast : Conversation itemTokenizer imageLast ∧
    ∃ payload, requestPayload itemTokenizer 100 [] imageLast = .ok payload ∧
      ImagesFit itemTokenizer imageLast payload := by
  have hconversation : Conversation itemTokenizer imageLast :=
    conversation_exchange trivial wellFormed_screen
  obtain ⟨payload, hpayload⟩ : ∃ payload,
      requestPayload itemTokenizer 100 [] imageLast = .ok payload := ⟨_, rfl⟩
  refine ⟨hconversation, payload, hpayload, (imagesFit_iff hconversation hpayload).mpr ?_⟩
  intro before answer after hparts hrole message hmessage
  match before, hparts with
  | [], _ => cases hmessage
  | [first], hparts =>
    obtain rfl := List.mem_singleton.mp hmessage
    rw [← (List.cons.inj hparts).1]
    rfl
  | [_, _], hparts =>
    obtain ⟨-, -, rfl, -⟩ := by simpa [imageLast, exchange] using hparts
    cases hrole
  | _ :: _ :: _ :: before, hparts => simp [imageLast, exchange] at hparts

/-- **A lost image**: the prompt has the placeholder of the image before the answer, and no image
is sent. -/
theorem not_imagesFit_imageFirst : Conversation itemTokenizer imageFirst ∧
    ∃ payload, requestPayload itemTokenizer 100 [] imageFirst = .ok payload ∧
      payload.images = none ∧ payload.promptIds.count itemTokenizer.imagePad = 1 ∧
      ¬ ImagesFit itemTokenizer imageFirst payload := by
  refine ⟨conversation_exchange wellFormed_screen trivial, _, rfl, rfl, by decide, ?_⟩
  rintro ⟨-, hlength⟩
  exact absurd hlength (by decide)

end ProRLAgent.Vision
