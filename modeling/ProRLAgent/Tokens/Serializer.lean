import ProRLAgent.Tokens.Training

set_option relaxedAutoImplicit false
set_option autoImplicit false

/-!
# From the message model to the tokenizer

A message of `openhands/core/message.py` holds a list of content items. `serialize_model` turns it
into a dictionary whose content is one text (the string serializer) or a list of entries (the list
serializer). `convert_messages_to_tokens` and the message loop of
`process_messages_from_agent_state` then take a text out of the dictionary, each in its own way.

The `cache_control` marks of the list serializer are left out: none of the functions below reads
them.

## Main definitions

* `ProRLAgent.CoreMessage` — a message of the message model.
* `ProRLAgent.CoreMessage.serializeModel` — its dictionary.
* `ProRLAgent.ContainsInOrder` — a text has some parts, one after the other.
* `ProRLAgent.TextsKept` — both paths pass the same text, and it has the text of every item.

## Main results

* `ProRLAgent.convertMessagesToTokens_toDict`, `ProRLAgent.newMessage_eq` — the texts that the two
  paths pass to the tokenizer.
* `ProRLAgent.textsKept_iff` — when no text is dropped.
-/

namespace ProRLAgent

/-! ## The message model -/

/-- An item of a message. -/
inductive CoreContent where
  | text (text : String)
  | image (imageUrls : List String)
  deriving DecidableEq, Repr

/-- A message of the message model. -/
structure CoreMessage where
  role : Role
  content : List CoreContent
  cacheEnabled : Bool := false
  visionEnabled : Bool := false
  functionCallingEnabled : Bool := false
  toolCalls : Option (List (String × FunctionCall)) := none
  toolCallId : Option String := none
  name : Option String := none
  forceStringSerializer : Bool := false
  inputIds : Option (List Token) := none
  outputIds : Option (List Token) := none
  logprobs : Option (List Float) := none

namespace CoreMessage

/-- The text items. -/
def texts (message : CoreMessage) : List String :=
  message.content.filterMap fun item =>
    match item with
    | .text text => some text
    | .image _ => none

/-- The string serializer is chosen. -/
def usesStringSerializer (message : CoreMessage) : Bool :=
  message.forceStringSerializer ||
    !(message.cacheEnabled || message.visionEnabled || message.functionCallingEnabled)

/-- `_string_serializer`, the content: the text items in one text. -/
def stringContent (message : CoreMessage) : Content := .str ("\n".intercalate message.texts)

/-- `_list_serializer`, the content: one entry for each text item and, with vision, for each image
address. -/
def listContent (message : CoreMessage) : Content :=
  .items (message.content.flatMap fun item =>
    match item with
    | .text text => [.text text]
    | .image imageUrls => if message.visionEnabled then imageUrls.map .imageUrl else [])

/-- `serialize_model`. A tool response needs the name of its tool. -/
def serializeModel (message : CoreMessage) : Except PyError Message :=
  if message.toolCallId.isSome ∧ message.name = none then .error .assertionError
  else
    .ok {
      role := message.role
      content := if message.usesStringSerializer then message.stringContent else message.listContent
      inputIds := message.inputIds
      outputIds := message.outputIds
      logprobs := message.logprobs
      toolCalls := message.toolCalls
      toolCallId := message.toolCallId
      name := if message.toolCallId.isSome then message.name else none }

end CoreMessage

/-! ## The texts that are passed -/

section Paths

variable {Tool : Type} (T : Tokenizer Tool) (enableThinking : Bool) (tools : List Tool)
  {message : Message} {text : String}

/-- A single message that is not an assistant message is tokenized from the text of its content. -/
lemma convertMessagesToTokens_singleton {dict : ChatDict} (hrole : dict.role ≠ .assistant)
    (htext : dict.content.text = .ok text) :
    convertMessagesToTokens T .qwen3 true enableThinking tools [dict] =
      .ok [turnTokens T enableThinking tools true dict.role text] := by
  have hturn := applyChatTemplate_eq_turnTokens T enableThinking tools dict text hrole true
  simp [convertMessagesToTokens, htext, bind, Except.bind, pure, Except.pure, ← hturn]

/-- **The text of a pending message**: `convert_messages_to_tokens` tokenizes the text of its
content, and raises if there is none. -/
lemma convertMessagesToTokens_toDict (hrole : message.role ≠ .assistant) :
    convertMessagesToTokens T .qwen3 true enableThinking tools [message.toDict] =
      message.toDict.content.text.map fun text =>
        [turnTokens T enableThinking tools true message.role text] := by
  cases htext : message.toDict.content.text with
  | ok text => exact convertMessagesToTokens_singleton T enableThinking tools hrole htext
  | error err =>
    rw [convertMessagesToTokens, htext]
    rfl

/-- **The text of a message in the loop**: the loop takes it out of the content itself and passes it
on. -/
lemma newMessage_eq (hrole : message.role ≠ .assistant) (houtput : message.outputIds = none)
    (htext : message.content.trainingText = .ok text) :
    newMessage T enableThinking tools message =
      .ok ⟨message.role, text, message.functions,
        turnTokens T enableThinking tools true message.role text, message.inputIds,
        message.logprobs⟩ := by
  refine (newMessage_eq_ok T enableThinking tools message _).mpr ⟨text, _, htext, ?_, rfl⟩
  have htokens : convertMessagesToTokens T .qwen3 true enableThinking tools
      [⟨message.role, .str text, message.functions.map fun calls => calls.map .function, none, none,
        none⟩] = .ok [turnTokens T enableThinking tools true message.role text] :=
    convertMessagesToTokens_singleton T enableThinking tools hrole rfl
  simp only [messageTokenIds, houtput, htokens]
  rfl

end Paths

/-! ## No text is dropped -/

/-- The text has the parts, one after the other. -/
def ContainsInOrder : List Char → List (List Char) → Prop
  | _, [] => True
  | text, part :: parts =>
    ∃ before after, text = before ++ part ++ after ∧ ContainsInOrder after parts

/-- **No text of the message is dropped**: both paths pass the same text to the tokenizer, and it has
the text of every item, in order. -/
def TextsKept (message : CoreMessage) : Prop :=
  ∃ serialized text, message.serializeModel = .ok serialized ∧
    serialized.toDict.content.text = .ok text ∧ serialized.content.trainingText = .ok text ∧
    ContainsInOrder text.toList (message.texts.map String.toList)

/-- A longer text has the parts as well. -/
lemma ContainsInOrder.append_left {text : List Char} {parts : List (List Char)}
    (h : ContainsInOrder text parts) (front : List Char) : ContainsInOrder (front ++ text) parts := by
  cases parts with
  | nil => trivial
  | cons part parts =>
    obtain ⟨before, after, rfl, hparts⟩ := h
    exact ⟨front ++ before, after, by simp, hparts⟩

/-- A joined text has the texts that it was joined from. -/
lemma containsInOrder_intercalate (sep : List Char) (parts : List (List Char)) :
    ContainsInOrder (sep.intercalate parts) parts := by
  induction parts with
  | nil => trivial
  | cons part parts ih =>
    cases parts with
    | nil => exact ⟨[], [], by simp, trivial⟩
    | cons next parts =>
      refine ⟨[], sep ++ sep.intercalate (next :: parts), ?_, ih.append_left sep⟩
      rw [List.intercalate_cons_cons]
      simp

/-- The empty text has empty parts only. -/
lemma containsInOrder_nil_iff {parts : List (List Char)} :
    ContainsInOrder [] parts ↔ ∀ part ∈ parts, part = [] := by
  induction parts with
  | nil => simp [ContainsInOrder]
  | cons part parts ih =>
    rw [List.forall_mem_cons, ← ih]
    constructor
    · rintro ⟨before, after, heq, hparts⟩
      obtain ⟨hfront, rfl⟩ := List.append_eq_nil_iff.mp heq.symm
      exact ⟨(List.append_eq_nil_iff.mp hfront).2, hparts⟩
    · rintro ⟨rfl, hparts⟩
      exact ⟨[], [], rfl, hparts⟩

/-- A text that is its own first part has empty parts behind it only. -/
lemma containsInOrder_cons_self_iff {text : List Char} {parts : List (List Char)} :
    ContainsInOrder text (text :: parts) ↔ ∀ part ∈ parts, part = [] := by
  rw [← containsInOrder_nil_iff]
  constructor
  · rintro ⟨before, after, heq, hparts⟩
    have hlength := congrArg List.length heq
    simp only [List.length_append] at hlength
    obtain rfl : after = [] := List.length_eq_zero_iff.mp (by omega)
    exact hparts
  · intro hparts
    exact ⟨[], [], by simp, hparts⟩

/-- The entries of a message of text items. -/
lemma listContent_of_texts {message : CoreMessage} {texts : List String}
    (hcontent : message.content = texts.map .text) :
    message.listContent = .items (texts.map .text) ∧ message.texts = texts := by
  constructor
  · rw [CoreMessage.listContent, hcontent, List.flatMap_map, List.map_eq_flatMap]
  · simp [CoreMessage.texts, hcontent, List.filterMap_map]

/-- **When no text is dropped**: for a message of text items that can be serialized, exactly if the
string serializer is chosen, or the message has items and no text behind the first one. -/
theorem textsKept_iff {message : CoreMessage} {texts : List String}
    (hcontent : message.content = texts.map .text) {serialized : Message}
    (hserialized : message.serializeModel = .ok serialized) :
    TextsKept message ↔ message.usesStringSerializer = true ∨
      ∃ first rest, texts = first :: rest ∧ ∀ text ∈ rest, text = "" := by
  obtain ⟨hlist, htexts⟩ := listContent_of_texts hcontent
  have hcontent' : serialized.content =
      if message.usesStringSerializer then message.stringContent else message.listContent := by
    unfold CoreMessage.serializeModel at hserialized
    split at hserialized
    · cases hserialized
    · rw [← Except.ok.inj hserialized]
  have hkept : TextsKept message ↔ ∃ text, serialized.content.text = .ok text ∧
      serialized.content.trainingText = .ok text ∧
      ContainsInOrder text.toList (texts.map String.toList) := by
    constructor
    · rintro ⟨serialized', text, hserialized', hrest⟩
      obtain rfl := Except.ok.inj (hserialized.symm.trans hserialized')
      exact ⟨text, htexts ▸ hrest⟩
    · rintro ⟨text, hrest⟩
      exact ⟨serialized, text, hserialized, htexts.symm ▸ hrest⟩
  rw [hkept, hcontent']
  by_cases hstring : message.usesStringSerializer = true
  · refine iff_of_true ⟨"\n".intercalate texts, ?_⟩ (.inl hstring)
    rw [if_pos hstring, CoreMessage.stringContent, htexts, String.toList_intercalate]
    exact ⟨rfl, rfl, containsInOrder_intercalate _ _⟩
  · rw [if_neg hstring, hlist]
    rw [or_iff_right hstring]
    cases texts with
    | nil => simp [Content.text]
    | cons first rest =>
      have hempty : (∀ text ∈ rest, text = "") ↔ ∀ part ∈ rest.map String.toList, part = [] := by
        simp
      have hsplit : (∃ first' rest', first :: rest = first' :: rest' ∧ ∀ text ∈ rest', text = "") ↔
          ∀ text ∈ rest, text = "" := by
        constructor
        · rintro ⟨_, _, ⟨⟩, h⟩
          exact h
        · exact fun h => ⟨first, rest, rfl, h⟩
      have hself : ContainsInOrder first.toList ((first :: rest).map String.toList) ↔
          ∀ part ∈ rest.map String.toList, part = [] := containsInOrder_cons_self_iff
      rw [hsplit, hempty, ← hself]
      constructor
      · rintro ⟨text, htext, -, hin⟩
        obtain rfl : first = text := Except.ok.inj htext
        exact hin
      · exact fun hin => ⟨first, rfl, rfl, hin⟩

/-! ### Two text items -/

/-- A tool response of some text items, for a model with function calling. -/
def toolResponse (texts : List String) : CoreMessage where
  role := .tool
  content := texts.map .text
  functionCallingEnabled := true
  toolCallId := some "call"
  name := some "execute_bash"

/-- **A message with one item** keeps its text. -/
theorem textsKept_oneItem : TextsKept (toolResponse ["first"]) := by
  have hcontent : (toolResponse ["first"]).content = ["first"].map .text := rfl
  exact (textsKept_iff hcontent rfl).mpr (.inr ⟨"first", [], rfl, by simp⟩)

/-- **A message with two items** loses the second text, and a message without items makes the
conversion raise while the loop passes the empty text. -/
theorem not_textsKept_twoItems :
    (∃ serialized, (toolResponse ["first", "second"]).serializeModel = .ok serialized ∧
      serialized.toDict.content.text = .ok "first" ∧
      serialized.content.trainingText = .ok "first") ∧
    (∃ serialized, (toolResponse []).serializeModel = .ok serialized ∧
      serialized.toDict.content.text = .error .indexError ∧
      serialized.content.trainingText = .ok "") ∧
    ¬ TextsKept (toolResponse ["first", "second"]) := by
  refine ⟨⟨_, rfl, rfl, rfl⟩, ⟨_, rfl, rfl, rfl⟩, ?_⟩
  rintro ⟨serialized, text, hserialized, htext, -, hin⟩
  obtain rfl := Except.ok.inj hserialized
  obtain rfl : "first" = text := Except.ok.inj htext
  have hempty := containsInOrder_cons_self_iff.1 hin "second".toList (by simp)
  simp at hempty

end ProRLAgent
