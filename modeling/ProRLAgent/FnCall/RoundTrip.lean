import Mathlib.Data.List.Chain
import Mathlib.Data.List.Nodup
import ProRLAgent.FnCall.CallText
import ProRLAgent.Lib.Replace

set_option relaxedAutoImplicit false
set_option autoImplicit false

/-!
# A conversation as text, and back

Writing the calls of a conversation into its texts and reading the result gives the conversation
back: the roles, the texts up to outer white space, the calls, and each result behind its call.
The ids of the calls are new.

What is put behind a text has to be found there and nowhere before, so the text followed by it must
not have it earlier, not even across the seam.

## Main definitions

* `ProRLAgent.FnCall.Conversation` — a conversation with a result behind each call.
* `ProRLAgent.FnCall.SameMessage` — messages with the same role, text and calls.
* `ProRLAgent.FnCall.Answers` — a tool message has the id of the call before it.

## Main results

* `ProRLAgent.FnCall.roundTrip` — a conversation comes back.
-/

namespace ProRLAgent.FnCall

open PyText Search
open Serialization (Json)

variable {ν : Type}

/-! ## Conversations -/

/-- A content that is a text, or a list with one text. -/
inductive HasText : Content → Text → Prop
  | str (t : Text) : HasText (.str t) t
  | items (t : Text) (cacheControl : Bool) : HasText (.items [.text t cacheControl]) t

/-- A text without the start of a call or of a result. -/
def PlainText (t : Text) : Prop := ¬ functionStart <:+: t ∧ ¬ resultStart <:+: t

/-- A message with a plain text. -/
structure TextMessage (role : Role) (message : Message ν) (content : Content) (t : Text) :
    Prop where
  role_eq : message.role = role
  content_eq : message.content = some content
  hasText : HasText content t
  plain : PlainText t

section Conversation

variable (tools : List (Tool ν))

/-- What is put behind the first text of the user is found there. Without an example nothing is put
there, and the text must not have it. -/
def FirstUserText (t : Text) : Prop :=
  if getExampleForTools tools = [] then ¬ inContextLearningExampleSuffix <:+: t
  else OnlyAtEnd inContextLearningExampleSuffix t

/-- The messages behind the first two: a call is followed by its result. -/
inductive Turns : List (Message ν) → Prop
  | nil : Turns []
  | system {message : Message ν} {content : Content} {t : Text} {messages : List (Message ν)}
      (hmessage : TextMessage .system message content t) (hcalls : message.toolCalls = none)
      (h : Turns messages) : Turns (message :: messages)
  | user {message : Message ν} {content : Content} {t : Text} {messages : List (Message ν)}
      (hmessage : TextMessage .user message content t) (hcalls : message.toolCalls = none)
      (h : Turns messages) : Turns (message :: messages)
  | assistant {message : Message ν} {content : Content} {t : Text} {messages : List (Message ν)}
      (hmessage : TextMessage .assistant message content t) (hcalls : message.toolCalls = none)
      (h : Turns messages) : Turns (message :: messages)
  | call {message result : Message ν} {content resultContent : Content} {t resultText : Text}
      {toolCall : ToolCall ν} {name : Text} {args : List (String × Json ν)}
      {messages : List (Message ν)} (hmessage : TextMessage .assistant message content t)
      (hcalls : message.toolCalls = some [toolCall]) (hcall : toolCall.Calls name args)
      (hvalid : ValidCall tools name args)
      (hresult : TextMessage .tool result resultContent resultText)
      (hresultCalls : result.toolCalls = none) (hname : result.name = some name)
      (hid : result.toolCallId = toolCall.id)
      (hmark : result.cacheControl → ∃ entries, resultContent = .items entries)
      (h : Turns messages) : Turns (message :: result :: messages)

/-- **Conversations**: a system message, a message of the user, and turns. -/
inductive Conversation : List (Message ν) → Prop
  | start {system user : Message ν} {systemContent userContent : Content}
      {systemText userText : Text} {messages : List (Message ν)}
      (hsystem : TextMessage .system system systemContent systemText)
      (hsystemCalls : system.toolCalls = none)
      (huser : TextMessage .user user userContent userText)
      (huserCalls : user.toolCalls = none) (huserText : FirstUserText tools userText)
      (h : Turns tools messages) : Conversation (system :: user :: messages)

end Conversation

/-- Contents of the same kind with the same text up to outer white space. -/
inductive SameText : Option Content → Option Content → Prop
  | str {t t' : Text} (h : strip t' = strip t) : SameText (some (.str t)) (some (.str t'))
  | items {t t' : Text} (cacheControl cacheControl' : Bool) (h : strip t' = strip t) :
      SameText (some (.items [.text t cacheControl])) (some (.items [.text t' cacheControl']))

/-- **The same message**: role, text, and the functions and arguments of the calls; a tool message
has the same tool. -/
structure SameMessage (message back : Message ν) : Prop where
  role : back.role = message.role
  text : SameText message.content back.content
  calls : back.toolCalls.map (List.map ToolCall.function) =
    message.toolCalls.map (List.map ToolCall.function)
  name : message.role = .tool → back.name = message.name

/-- **Answers**: a tool message has the id of the call in the message before it. -/
def Answers (message next : Message ν) : Prop :=
  next.role = .tool → ∃ toolCall, message.toolCalls = some [toolCall] ∧
    next.toolCallId = toolCall.id

/-- The ids of the calls. -/
def callIds (messages : List (Message ν)) : List (Option Text) :=
  messages.flatMap fun message => (message.toolCalls.getD []).map ToolCall.id

/-! ## One content -/

/-- The content with another text. -/
def Content.putText : Content → Text → Content
  | .str _, t => .str t
  | .items [.text _ cacheControl], t => .items [.text t cacheControl]
  | content, _ => content

section HasText

variable {content : Content} {t : Text} (h : HasText content t)

include h

/-- The text that is put in. -/
lemma HasText.put (t' : Text) : HasText (content.putText t') t' := by
  cases h
  · exact .str t'
  · exact .items t' _

/-- Only the last text counts. -/
lemma HasText.putText_putText (t' t'' : Text) :
    (content.putText t').putText t'' = content.putText t'' := by
  cases h <;> rfl

/-- The own text. -/
lemma HasText.putText_self : content.putText t = content := by
  cases h <;> rfl

/-- A text that is the same up to outer white space. -/
lemma HasText.sameText {t' : Text} (ht : strip t' = strip t) :
    SameText (some content) (some (content.putText t')) := by
  cases h
  · exact .str ht
  · exact .items _ _ ht

/-- A content with a text is not replaced. -/
lemma HasText.contentOrEmpty_eq : contentOrEmpty (some content) = content := by
  cases h <;> rfl

/-- The suffix behind the text. -/
lemma HasText.encodeSystem_eq (suffix : Text) :
    encodeSystem suffix (some content) = .ok (content.putText (t ++ suffix)) := by
  cases h <;> rfl

/-- The text before the suffix. -/
lemma HasText.decodeSystem_eq (suffix : Text) :
    decodeSystem suffix content = content.putText (beforeFirst suffix t) := by
  cases h <;> rfl

/-- The example around the text. -/
lemma HasText.encodeExample_eq (exampleText : Text) : encodeExample exampleText (some content) =
    .ok (content.putText (exampleText ++ t ++ inContextLearningExampleSuffix)) := by
  cases h <;> rfl

/-- The text without the example. -/
lemma HasText.decodeExample_eq (exampleText : Text) :
    decodeExample exampleText content = content.putText (removeExample exampleText t) := by
  cases h <;> rfl

/-- A result is searched for in the text. -/
lemma HasText.contentResult_eq : contentResult content = toolResultMatch t := by
  cases h with
  | str t => rfl
  | items t cacheControl =>
    simp only [contentResult, List.findSome?_cons, Item.text?, Option.bind_some]
    cases toolResultMatch t <;> rfl

/-- The text with the stop word. -/
lemma HasText.fixContent_eq : fixContent content = content.putText (fixStopword t) := by
  cases h <;> rfl

/-- A call is searched for in the text. -/
lemma HasText.callText?_eq : callText? content = some t := by
  cases h <;> rfl

/-- The text before the call. -/
lemma HasText.withoutCall_eq :
    withoutCall content = content.putText (strip (beforeFirst functionStart t)) := by
  cases h <;> rfl

/-- The text of a call behind the text. -/
lemma HasText.encodeToolCall_eq {ν : Type} {B : Builtins ν} {toolCall : ToolCall ν} {text : Text}
    (htext : convertToolCallToString B toolCall = .ok text) :
    encodeToolCall B [toolCall] (some content) =
      .ok (content.putText (lstrip (t ++ "\n\n".toList ++ text))) := by
  cases h <;> rw [encodeToolCall, htext] <;> rfl

end HasText

/-! ## One message -/

variable {B : Builtins ν} {tools : List (Tool ν)} {suffix exampleText : Text}

/-- **A message comes back**: it is written and read, from the state of the loop of the reader to
the next one. -/
def ComesBack (B : Builtins ν) (tools : List (Tool ν)) (suffix exampleText : Text)
    (state state' : DecodeState) (message back : Message ν) : Prop :=
  ∃ text, encodeMessage B suffix exampleText true state.firstUserMessageEncountered message =
      .ok (text, state'.firstUserMessageEncountered) ∧
    decodeMessage B suffix exampleText tools state text = .ok (back, state')

/-- The suffix of system messages begins with a line break, and it shows the start of a call. -/
lemma exists_eq_cons_of_suffix (h : systemPromptSuffix B tools = .ok suffix) :
    ∃ w, suffix = '\n' :: w ∧ functionStart <:+: '\n' :: w := by
  rw [systemPromptSuffix] at h
  cases hdescription : convertToolsToDescription B tools with
  | error err =>
    rw [hdescription] at h
    cases h
  | ok description =>
    rw [hdescription] at h
    obtain rfl := Except.ok.inj h
    obtain ⟨start, hstart⟩ : ∃ start, suffixStart = '\n' :: start := ⟨_, rfl⟩
    -- The example of a call is the fifth line.
    have hend : functionStart <:+: suffixEnd := by
      delta suffixEnd
      refine .trans ?_ (infix_unlines (.tail _ (.tail _ (.tail _ (.tail _ (.head _))))))
      rw [String.toList_ofList]
      decide
    refine ⟨start ++ description ++ suffixEnd, ?_, ?_⟩
    · rw [systemPromptSuffixTemplate, hstart]
      rfl
    · exact hend.trans (List.suffix_append ('\n' :: (start ++ description)) suffixEnd).isInfix

/-- A message without calls that is the same. -/
lemma TextMessage.sameMessage {role : Role} {message : Message ν} {content : Content} {t : Text}
    (hmessage : TextMessage role message content t) (hcalls : message.toolCalls = none)
    (hrole : role ≠ .tool) {t' : Text} (ht : strip t' = strip t) :
    SameMessage message { role := role, content := some (content.putText t') } where
  role := hmessage.role_eq.symm
  text := by
    rw [hmessage.content_eq]
    exact hmessage.hasText.sameText ht
  calls := by rw [hcalls]
  name := fun htool => absurd (hmessage.role_eq.symm.trans htool) hrole

/-- A system message comes back without the suffix. -/
lemma comesBack_system {message : Message ν} {content : Content} {t : Text}
    (hmessage : TextMessage .system message content t) (hcalls : message.toolCalls = none)
    (hsuffix : systemPromptSuffix B tools = .ok suffix) (state : DecodeState) :
    ∃ back, ComesBack B tools suffix exampleText state state message back ∧
      SameMessage message back ∧ back.toolCalls = none := by
  have hsplit : beforeFirst suffix (t ++ suffix) = t := by
    obtain ⟨w, rfl, hpart⟩ := exists_eq_cons_of_suffix hsuffix
    have honly : OnlyAtEnd ('\n' :: w) t :=
      onlyAtEnd_of_not_infix (by decide) (by decide) hpart hmessage.plain.1
    rw [beforeFirst, (splitFirst_eq_iff_onlyAtEnd (List.cons_ne_nil _ _) t).mpr honly]
    rfl
  have hput := hmessage.hasText.put (t ++ suffix)
  refine ⟨_, ⟨{ role := .system, content := some (content.putText (t ++ suffix)) }, ?_, ?_⟩,
    hmessage.sameMessage hcalls (by decide) rfl, rfl⟩
  · simp only [encodeMessage, hmessage.role_eq, hmessage.content_eq,
      hmessage.hasText.encodeSystem_eq]
    rfl
  · simp only [decodeMessage, hput.contentOrEmpty_eq, hput.decodeSystem_eq, hsplit,
      hmessage.hasText.putText_putText]
    rfl

/-- A later message of the user comes back as it was. -/
lemma comesBack_user {message : Message ν} {content : Content} {t : Text}
    (hmessage : TextMessage .user message content t) (hcalls : message.toolCalls = none)
    (counter : ℕ) :
    ∃ back, ComesBack B tools suffix exampleText ⟨counter, true⟩ ⟨counter, true⟩ message back ∧
      SameMessage message back ∧ back.toolCalls = none := by
  have hnone : contentResult content = none := by
    rw [hmessage.hasText.contentResult_eq]
    exact search_eq_none _ hmessage.plain.2
  refine ⟨_, ⟨{ role := .user, content := some content }, ?_, ?_⟩,
    hmessage.sameMessage hcalls (by decide) rfl, rfl⟩
  · simp only [encodeMessage, hmessage.role_eq, hmessage.content_eq]
    rfl
  · simp only [decodeMessage, hmessage.hasText.contentOrEmpty_eq, decodeUser, if_true, hnone,
      hmessage.hasText.putText_self]
    rfl

/-- The ends of the suffix behind the first text of the user, and letters that are not in it. -/
lemma inContextLearningExampleSuffix_letters :
    inContextLearningExampleSuffix.take 2 = ['\n', '-'] ∧
      inContextLearningExampleSuffix.getLast? = some '\n' ∧
      inContextLearningExampleSuffix.dropLast.getLast? = some '.' ∧
      ∀ c ∈ inContextLearningExampleSuffix, c ≠ '<' ∧ c ≠ '[' := by
  simp only [inContextLearningExampleSuffix, unlines, List.flatMap_cons, List.flatMap_nil,
    String.toList_append]
  repeat rw [String.toList_ofList]
  exact ⟨rfl, rfl, rfl, forall_of_all (by simp only [List.all_append]; rfl)⟩

/-- The suffix behind the first text of the user begins with a line break. -/
lemma exists_eq_cons_of_exampleSuffix : ∃ w, inContextLearningExampleSuffix = '\n' :: '-' :: w := by
  have htake : ∀ s : Text, s.take 2 = ['\n', '-'] → ∃ w, s = '\n' :: '-' :: w := by
    intro s hs
    rw [← List.take_append_drop 2 s, hs]
    exact ⟨_, rfl⟩
  exact htake _ inContextLearningExampleSuffix_letters.1

/-- **The example is taken away** from the first text of the user. -/
lemma FirstUserText.removeExample_eq {t : Text} (h : FirstUserText tools t) :
    removeExample (getExampleForTools tools) (if getExampleForTools tools = [] then t
      else getExampleForTools tools ++ t ++ inContextLearningExampleSuffix) = t := by
  rw [FirstUserText] at h
  split_ifs at h ⊢ with hexample
  · have hempty : removeFirst [] t = t := by cases t <;> rfl
    have hend : ¬ inContextLearningExampleSuffix <:+ t := fun hocc => h hocc.isInfix
    rw [hexample, removeExample, if_pos List.nil_prefix, hempty]
    exact if_neg hend
  · set exampleText := getExampleForTools tools
    have hne : inContextLearningExampleSuffix ≠ [] := by
      obtain ⟨w, hw⟩ := exists_eq_cons_of_exampleSuffix
      rw [hw]
      exact List.cons_ne_nil _ _
    have hstart : removeFirst exampleText
        (exampleText ++ (t ++ inContextLearningExampleSuffix)) =
          t ++ inContextLearningExampleSuffix := by
      rw [removeFirst, splitFirst_self_append hexample]
      rfl
    have hend : removeFirst inContextLearningExampleSuffix (t ++ inContextLearningExampleSuffix) =
        t := by
      rw [removeFirst,
        (splitFirst_eq_iff_onlyAtEnd hne t).mpr h]
      exact List.append_nil t
    rw [removeExample, List.append_assoc, if_pos (List.prefix_append _ _), hstart]
    simp only [List.suffix_append, if_true, hend]

/-- The first message of the user comes back without the example. -/
lemma comesBack_firstUser {message : Message ν} {content : Content} {t : Text}
    (hmessage : TextMessage .user message content t) (hcalls : message.toolCalls = none)
    (ht : FirstUserText tools t) (counter : ℕ) :
    ∃ back, ComesBack B tools suffix (getExampleForTools tools) ⟨counter, false⟩ ⟨counter, true⟩
        message back ∧ SameMessage message back ∧ back.toolCalls = none := by
  set exampleText := getExampleForTools tools with hexampleText
  set shown : Text := if exampleText = [] then t
    else exampleText ++ t ++ inContextLearningExampleSuffix with hshown
  have hremove : removeExample exampleText shown = t := ht.removeExample_eq
  have hput := hmessage.hasText.put shown
  have hnone : contentResult content = none := by
    rw [hmessage.hasText.contentResult_eq]
    exact search_eq_none _ hmessage.plain.2
  refine ⟨_, ⟨{ role := .user, content := some (content.putText shown) }, ?_, ?_⟩,
    hmessage.sameMessage hcalls (by decide) rfl, rfl⟩
  · simp only [encodeMessage, hmessage.role_eq, hmessage.content_eq]
    by_cases hempty : exampleText = []
    · simp only [hshown, hempty, if_true, hmessage.hasText.putText_self]
      rfl
    · simp only [hshown, hempty, if_false, ne_eq, not_false_eq_true, if_true,
        hmessage.hasText.encodeExample_eq]
      rfl
  · have hback : decodeExample exampleText (content.putText shown) = content := by
      rw [hput.decodeExample_eq, hremove, hmessage.hasText.putText_putText,
        hmessage.hasText.putText_self]
    simp only [decodeMessage, hput.contentOrEmpty_eq, hback, decodeUser, Bool.false_eq_true,
      if_false, hnone, hmessage.hasText.putText_self]
    rfl

/-- An answer without a call comes back as it was. -/
lemma comesBack_assistant {message : Message ν} {content : Content} {t : Text}
    (hmessage : TextMessage .assistant message content t) (hcalls : message.toolCalls = none)
    (state : DecodeState) :
    ∃ back, ComesBack B tools suffix exampleText state state message back ∧
      SameMessage message back ∧ back.toolCalls = none := by
  have hnoCall : fnMatch t = none := search_eq_none _ hmessage.plain.1
  have hfix : fixStopword t = t := if_neg fun hocc => hmessage.plain.1 hocc.1
  refine ⟨_, ⟨{ role := .assistant, content := some content }, ?_, ?_⟩,
    hmessage.sameMessage hcalls (by decide) rfl, rfl⟩
  · simp only [encodeMessage, hmessage.role_eq, hmessage.content_eq, hcalls]
    rfl
  · rw [hmessage.hasText.putText_self]
    have hfixContent : fixContent content = content := by
      rw [hmessage.hasText.fixContent_eq, hfix, hmessage.hasText.putText_self]
    simp only [decodeMessage, decodeAssistant, hmessage.hasText.contentOrEmpty_eq, hfixContent,
      hmessage.hasText.callText?_eq, Option.bind_some, hnoCall]
    cases hmessage.hasText with
    | str t => rfl
    | items t cacheControl =>
      simp only [List.any_cons, Item.text?, Option.bind_some, hnoCall, Option.isSome_none]
      rfl

/-- The id that the reader gives to a call. -/
def newId (counter : ℕ) : Text := "toolu_".toList ++ padded counter

/-- The text before a call has no call. -/
lemma PlainText.before {t : Text} (h : PlainText t) :
    ¬ functionStart <:+: lstrip (t ++ "\n\n".toList) := by
  intro hocc
  have hinfix : functionStart <:+: t ++ ("\n\n".toList ++ []) := by
    rw [List.append_nil]
    exact hocc.trans (List.dropWhile_suffix _).isInfix
  have hapart : Replace.Apart functionStart "\n\n".toList :=
    Replace.apart_of_disjoint (by decide) (by decide) (forall_of_all (by decide))
  rcases Replace.infix_of_apart hapart hinfix with hinfix | hinfix
  · exact h.1 hinfix
  · exact absurd (List.infix_nil.mp hinfix) (by decide)

/-- **A call comes back** with a new id. -/
lemma comesBack_call {message : Message ν} {content : Content} {t : Text} {toolCall : ToolCall ν}
    {name : Text} {args : List (String × Json ν)}
    (hmessage : TextMessage .assistant message content t)
    (hcalls : message.toolCalls = some [toolCall]) (hcall : toolCall.Calls name args)
    (hvalid : ValidCall tools name args) (counter : ℕ) (first : Bool) :
    ∃ back newCall, ComesBack B tools suffix exampleText ⟨counter, first⟩ ⟨counter + 1, first⟩
        message back ∧ SameMessage message back ∧ back.toolCalls = some [newCall] ∧
      newCall.id = some (newId counter) := by
  obtain ⟨hparams, hbody⟩ := hvalid.paramMatches_bodyText (B := B)
  obtain ⟨tool, htool, harguments, hrequired⟩ := hvalid.tool
  have htext := convertToolCallToString_eq (B := B) hcall fun arg harg =>
    (hvalid.plain arg harg).isMultiline_eq
  set before : Text := lstrip (t ++ "\n\n".toList) with hbefore
  set text := callText name (bodyText B args) with htextDef
  -- The white space before the text is taken away, and nothing of the call.
  have hstrip : lstrip (t ++ "\n\n".toList ++ text) = before ++ text :=
    lstrip_append_cons (by decide) _ _
  have hput := hmessage.hasText.put (before ++ text)
  obtain ⟨extra, hextra⟩ := exists_fixStopword_callText before name (bodyText B args)
  have hfixed := hmessage.hasText.put (before ++ (text ++ extra))
  have hfound : fnMatch (before ++ (text ++ extra)) = some (name, bodyText B args) :=
    fnMatch_callText hmessage.plain.before hvalid.name_plain hbody extra
  have hrest : strip (beforeFirst functionStart (before ++ (text ++ extra))) = strip t := by
    rw [beforeFirst_callText hmessage.plain.before]
    exact strip_lstrip_append (forall_of_all (by decide)) t
  have hread : extractAndValidateParams B tool (paramMatches (bodyText B args)) name = .ok args := by
    rw [hparams]
    exact extractAndValidateParams_eq harguments hvalid.nodup hrequired name
  set newCall : ToolCall ν :=
    ⟨some 1, some (newId counter), some functionType, some ⟨name, some (.obj args)⟩⟩ with hnewCall
  set back : Message ν :=
    { role := .assistant
      content := some (content.putText (strip t))
      toolCalls := some [newCall] } with hback
  have hsame : SameMessage message back :=
    { role := hmessage.role_eq.symm
      text := by
        rw [hmessage.content_eq]
        exact hmessage.hasText.sameText (strip_strip t)
      calls := by
        rw [hback, hcalls, Option.map_some, Option.map_some, List.map_singleton, List.map_singleton,
          hcall.2.2]
      name := fun htool => by rw [hmessage.role_eq] at htool; cases htool }
  refine ⟨back, newCall,
    ⟨{ role := .assistant, content := some (content.putText (before ++ text)) }, ?_, ?_⟩, hsame, rfl,
    rfl⟩
  · simp only [encodeMessage, hmessage.role_eq, hmessage.content_eq, hcalls,
      hmessage.hasText.encodeToolCall_eq htext, hstrip]
    rfl
  · have hfixContent : fixContent (content.putText (before ++ text)) =
        content.putText (before ++ (text ++ extra)) := by
      rw [hput.fixContent_eq, hextra, hmessage.hasText.putText_putText]
    have hwithout : withoutCall (content.putText (before ++ (text ++ extra))) =
        content.putText (strip t) := by
      rw [hfixed.withoutCall_eq, hrest, hmessage.hasText.putText_putText]
    simp only [decodeMessage, decodeAssistant, hput.contentOrEmpty_eq, hfixContent,
      hfixed.callText?_eq, Option.bind_some, hfound, htool, hread, hwithout]
    rfl

/-- The text of a result, with the name of the tool before it. -/
def resultText (name t : Text) : Text := resultStart ++ (name ++ (resultNameEnd ++ t))

/-- A result is written into a content of the same kind. -/
lemma HasText.exists_encodeToolResult {message : Message ν} {content : Content} {t name : Text}
    (h : HasText content t) (hcontent : message.content = some content)
    (hname : message.name = some name)
    (hmark : message.cacheControl → ∃ entries, content = .items entries) :
    ∃ marked, encodeToolResult message = .ok (marked.putText (resultText name t)) ∧
      HasText marked t ∧ ∀ t', strip t' = strip t → SameText (some content) (some (marked.putText t'))
    := by
  have hbefore : ∀ t : Text, resultStart ++ name ++ resultNameEnd ++ t = resultText name t :=
    fun t => by simp only [resultText, List.append_assoc]
  cases h with
  | str t =>
    have hunmarked : message.cacheControl = false := by
      by_contra hmarked
      obtain ⟨entries, hentries⟩ := hmark (by simpa using hmarked)
      cases hentries
    refine ⟨.str t, ?_, .str t, fun t' ht => .str ht⟩
    simp only [encodeToolResult, hcontent, hname, hunmarked, Option.getD_some, Bool.false_eq_true,
      if_false, hbefore]
    rfl
  | items t cacheControl =>
    refine ⟨.items [.text t (if message.cacheControl then true else cacheControl)], ?_, .items t _,
      fun t' ht => .items _ _ ht⟩
    simp only [encodeToolResult, hcontent, hname, Option.getD_some, prependFirstText, hbefore]
    split_ifs <;> rfl

/-- **A result comes back** as a tool message for the last call. -/
lemma comesBack_result {message : Message ν} {content : Content} {t name : Text}
    (hmessage : TextMessage .tool message content t) (hcalls : message.toolCalls = none)
    (hname : message.name = some name) (hbracket : ']' ∉ name)
    (hmark : message.cacheControl → ∃ entries, content = .items entries) (counter : ℕ) :
    ∃ back, ComesBack B tools suffix exampleText ⟨counter + 1, true⟩ ⟨counter + 1, true⟩
        message back ∧ SameMessage message back ∧ back.toolCalls = none ∧
      back.toolCallId = some (newId counter) := by
  obtain ⟨marked, hencode, hmarked, hkind⟩ := hmessage.hasText.exists_encodeToolResult
    hmessage.content_eq hname hmark
  have hput := hmarked.put (resultText name t)
  have hresult : contentResult (marked.putText (resultText name t)) = some (name, t) := by
    rw [hput.contentResult_eq]
    exact toolResultMatch_append hbracket t
  -- The reader puts the result into a new content of the same kind.
  obtain ⟨content', hdecode, hsameText⟩ : ∃ content',
      decodeUser (counter + 1) (marked.putText (resultText name t)) =
        .ok ({ role := .tool, content := some content', name := some name,
               toolCallId := some (newId counter) } : Message ν) ∧
      SameText (some content) (some content') := by
    have hkind := hkind (strip t) (strip_strip t)
    cases hmarked with
    | str t =>
      refine ⟨.str (strip t), ?_, hkind⟩
      simp only [Content.putText] at hresult ⊢
      simp only [decodeUser, hresult]
      rfl
    | items t cacheControl =>
      refine ⟨.items [.text (strip t) false], ?_, ?_⟩
      · simp only [Content.putText] at hresult ⊢
        simp only [decodeUser, hresult]
        rfl
      · cases hkind with
        | items _ _ ht => exact .items _ _ ht
  set back : Message ν :=
    { role := .tool, content := some content', name := some name, toolCallId := some (newId counter) }
  have hsame : SameMessage message back :=
    { role := hmessage.role_eq.symm
      text := by
        rw [hmessage.content_eq]
        exact hsameText
      calls := by rw [hcalls]
      name := fun _ => hname.symm }
  refine ⟨back, ⟨{ role := .user, content := some (marked.putText (resultText name t)) }, ?_, ?_⟩,
    hsame, rfl, rfl⟩
  · simp only [encodeMessage, hmessage.role_eq, hencode]
    rfl
  · simp only [decodeMessage, hput.contentOrEmpty_eq, if_true, hdecode]
    rfl

/-! ## A whole conversation -/

/-- **Messages come back**: the loops write and read them. -/
def ComeBack (B : Builtins ν) (tools : List (Tool ν)) (suffix exampleText : Text)
    (state : DecodeState) (messages backs : List (Message ν)) : Prop :=
  ∃ texts, encodeMessages B suffix exampleText true state.firstUserMessageEncountered messages =
      .ok texts ∧
    decodeMessages B suffix exampleText tools state texts = .ok backs

/-- No messages. -/
lemma ComeBack.nil (state : DecodeState) : ComeBack B tools suffix exampleText state [] [] :=
  ⟨[], rfl, rfl⟩

/-- One message before the rest. -/
lemma ComeBack.cons {state state' : DecodeState} {message back : Message ν}
    {messages backs : List (Message ν)}
    (h : ComesBack B tools suffix exampleText state state' message back)
    (hs : ComeBack B tools suffix exampleText state' messages backs) :
    ComeBack B tools suffix exampleText state (message :: messages) (back :: backs) := by
  obtain ⟨text, hencode, hdecode⟩ := h
  obtain ⟨texts, hencodes, hdecodes⟩ := hs
  refine ⟨text :: texts, ?_, ?_⟩
  · rw [encodeMessages, hencode, Except.ok_bind]
    simp only [hencodes]
    rfl
  · rw [decodeMessages, hdecode, Except.ok_bind]
    simp only [hdecodes]
    rfl

/-- The two functions on messages that come back. -/
lemma ComeBack.exists_converted {messages backs : List (Message ν)}
    (hsuffix : systemPromptSuffix B tools = .ok suffix)
    (h : ComeBack B tools suffix (getExampleForTools tools) ⟨1, false⟩ messages backs) :
    ∃ texts, convertFncallMessagesToNonFncallMessages B messages tools true = .ok texts ∧
      convertNonFncallMessagesToFncallMessages B texts tools = .ok backs := by
  obtain ⟨texts, hencode, hdecode⟩ := h
  refine ⟨texts, ?_, ?_⟩
  · rw [convertFncallMessagesToNonFncallMessages, hsuffix, Except.ok_bind]
    exact hencode
  · rw [convertNonFncallMessagesToFncallMessages, hsuffix, Except.ok_bind]
    exact hdecode

/-- What holds of the messages that come back, for calls numbered from `counter` on. -/
structure RestOk (counter : ℕ) (messages backs : List (Message ν)) : Prop where
  same : List.Forall₂ SameMessage messages backs
  answers : backs.IsChain Answers
  head : ∀ back ∈ backs.head?, back.role ≠ .tool
  ids : ∃ n, callIds backs = (List.range' counter n).map fun k => some (newId k)

/-- A message without calls before the rest. -/
lemma RestOk.cons {counter : ℕ} {message back : Message ν} {messages backs : List (Message ν)}
    (h : RestOk counter messages backs) (hsame : SameMessage message back)
    (hcalls : back.toolCalls = none) (hrole : message.role ≠ .tool) :
    RestOk counter (message :: messages) (back :: backs) where
  same := .cons hsame h.same
  answers := by
    refine List.isChain_cons.mpr ⟨fun next hnext htool => absurd htool (h.head next hnext),
      h.answers⟩
  head := by
    intro next hnext
    obtain rfl : back = next := by simpa using hnext
    rwa [hsame.role]
  ids := by
    obtain ⟨n, hn⟩ := h.ids
    exact ⟨n, by rw [callIds, List.flatMap_cons, hcalls]; exact hn⟩

/-- A call and its result before the rest. -/
lemma RestOk.call {counter : ℕ} {message back result backResult : Message ν} {newCall : ToolCall ν}
    {messages backs : List (Message ν)} (h : RestOk (counter + 1) messages backs)
    (hsame : SameMessage message back) (hrole : message.role ≠ .tool)
    (hcalls : back.toolCalls = some [newCall]) (hid : newCall.id = some (newId counter))
    (hsameResult : SameMessage result backResult) (hcallsResult : backResult.toolCalls = none)
    (hanswer : backResult.toolCallId = some (newId counter)) :
    RestOk counter (message :: result :: messages) (back :: backResult :: backs) where
  same := .cons hsame (.cons hsameResult h.same)
  answers := by
    refine .cons_cons (fun _ => ⟨newCall, hcalls, hanswer.trans hid.symm⟩) ?_
    exact List.isChain_cons.mpr ⟨fun next hnext htool => absurd htool (h.head next hnext), h.answers⟩
  head := by
    intro next hnext
    obtain rfl : back = next := by simpa using hnext
    rwa [hsame.role]
  ids := by
    obtain ⟨n, hn⟩ := h.ids
    refine ⟨n + 1, ?_⟩
    rw [List.range'_succ, List.map_cons, ← hn, callIds, List.flatMap_cons, List.flatMap_cons, hcalls,
      hcallsResult, ← hid]
    rfl

/-- **Turns come back**, by induction on the turns. -/
theorem Turns.comeBack {messages : List (Message ν)} (h : Turns tools messages)
    (hsuffix : systemPromptSuffix B tools = .ok suffix) (exampleText : Text) (counter : ℕ) :
    ∃ backs, ComeBack B tools suffix exampleText ⟨counter, true⟩ messages backs ∧
      RestOk counter messages backs := by
  induction h generalizing counter with
  | nil => exact ⟨[], .nil _, .nil, .nil, by simp, 0, rfl⟩
  | system hmessage hcalls h ih =>
    obtain ⟨back, hback, hsame, hnone⟩ := comesBack_system hmessage hcalls hsuffix ⟨counter, true⟩
    obtain ⟨backs, hbacks, hrest⟩ := ih counter
    exact ⟨back :: backs, .cons hback hbacks,
      hrest.cons hsame hnone (by rw [hmessage.role_eq]; decide)⟩
  | user hmessage hcalls h ih =>
    obtain ⟨back, hback, hsame, hnone⟩ := comesBack_user hmessage hcalls counter
    obtain ⟨backs, hbacks, hrest⟩ := ih counter
    exact ⟨back :: backs, .cons hback hbacks,
      hrest.cons hsame hnone (by rw [hmessage.role_eq]; decide)⟩
  | assistant hmessage hcalls h ih =>
    obtain ⟨back, hback, hsame, hnone⟩ := comesBack_assistant hmessage hcalls ⟨counter, true⟩
    obtain ⟨backs, hbacks, hrest⟩ := ih counter
    exact ⟨back :: backs, .cons hback hbacks,
      hrest.cons hsame hnone (by rw [hmessage.role_eq]; decide)⟩
  | call hmessage hcalls hcall hvalid hresult hresultCalls hname hid hmark h ih =>
    obtain ⟨back, newCall, hback, hsame, hcalls', hid'⟩ :=
      comesBack_call hmessage hcalls hcall hvalid counter true
    obtain ⟨backResult, hbackResult, hsameResult, hnone, hanswer⟩ :=
      comesBack_result hresult hresultCalls hname hvalid.name_bracket hmark counter
    obtain ⟨backs, hbacks, hrest⟩ := ih (counter + 1)
    exact ⟨back :: backResult :: backs, .cons hback (.cons hbackResult hbacks),
      hrest.call hsame (by rw [hmessage.role_eq]; decide) hcalls' hid' hsameResult hnone hanswer⟩

/-- **Round trip**: a conversation that is written as text and read again comes back, with each
result behind its call and different ids for the calls. -/
theorem roundTrip {messages : List (Message ν)} (htools : Described tools)
    (h : Conversation tools messages) :
    ∃ texts backs, convertFncallMessagesToNonFncallMessages B messages tools true = .ok texts ∧
      convertNonFncallMessagesToFncallMessages B texts tools = .ok backs ∧
      List.Forall₂ SameMessage messages backs ∧ backs.IsChain Answers ∧ (callIds backs).Nodup := by
  obtain ⟨suffix, hsuffix⟩ := htools.exists_suffix B
  obtain ⟨hsystem, hsystemCalls, huser, huserCalls, huserText, h⟩ := h
  obtain ⟨backSystem, hbackSystem, hsameSystem, hnoneSystem⟩ :=
    comesBack_system hsystem hsystemCalls hsuffix ⟨1, false⟩
  obtain ⟨backUser, hbackUser, hsameUser, hnoneUser⟩ := comesBack_firstUser huser huserCalls huserText 1
  obtain ⟨backs, hbacks, hrest⟩ := h.comeBack hsuffix (getExampleForTools tools) 1
  obtain ⟨texts, hencode, hdecode⟩ :=
    (ComeBack.cons hbackSystem (.cons hbackUser hbacks)).exists_converted hsuffix
  have hall := (hrest.cons hsameUser hnoneUser (by rw [huser.role_eq]; decide)).cons hsameSystem
    hnoneSystem (by rw [hsystem.role_eq]; decide)
  refine ⟨texts, _, hencode, hdecode, hall.same, hall.answers, ?_⟩
  obtain ⟨n, hn⟩ := hall.ids
  rw [hn]
  refine List.Nodup.map (fun k k' heq => ?_) List.nodup_range'
  exact padded_injective (List.append_cancel_left (Option.some.inj heq))

/-! ## Texts in one line -/

/-- A first message of the user in one line. -/
lemma firstUserText_of_notMem {t : Text} (h : '\n' ∉ t) : FirstUserText tools t := by
  obtain ⟨w, hw⟩ := exists_eq_cons_of_exampleSuffix
  rw [FirstUserText, hw]
  split_ifs
  · exact not_infix_of_notMem h
  · exact onlyAtEnd_of_notMem h _

/-- A text without the first letters of a call and of a result. -/
lemma plainText_of_notMem {t : Text} (hcall : '<' ∉ t) (hresult : 'E' ∉ t) : PlainText t :=
  ⟨not_infix_of_notMem hcall, not_infix_of_notMem hresult⟩

/-! ## Conversations with one call -/

/-- A tool that runs a command, with its name and the name of its parameter. -/
def runTool (name param : String) : Tool Empty where
  type := functionType
  name := name.toList
  description := some "Execute a bash command in the terminal.".toList
  parameters := some
    { properties := some (Dict.empty.set param.toList ⟨some stringType, none, none⟩)
      required := none }

/-- A call of the tool. -/
def runCall (name param : String) : ToolCall Empty :=
  ⟨none, some "call_1".toList, some functionType,
    some ⟨name.toList, some (.obj [(param, .str "ls")])⟩⟩

/-- A message with a text. -/
def textMessage (role : Role) (text : String) : Message Empty :=
  { role := role, content := some (.str text.toList) }

/-- The answer with the call. -/
def callMessage (name param : String) : Message Empty :=
  { role := .assistant
    content := some (.str "I look.".toList)
    toolCalls := some [runCall name param] }

/-- The result of the call, perhaps with a mark for the prompt cache. -/
def resultMessage (name : String) (cacheControl : Bool) : Message Empty :=
  { role := .tool
    content := some (.str "a.txt".toList)
    name := some name.toList
    toolCallId := some "call_1".toList
    cacheControl := cacheControl }

/-- A conversation with a call. -/
def listFiles (name param : String) (cacheControl : Bool) : List (Message Empty) :=
  [textMessage .system "You run commands.", textMessage .user "Which files are there?",
    callMessage name param, resultMessage name cacheControl]

/-- A message with a text in one line. -/
lemma textMessage_textMessage (role : Role) (text : String) (hcall : '<' ∉ text.toList)
    (hresult : 'E' ∉ text.toList) :
    TextMessage role (textMessage role text) (.str text.toList) text.toList :=
  ⟨rfl, rfl, .str _, plainText_of_notMem hcall hresult⟩

/-- The result has a plain text. -/
lemma textMessage_resultMessage (name : String) (cacheControl : Bool) :
    TextMessage .tool (resultMessage name cacheControl) (.str "a.txt".toList) "a.txt".toList :=
  ⟨rfl, rfl, .str _, plainText_of_notMem (by decide) (by decide)⟩

/-- The tool is described. -/
lemma described_runTool (name param : String) : Described [runTool name param] := by
  intro tool htool
  obtain rfl := List.mem_singleton.mp htool
  exact ⟨rfl, by simp [runTool]⟩

/-- The argument of the call is valid. -/
lemma validArgument_runTool (name param : String) :
    ValidArgument (runTool name param) (param, Json.str "ls") :=
  ⟨_, _, rfl, by rw [Dict.get?_set, if_pos rfl], .string _ (.inr rfl), fun _ hvalues => by
    cases hvalues⟩

/-- A call of the tool comes back. -/
theorem roundTrip_listFiles :
    Described [runTool "execute_bash" "command"] ∧
    Conversation [runTool "execute_bash" "command"] (listFiles "execute_bash" "command" false) ∧
    ∃ texts backs,
      convertFncallMessagesToNonFncallMessages noBuiltins
        (listFiles "execute_bash" "command" false) [runTool "execute_bash" "command"] true =
          .ok texts ∧
      convertNonFncallMessagesToFncallMessages noBuiltins texts
        [runTool "execute_bash" "command"] = .ok backs ∧
      List.Forall₂ SameMessage (listFiles "execute_bash" "command" false) backs ∧
      backs.IsChain Answers ∧ (callIds backs).Nodup := by
  have hvalid : ValidCall [runTool "execute_bash" "command"] "execute_bash".toList
      [("command", Json.str "ls")] := by
    refine ⟨⟨by decide, by decide⟩, by decide, by simp, ?_, runTool "execute_bash" "command", rfl,
      ?_, ?_⟩
    · intro arg harg
      obtain rfl := List.mem_singleton.mp harg
      refine ⟨⟨by decide, by decide⟩, by decide, ?_⟩
      rintro s hs
      obtain rfl := Json.str.inj hs
      exact ⟨by decide, by decide⟩
    · intro arg harg
      obtain rfl := List.mem_singleton.mp harg
      exact validArgument_runTool "execute_bash" "command"
    · intro param hparam
      cases hparam
  have hconversation : Conversation [runTool "execute_bash" "command"]
      (listFiles "execute_bash" "command" false) :=
    .start (textMessage_textMessage _ _ (by decide) (by decide)) rfl
      (textMessage_textMessage _ _ (by decide) (by decide)) rfl
      (firstUserText_of_notMem (by decide))
      (.call ⟨rfl, rfl, .str _, plainText_of_notMem (by decide) (by decide)⟩ rfl ⟨rfl, rfl, rfl⟩
        hvalid (textMessage_resultMessage _ _) rfl rfl rfl (fun hmark => by cases hmark) .nil)
  exact ⟨described_runTool _ _, hconversation, roundTrip (described_runTool _ _) hconversation⟩

/-! ## Conversations that do not come back -/

/-- The messages are written and read without a change of a role, a text or a call. -/
def ReadsBack (B : Builtins ν) (tools : List (Tool ν)) (messages : List (Message ν)) : Prop :=
  ∃ texts backs, convertFncallMessagesToNonFncallMessages B messages tools true = .ok texts ∧
    convertNonFncallMessagesToFncallMessages B texts tools = .ok backs ∧
    List.Forall₂ SameMessage messages backs

/-- A conversation that comes back differently. -/
lemma ComeBack.not_readsBack {messages backs : List (Message ν)}
    (hsuffix : systemPromptSuffix B tools = .ok suffix)
    (h : ComeBack B tools suffix (getExampleForTools tools) ⟨1, false⟩ messages backs)
    (hdiff : ¬ List.Forall₂ SameMessage messages backs) : ¬ ReadsBack B tools messages := by
  obtain ⟨texts, hencode, hdecode⟩ := h.exists_converted hsuffix
  rintro ⟨texts', backs', hencode', hdecode', hsame⟩
  obtain rfl := Except.ok.inj (hencode.symm.trans hencode')
  obtain rfl := Except.ok.inj (hdecode.symm.trans hdecode')
  exact hdiff hsame

/-- A message that cannot be written stops the loop. -/
lemma exists_encodeMessages_error {messages : List (Message ν)} {message : Message ν}
    (hmem : message ∈ messages)
    (h : ∀ first, ∃ e, encodeMessage B suffix exampleText true first message = .error e)
    (first : Bool) : ∃ e, encodeMessages B suffix exampleText true first messages = .error e := by
  induction messages generalizing first with
  | nil => cases hmem
  | cons next messages ih =>
    rw [encodeMessages]
    cases hnext : encodeMessage B suffix exampleText true first next with
    | error e => exact ⟨e, rfl⟩
    | ok converted =>
      rcases List.mem_cons.mp hmem with rfl | hmem
      · obtain ⟨e, he⟩ := h first
        rw [he] at hnext
        cases hnext
      · obtain ⟨e, he⟩ := ih hmem converted.2
        exact ⟨e, by simp only [Except.ok_bind, he]; rfl⟩

/-- A conversation with a message that cannot be written. -/
lemma not_readsBack_of_error {messages : List (Message ν)} {message : Message ν}
    (hmem : message ∈ messages) (h : ∀ suffix exampleText first,
      ∃ e, encodeMessage B suffix exampleText true first message = .error e) :
    ¬ ReadsBack B tools messages := by
  rintro ⟨texts, -, hencode, -⟩
  rw [convertFncallMessagesToNonFncallMessages] at hencode
  cases hsuffix : systemPromptSuffix B tools with
  | error e =>
    rw [hsuffix] at hencode
    cases hencode
  | ok suffix =>
    obtain ⟨e, he⟩ := exists_encodeMessages_error hmem (h suffix (getExampleForTools tools)) false
    rw [hsuffix, Except.ok_bind, he] at hencode
    cases hencode

/-- The call that is read if no parameter is found. -/
def bareCall (name : String) : ToolCall Empty :=
  ⟨some 1, some (newId 1), some functionType, some ⟨name.toList, some (.obj [])⟩⟩

/-- The answer with that call. -/
def bareMessage (name : String) : Message Empty :=
  { role := .assistant
    content := some (.str "I look.".toList)
    toolCalls := some [bareCall name] }

/-- A call whose parameter is not found comes back without it. -/
lemma comesBack_bareMessage {name param : String} (text body : String)
    (hencode : encodeToolCall noBuiltins [runCall name param] (some (.str "I look.".toList)) =
      .ok (.str text.toList))
    (hfix : fixStopword text.toList = (text ++ "\n</function>").toList)
    (hfound : fnMatch (text ++ "\n</function>").toList = some (name.toList, body.toList))
    (hnone : paramMatches body.toList = [])
    (hrest : strip (beforeFirst functionStart (text ++ "\n</function>").toList) =
      "I look.".toList) (exampleText : Text) :
    ComesBack noBuiltins [runTool name param] suffix exampleText ⟨1, true⟩ ⟨2, true⟩
      (callMessage name param) (bareMessage name) := by
  have hread : extractAndValidateParams noBuiltins (runTool name param) (paramMatches body.toList)
      name.toList = .ok [] := by
    rw [hnone]
    rfl
  have htool : matchingTool [runTool name param] name.toList = some (runTool name param) :=
    List.find?_cons_of_pos (by simp [runTool])
  have hput : HasText (.str text.toList) text.toList := .str _
  refine ⟨{ role := .assistant, content := some (.str text.toList) }, ?_, ?_⟩
  · simp only [encodeMessage, callMessage, hencode]
    rfl
  · simp only [decodeMessage, decodeAssistant, hput.contentOrEmpty_eq, fixContent, hfix, callText?,
      Option.bind_some, hfound, htool, hread, withoutCall, hrest]
    rfl

/-- A call that is not found stays a text. -/
lemma comesBack_text {name param : String} (text : String)
    (hencode : encodeToolCall noBuiltins [runCall name param] (some (.str "I look.".toList)) =
      .ok (.str text.toList))
    (hnone : fnMatch (fixStopword text.toList) = none) (exampleText : Text) :
    ComesBack noBuiltins [runTool name param] suffix exampleText ⟨1, true⟩ ⟨1, true⟩
      (callMessage name param) (textMessage .assistant text) := by
  have hput : HasText (.str text.toList) text.toList := .str _
  refine ⟨{ role := .assistant, content := some (.str text.toList) }, ?_, ?_⟩
  · simp only [encodeMessage, callMessage, hencode]
    rfl
  · simp only [decodeMessage, decodeAssistant, hput.contentOrEmpty_eq, fixContent, callText?,
      Option.bind_some, hnone]
    rfl

/-- A conversation whose call comes back differently does not come back. -/
lemma not_readsBack_listFiles {name param : String} {back : Message Empty} {counter : ℕ}
    (hname : ']' ∉ name.toList)
    (h : ∀ suffix exampleText, ComesBack noBuiltins [runTool name param] suffix exampleText
      ⟨1, true⟩ ⟨counter + 1, true⟩ (callMessage name param) back)
    (hdiff : ¬ SameMessage (callMessage name param) back) :
    ¬ ReadsBack noBuiltins [runTool name param] (listFiles name param false) := by
  have hsystem := textMessage_textMessage .system "You run commands." (by decide) (by decide)
  have huser := textMessage_textMessage .user "Which files are there?" (by decide) (by decide)
  obtain ⟨suffix, hsuffix⟩ := (described_runTool name param).exists_suffix noBuiltins
  obtain ⟨backSystem, hbackSystem, -⟩ := comesBack_system hsystem rfl hsuffix ⟨1, false⟩
  obtain ⟨backUser, hbackUser, -⟩ :=
    comesBack_firstUser huser rfl (firstUserText_of_notMem (by decide)) 1
  obtain ⟨backResult, hbackResult, -⟩ := comesBack_result (textMessage_resultMessage name false)
    rfl rfl hname (fun hmark => by cases hmark) counter
  refine ComeBack.not_readsBack hsuffix (.cons hbackSystem (.cons hbackUser (.cons (h suffix _)
    (.cons hbackResult (.nil _))))) ?_
  intro hsame
  cases hsame with
  | cons _ hsame => cases hsame with
    | cons _ hsame => cases hsame with
      | cons hcall _ => exact hdiff hcall

/-- The call without its parameter is another one. -/
lemma not_sameMessage_bareMessage (name param : String) :
    ¬ SameMessage (callMessage name param) (bareMessage name) := fun hsame =>
  absurd hsame.calls (by simp [bareMessage, bareCall, callMessage, runCall])

/-- A text that ends like the suffix behind the first text of the user, without the last letter. -/
def seamText : Text := 'a' :: inContextLearningExampleSuffix.dropLast

/-- The same text with the line break in another place. -/
def cutText : Text := 'a' :: inContextLearningExampleSuffix.tail

/-- Letters that are not in these texts. -/
lemma ne_of_mem_seamText {c : Char} (h : c ∈ seamText ∨ c ∈ cutText) : c ≠ '<' ∧ c ≠ '[' := by
  have hletters := inContextLearningExampleSuffix_letters.2.2.2
  rcases h with h | h <;> rcases List.mem_cons.mp h with rfl | h
  · exact ⟨by decide, by decide⟩
  · exact hletters c (List.mem_of_mem_dropLast h)
  · exact ⟨by decide, by decide⟩
  · exact hletters c (List.mem_of_mem_tail h)

/-- A result begins with a word that has a bracket. -/
lemma not_infix_resultStart {t : Text} (h : '[' ∉ t) : ¬ resultStart <:+: t := fun hocc =>
  h (hocc.subset (by decide))

/-- A plain text that does not have the suffix. -/
lemma plainText_seamText : PlainText seamText ∧ ¬ inContextLearningExampleSuffix <:+: seamText := by
  obtain ⟨w, hw⟩ := exists_eq_cons_of_exampleSuffix
  refine ⟨⟨not_infix_of_notMem fun h => (ne_of_mem_seamText (.inl h)).1 rfl,
    not_infix_resultStart fun h => (ne_of_mem_seamText (.inl h)).2 rfl⟩, fun hocc => ?_⟩
  -- They have the same length.
  have hsame := hocc.eq_of_length (by rw [seamText, hw]; simp)
  rw [seamText, hw] at hsame
  exact absurd (List.cons.inj hsame).1 (by decide)

/-- The texts are not the same up to outer white space. -/
lemma strip_cutText_ne : strip cutText ≠ strip seamText := by
  obtain ⟨w, hw⟩ := exists_eq_cons_of_exampleSuffix
  obtain ⟨-, -, hlast, -⟩ := inContextLearningExampleSuffix_letters
  have hseam : strip seamText = seamText := by
    have hl : lstrip seamText = seamText := List.dropWhile_cons_of_neg (by decide)
    rw [strip, hl, rstrip, List.rdropWhile_eq_self_iff]
    intro hne
    have hdot : seamText.getLast? = some '.' := by
      rw [seamText, List.getLast?_cons, hlast]
      rfl
    rw [List.getLast?_eq_some_getLast hne] at hdot
    rw [Option.some.inj hdot]
    decide
  have hcut : strip cutText <+: cutText := by
    have hl : lstrip cutText = cutText := List.dropWhile_cons_of_neg (by decide)
    rw [strip, hl]
    exact List.rdropWhile_prefix _ _
  intro heq
  rw [heq, hseam] at hcut
  rw [seamText, cutText, hw] at hcut
  have hsame := hcut.eq_of_length (by simp)
  exact absurd (List.cons.inj (List.cons.inj hsame).2).1 (by decide)

/-- The suffix is found too early. -/
lemma removeExample_seamText {exampleText : Text} (hne : exampleText ≠ []) :
    removeExample exampleText (exampleText ++ seamText ++ inContextLearningExampleSuffix) =
      cutText := by
  obtain ⟨w, hw⟩ := exists_eq_cons_of_exampleSuffix
  have hlast := inContextLearningExampleSuffix_letters.2.1
  rw [seamText, cutText]
  set suffix := inContextLearningExampleSuffix with hsuffix
  have hend : suffix.dropLast ++ ['\n'] = suffix := List.dropLast_append_getLast? _ hlast
  have htail : suffix = '\n' :: suffix.tail := by rw [hw, List.tail_cons]
  have hparts : 'a' :: suffix.dropLast ++ suffix = 'a' :: (suffix ++ suffix.tail) :=
    calc 'a' :: suffix.dropLast ++ suffix = 'a' :: (suffix.dropLast ++ '\n' :: suffix.tail) := by
          rw [List.cons_append, ← htail]
      _ = 'a' :: (suffix ++ suffix.tail) := by rw [List.append_cons, hend]
  have hhead : ¬ suffix <+: 'a' :: (suffix ++ suffix.tail) := by
    rw [htail, List.cons_prefix_cons]
    exact fun hocc => absurd hocc.1 (by decide)
  have hstart : removeFirst exampleText (exampleText ++ ('a' :: suffix.dropLast ++ suffix)) =
      'a' :: suffix.dropLast ++ suffix := by
    rw [removeFirst, splitFirst_self_append hne]
    rfl
  have hcut : removeFirst suffix ('a' :: suffix.dropLast ++ suffix) = 'a' :: suffix.tail := by
    rw [removeFirst, hparts, splitFirst, if_neg hhead,
      splitFirst_self_append (by rw [htail]; exact List.cons_ne_nil _ _)]
    rfl
  rw [removeExample, List.append_assoc, if_pos (List.prefix_append _ _), hstart, ← hsuffix]
  simp only [List.suffix_append, if_true, hcut]

/-- A conversation whose first text of the user is cut. -/
def seamConversation : List (Message Empty) :=
  [textMessage .system "You run commands.", { role := .user, content := some (.str seamText) }]

/-- The first message of the user with the cut text. -/
lemma comesBack_seam {tools : List (Tool Empty)} (hne : exampleText ≠ []) :
    ComesBack noBuiltins tools suffix exampleText ⟨1, false⟩ ⟨1, true⟩
      { role := .user, content := some (.str seamText) }
      { role := .user, content := some (.str cutText) } := by
  have hnone : toolResultMatch cutText = none :=
    search_eq_none _ (not_infix_resultStart fun h => (ne_of_mem_seamText (.inr h)).2 rfl)
  refine ⟨{ role := .user, content := some (.str (exampleText ++ seamText ++
    inContextLearningExampleSuffix)) }, ?_, ?_⟩
  · simp only [encodeMessage, encodeExample, hne, ne_eq, not_false_eq_true, if_true]
    rfl
  · have hback : decodeExample exampleText (.str (exampleText ++ seamText ++
        inContextLearningExampleSuffix)) = .str cutText := by
      rw [decodeExample, removeExample_seamText hne]
    have huser : decodeUser (ν := Empty) 1 (.str cutText) =
        .ok { role := .user, content := some (.str cutText) } := by
      rw [decodeUser, contentResult, hnone]
      rfl
    simp only [decodeMessage, contentOrEmpty, hback, huser, Bool.false_eq_true, if_false]
    rfl

/-- The tool without a description. -/
def undescribedTool : Tool Empty := { runTool "execute_bash" "command" with description := none }

/-- **Conversations that do not come back**: a call is lost if the name of its tool is empty, a
parameter if its name is empty or ends like the end of a call, and a first text of the user that
ends like the suffix behind it is cut in the wrong place. A tool without a description and a mark on
a result that is no list cannot be written. -/
theorem not_readsBack_examples :
    (∀ names ∈ [("", "command"), ("execute_bash", ""), ("execute_bash", "x</function")],
      ('>' ∉ names.1.toList ∧ ']' ∉ names.1.toList ∧ '>' ∉ names.2.toList ∧
        ']' ∉ names.2.toList) ∧
      Described [runTool names.1 names.2] ∧
      ValidArgument (runTool names.1 names.2) (names.2, Json.str "ls") ∧
      ¬ ReadsBack noBuiltins [runTool names.1 names.2] (listFiles names.1 names.2 false)) ∧
    (PlainText seamText ∧ ¬ inContextLearningExampleSuffix <:+: seamText ∧
      ¬ ReadsBack noBuiltins [runTool "execute_bash" "command"] seamConversation) ∧
    ¬ ReadsBack noBuiltins [undescribedTool] (listFiles "execute_bash" "command" false) ∧
    ¬ ReadsBack noBuiltins [runTool "execute_bash" "command"]
      (listFiles "execute_bash" "command" true) := by
  refine ⟨?_, ?_, ?_, ?_⟩
  · simp only [List.forall_mem_cons, List.not_mem_nil, false_imp_iff, implies_true, and_true]
    refine ⟨⟨by decide, described_runTool _ _, validArgument_runTool _ _, ?_⟩,
      ⟨by decide, described_runTool _ _, validArgument_runTool _ _, ?_⟩,
      by decide, described_runTool _ _, validArgument_runTool _ _, ?_⟩
    -- The texts are evaluated letter by letter.
    · refine not_readsBack_listFiles (by decide) (fun _ => comesBack_text
        "I look.\n\n<function=>\n<parameter=command>ls</parameter>\n</function>" ?_ ?_)
        fun hsame => absurd hsame.calls (by simp [textMessage, callMessage])
      · rw [String.toList_ofList, String.toList_ofList]
        rfl
      · rw [String.toList_ofList]
        decide
    · refine not_readsBack_listFiles (by decide) (fun _ => comesBack_bareMessage
        "I look.\n\n<function=execute_bash>\n<parameter=>ls</parameter>\n</function>"
        "<parameter=>ls</parameter>\n" ?_ ?_ ?_ ?_ ?_) (not_sameMessage_bareMessage _ _)
      · rw [String.toList_ofList, String.toList_ofList]
        rfl
      · rw [String.toList_append, String.toList_ofList, String.toList_ofList]
        decide
      · rw [String.toList_append, String.toList_ofList, String.toList_ofList]
        decide
      · rw [String.toList_ofList]
        decide
      · rw [String.toList_append, String.toList_ofList, String.toList_ofList]
        decide
    · refine not_readsBack_listFiles (by decide) (fun _ => comesBack_bareMessage
        "I look.\n\n<function=execute_bash>\n<parameter=x</function>ls</parameter>\n</function>"
        "<parameter=x" ?_ ?_ ?_ ?_ ?_) (not_sameMessage_bareMessage _ _)
      · rw [String.toList_ofList, String.toList_ofList]
        rfl
      · rw [String.toList_append, String.toList_ofList, String.toList_ofList]
        decide
      · rw [String.toList_append, String.toList_ofList, String.toList_ofList]
        decide
      · rw [String.toList_ofList]
        decide
      · rw [String.toList_append, String.toList_ofList, String.toList_ofList]
        decide
  · have hsystem := textMessage_textMessage .system "You run commands." (by decide) (by decide)
    obtain ⟨suffix, hsuffix⟩ :=
      (described_runTool "execute_bash" "command").exists_suffix noBuiltins
    obtain ⟨backSystem, hbackSystem, -⟩ := comesBack_system hsystem rfl hsuffix ⟨1, false⟩
    have hne : getExampleForTools [runTool "execute_bash" "command"] ≠ [] :=
      getExampleForTools_ne_nil (by decide)
    refine ⟨plainText_seamText.1, plainText_seamText.2, ComeBack.not_readsBack hsuffix
      (.cons hbackSystem (.cons (comesBack_seam hne) (.nil _))) ?_⟩
    intro hsame
    cases hsame with
    | cons _ hsame => cases hsame with
      | cons hcut _ => cases hcut.text with
        | str hstrip => exact strip_cutText_ne hstrip
  · rintro ⟨texts, backs, hencode, -⟩
    cases hencode
  · have hmem : resultMessage "execute_bash" true ∈ listFiles "execute_bash" "command" true := by
      simp [listFiles]
    exact not_readsBack_of_error hmem fun _ _ _ => ⟨_, rfl⟩

end ProRLAgent.FnCall
