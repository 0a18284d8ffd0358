import ProRLAgent.FnCall.Prompts
import ProRLAgent.Lib.Search

set_option relaxedAutoImplicit false
set_option autoImplicit false

/-!
# Function calls as text, and back

The converter of `openhands/llm/fn_call_converter.py` for models without function calling. One
function writes tool calls and tool results into the texts of the messages, puts the description of
the tools behind system messages, and an example around the first message of the user. The other
one reads a conversation of this kind back.

The arguments of a call are modelled by the value that `json.loads` gives for their text. The four
roles are those of the message model.

## Main definitions

* `ProRLAgent.FnCall.Message` — a message of a conversation.
* `ProRLAgent.FnCall.convertToolCallToString` — the text of a call.
* `ProRLAgent.FnCall.convertFncallMessagesToNonFncallMessages` — calls as text.
* `ProRLAgent.FnCall.extractAndValidateParams` — the arguments in a text.
* `ProRLAgent.FnCall.convertNonFncallMessagesToFncallMessages` — text as calls.
-/

namespace ProRLAgent.FnCall

open PyText Search
open Serialization (Json ofPairs)

/-! ## Messages -/

/-- An entry of a content list, with its mark for the prompt cache. -/
inductive Item where
  | text (text : Text) (cacheControl : Bool)
  | imageUrl (url : Text) (cacheControl : Bool)

/-- The content of a message. -/
inductive Content where
  | str (text : Text)
  | items (entries : List Item)

variable {ν : Type}

/-- The function of a call. The arguments are `none` if their text is not JSON. -/
structure CalledFunction (ν : Type) where
  name : Text
  arguments : Option (Json ν)

/-- A tool call; `none` stands for an absent key. -/
structure ToolCall (ν : Type) where
  index : Option ℕ
  id : Option Text
  type : Option Text
  function : Option (CalledFunction ν)

/-- A chat message. The tool calls are `none` if the key is absent or holds `None`. -/
structure Message (ν : Type) where
  role : Role
  content : Option Content
  toolCalls : Option (List (ToolCall ν)) := none
  name : Option Text := none
  toolCallId : Option Text := none
  cacheControl : Bool := false

/-- A content that is neither a text nor a list. -/
def unexpectedContent : ConverterError :=
  .conversion ("Unexpected content type <class 'NoneType'>. Expected str or list. " ++
    "Content: None")

/-- The entry with a mark for the prompt cache. -/
def Item.marked : Item → Item
  | .text t _ => .text t true
  | .imageUrl url _ => .imageUrl url true

/-- The text of an entry, if it has one. -/
def Item.text? : Item → Option Text
  | .text t _ => some t
  | .imageUrl _ _ => none

/-- The entries with a changed last one, if it is a text. -/
def mapLastText (f : Text → Text) (entries : List Item) : Option (List Item) :=
  match entries.getLast? with
  | some (.text t cacheControl) => some (entries.dropLast ++ [.text (f t) cacheControl])
  | _ => none

/-- The entries with a text put before the first one that is a text. -/
def prependFirstText (before : Text) : List Item → Option (List Item)
  | [] => none
  | .text t cacheControl :: entries => some (.text (before ++ t) cacheControl :: entries)
  | item :: entries => (prependFirstText before entries).map (item :: ·)

/-! ## Calls as text -/

/-- The start of a call. -/
def functionStart : Text := "<function=".toList

/-- The end of a call. -/
def functionEnd : Text := "</function>".toList

/-- The start of a parameter. -/
def parameterStart : Text := "<parameter=".toList

/-- The end of a parameter. -/
def parameterEnd : Text := "</parameter>".toList

/-- The start of a result, before the name of the tool. -/
def resultStart : Text := "EXECUTION RESULT of [".toList

/-- What stands between the name of the tool and its result. -/
def resultNameEnd : Text := "]:\n".toList

section Encode

variable (B : Builtins ν)

/-- The value is a text of several lines. -/
def isMultiline : Json ν → Bool
  | .str s => '\n' ∈ s.toList
  | _ => false

/-- A parameter of a call. -/
def parameterText (param : String × Json ν) : Text :=
  let lineBreak := if isMultiline param.2 then "\n".toList else []
  parameterStart ++ param.1.toList ++ ">".toList ++ lineBreak ++ strValue B param.2 ++
    lineBreak ++ parameterEnd ++ "\n".toList

/-- The function `convert_tool_call_to_string`. -/
def convertToolCallToString (toolCall : ToolCall ν) : Except ConverterError Text :=
  match toolCall.function, toolCall.id, toolCall.type with
  | none, _, _ => throw (.conversion "Tool call must contain 'function' key.")
  | some _, none, _ => throw (.conversion "Tool call must contain 'id' key.")
  | some _, some _, none => throw (.conversion "Tool call must contain 'type' key.")
  | some function, some _, some type =>
    if type ≠ functionType then throw (.conversion "Tool call type must be 'function'.")
    else match function.arguments with
      | none => throw (.conversion "Failed to parse arguments as JSON. Arguments: ")
      | some (.obj args) =>
        return functionStart ++ function.name ++ ">\n".toList ++
          (args.map (parameterText B)).flatten ++ functionEnd
      | some _ => throw (.python (.other "AttributeError: no attribute 'items'"))

/-- A system message gets the suffix. -/
def encodeSystem (suffix : Text) : Option Content → Except ConverterError Content
  | some (.str t) => return .str (t ++ suffix)
  | some (.items entries) =>
    return .items ((mapLastText (· ++ suffix) entries).getD (entries ++ [.text suffix false]))
  | none => throw unexpectedContent

/-- The first message of the user gets the example around it. -/
def encodeExample (exampleText : Text) : Option Content → Except ConverterError Content
  | some (.str t) => return .str (exampleText ++ t ++ inContextLearningExampleSuffix)
  | some (.items (.text t cacheControl :: entries)) =>
    return .items (.text (exampleText ++ t ++ inContextLearningExampleSuffix) cacheControl :: entries)
  | some (.items entries) =>
    return .items (.text exampleText false :: entries ++
      [.text inContextLearningExampleSuffix false])
  | none => throw unexpectedContent

/-- An assistant message gets the text of its call. -/
def encodeToolCall (toolCalls : List (ToolCall ν)) (content : Option Content) :
    Except ConverterError Content := do
  match toolCalls with
  | [toolCall] =>
    let toolContent ← match convertToolCallToString B toolCall with
      | .error (.conversion _) =>
        throw (.conversion "Failed to convert tool call to string.\nCurrent tool call: ")
      | result => result
    match content with
    | some (.str t) => return .str (lstrip (t ++ "\n\n".toList ++ toolContent))
    | some (.items entries) =>
      return .items ((mapLastText (fun t => lstrip (t ++ "\n\n".toList ++ toolContent)) entries).getD
        (entries ++ [.text toolContent false]))
    | none => throw unexpectedContent
  | toolCalls =>
    let n := toolCalls.length
    throw (.conversion (s!"Expected exactly one tool call in the message. More than one tool call " ++
      s!"is not supported. But got {n} tool calls. Content: "))

/-- A tool message becomes one of the user, with the name of the tool before the result. -/
def encodeToolResult (message : Message ν) : Except ConverterError Content :=
  let toolName := message.name.getD "function".toList
  let before := resultStart ++ toolName ++ resultNameEnd
  match message.content with
  | some (.str t) =>
    if message.cacheControl then
      throw (.python (.typeError "'str' object does not support item assignment"))
    else return .str (before ++ t)
  | some (.items entries) =>
    let entries := (prependFirstText before entries).getD (.text before false :: entries)
    return .items (if message.cacheControl then entries.modifyLast Item.marked else entries)
  | none => throw unexpectedContent

/-- A converted message, and whether a message of the user has been met. -/
def encodeMessage (suffix exampleText : Text) (addInContextLearningExample : Bool)
    (firstUserMessageEncountered : Bool) (message : Message ν) :
    Except ConverterError (Message ν × Bool) := do
  match message.role with
  | .system =>
    let content ← encodeSystem suffix message.content
    return ({ role := .system, content := some content }, firstUserMessageEncountered)
  | .user =>
    if !firstUserMessageEncountered && addInContextLearningExample then
      if exampleText ≠ [] then
        let content ← encodeExample exampleText message.content
        return ({ role := .user, content := some content }, true)
      else return ({ role := .user, content := message.content }, true)
    else return ({ role := .user, content := message.content }, firstUserMessageEncountered)
  | .assistant =>
    match message.toolCalls with
    | some toolCalls =>
      let content ← encodeToolCall B toolCalls message.content
      return ({ role := .assistant, content := some content }, firstUserMessageEncountered)
    | none => return ({ role := .assistant, content := message.content },
        firstUserMessageEncountered)
  | .tool =>
    let content ← encodeToolResult message
    return ({ role := .user, content := some content }, firstUserMessageEncountered)

/-- The loop over the messages. -/
def encodeMessages (suffix exampleText : Text) (addInContextLearningExample : Bool) :
    Bool → List (Message ν) → Except ConverterError (List (Message ν))
  | _, [] => return []
  | first, message :: messages => do
    let (converted, first) ← encodeMessage B suffix exampleText addInContextLearningExample first message
    let rest ← encodeMessages suffix exampleText addInContextLearningExample first messages
    return converted :: rest

/-- The function `convert_fncall_messages_to_non_fncall_messages`. -/
def convertFncallMessagesToNonFncallMessages (messages : List (Message ν)) (tools : List (Tool ν))
    (addInContextLearningExample : Bool) : Except ConverterError (List (Message ν)) := do
  let suffix ← systemPromptSuffix B tools
  encodeMessages B suffix (getExampleForTools tools) addInContextLearningExample false messages

end Encode

/-! ## Text as calls -/

/-- The pattern `FN_REGEX_PATTERN` behind its word: the name of a function and the text up to the
end of the call. -/
def fnBehind (text : Text) : Option (Text × Text) :=
  let name := text.takeWhile (· ≠ '>')
  match name, text.dropWhile (· ≠ '>') with
  | _ :: _, '>' :: '\n' :: rest =>
    (splitFirst functionEnd rest).map fun parts => (name, parts.1)
  | _, _ => none

/-- The pattern `FN_PARAM_REGEX_PATTERN` behind its word: the name of a parameter, its text, and the
rest. -/
def paramBehind (text : Text) : Option ((Text × Text) × Text) :=
  let name := text.takeWhile (· ≠ '>')
  match name, text.dropWhile (· ≠ '>') with
  | _ :: _, '>' :: rest =>
    (splitFirst parameterEnd rest).map fun parts => ((name, parts.1), parts.2)
  | _, _ => none

/-- The first call in a text. -/
def fnMatch (text : Text) : Option (Text × Text) := search functionStart fnBehind text

/-- The parameters in the text of a call. -/
def paramMatches (text : Text) : List (Text × Text) :=
  findAll parameterStart paramBehind text

/-- The first match of `TOOL_RESULT_REGEX_PATTERN`: the name of a tool and its result. -/
def toolResultMatch (text : Text) : Option (Text × Text) :=
  search resultStart (splitFirst resultNameEnd) text

/-- The function `_fix_stopword`. -/
def fixStopword (content : Text) : Text :=
  if functionStart <:+: content ∧ countFrom functionStart 0 content = 1 then
    if "</".toList <:+ content then rstrip content ++ "function>".toList
    else content ++ "\n</function>".toList
  else content

section Decode

variable (B : Builtins ν)

/-- A parameter that the tool does not have. -/
def notAllowed (paramName fnName : Text) : ConverterError :=
  .validation (s!"Parameter '{String.ofList paramName}' is not allowed for function " ++
    s!"'{String.ofList fnName}'. Allowed parameters: ")

/-- A parameter that is not what its schema says. -/
def notExpected (paramName : Text) (expected : String) : ConverterError :=
  .validation (s!"Parameter '{String.ofList paramName}' is expected to be " ++ expected)

/-- The value of a parameter, by the type in its schema. -/
def convertParam (info : Property ν) (param : Text × Text) : Except ConverterError (Json ν) :=
  if info.type = some integerType then
    match int? param.2 with
    | some n => return .int n
    | none => throw (notExpected param.1 "an integer.")
  else if info.type = some arrayType then
    match B.loads param.2 with
    | some value => return value
    | none => throw (notExpected param.1 "an array.")
  else return .str (String.ofList param.2)

/-- The value of a parameter, if its schema allows it. -/
def checkEnum (info : Property ν) (paramName : Text) (value : Json ν) :
    Except ConverterError (Json ν) :=
  match info.enum with
  | none => return value
  | some values =>
    if values.any (eqValue B value) then return value
    else throw (notExpected paramName "one of ")

/-- The value of a parameter of a tool. -/
def validateParam (tool : Tool ν) (fnName : Text) (param : Text × Text) :
    Except ConverterError (Json ν) :=
  let properties := tool.parameters.bind Parameters.properties
  let allowedParams := (properties.map Dict.keys).getD []
  if allowedParams ≠ [] ∧ param.1 ∉ allowedParams then throw (notAllowed param.1 fnName)
  else match properties.bind fun properties => properties.get? param.1 with
    | none =>
      throw (.python (.keyError (if tool.parameters.isNone then "parameters"
        else if properties.isNone then "properties" else String.ofList param.1)))
    | some info => convertParam B info param >>= checkEnum B info param.1

/-- The required parameters of a tool. -/
def requiredParams (tool : Tool ν) : List Text :=
  (tool.parameters.bind Parameters.required).getD []

/-- The function `_extract_and_validate_params`. -/
def extractAndValidateParams (tool : Tool ν) (paramMatches : List (Text × Text)) (fnName : Text) :
    Except ConverterError (List (String × Json ν)) := do
  let params ← paramMatches.mapM fun param => do
    let value ← validateParam B tool fnName param
    return (String.ofList param.1, value)
  if ∃ name ∈ requiredParams tool, name ∉ paramMatches.map Prod.fst then
    throw (.validation
      s!"Missing required parameters for function '{String.ofList fnName}': ")
  return ofPairs params

/-- `content or ''`. -/
def contentOrEmpty : Option Content → Content
  | none | some (.items []) => .str []
  | some content => content

/-- A system message without the suffix. -/
def decodeSystem (suffix : Text) : Content → Content
  | .str t => .str (beforeFirst suffix t)
  | .items entries => .items ((mapLastText (beforeFirst suffix) entries).getD entries)

/-- A text without the example around it. -/
def removeExample (exampleText text : Text) : Text :=
  let text := if exampleText <+: text then removeFirst exampleText text else text
  if inContextLearningExampleSuffix <:+ text then removeFirst inContextLearningExampleSuffix text
  else text

/-- The first message of the user without the example. -/
def decodeExample (exampleText : Text) : Content → Content
  | .str t => .str (removeExample exampleText t)
  | .items entries => .items (entries.map fun item => match item with
    | .text t cacheControl => .text (removeExample exampleText t) cacheControl
    | item => item)

/-- The result of a tool in a message of the user. -/
def contentResult : Content → Option (Text × Text)
  | .str t => toolResultMatch t
  | .items entries => entries.findSome? fun item => item.text?.bind toolResultMatch

/-- A message of the user: a result of a tool becomes a tool message for the last call. -/
def decodeUser (counter : ℕ) (content : Content) : Except ConverterError (Message ν) :=
  match contentResult content with
  | none => return { role := .user, content := some content }
  | some (toolName, toolResult) => do
    let result ← match content with
      | .str _ => pure (Content.str (strip toolResult))
      | .items [.text _ _] => pure (Content.items [.text (strip toolResult) false])
      | .items _ => throw (.conversion ("Expected str or list with one text item when tool result " ++
          "is present in the message. Content: "))
    return {
      role := .tool
      content := some result
      name := some toolName
      toolCallId := some ("toolu_".toList ++ padded (counter - 1)) }

/-- The last text of a content, with the stop word. -/
def fixContent : Content → Content
  | .str t => .str (fixStopword t)
  | .items entries => .items ((mapLastText fixStopword entries).getD entries)

/-- The text of a content in which a call is searched for. -/
def callText? : Content → Option Text
  | .str t => some t
  | .items entries => entries.getLast?.bind Item.text?

/-- The content without the text from the first call on. -/
def withoutCall : Content → Content
  | .str t => .str (strip (beforeFirst functionStart t))
  | .items entries => .items
    ((mapLastText (fun t => strip (beforeFirst functionStart t)) entries).getD entries)

/-- The first function of the name. -/
def matchingTool (tools : List (Tool ν)) (fnName : Text) : Option (Tool ν) :=
  tools.find? fun tool => tool.type = functionType ∧ tool.name = fnName

/-- An assistant message, and the number of the next call. -/
def decodeAssistant (tools : List (Tool ν)) (counter : ℕ) (message : Message ν) :
    Except ConverterError (Message ν × ℕ) := do
  let content := fixContent (contentOrEmpty message.content)
  match (callText? content).bind fnMatch, content with
  | none, .str _ => return (message, counter)
  | none, .items entries =>
    if entries.any fun item => (item.text?.bind fnMatch).isSome then
      throw (.conversion ("Expecting function call in the LAST index of content list. " ++
        "But got content="))
    else return ({ message with content := some content }, counter)
  | some (fnName, fnBody), _ =>
    match matchingTool tools fnName with
    | none =>
      throw (.validation s!"Function '{String.ofList fnName}' not found in available tools: ")
    | some tool =>
      let params ← extractAndValidateParams B tool (paramMatches fnBody) fnName
      let toolCall : ToolCall ν := {
        index := some 1
        id := some ("toolu_".toList ++ padded counter)
        type := some functionType
        function := some ⟨fnName, some (.obj params)⟩ }
      return ({
        role := .assistant
        content := some (withoutCall content)
        toolCalls := some [toolCall] }, counter + 1)

/-- What the loop over the messages carries. -/
structure DecodeState where
  toolCallCounter : ℕ
  firstUserMessageEncountered : Bool

/-- A message that is read back, and the next state. -/
def decodeMessage (suffix exampleText : Text) (tools : List (Tool ν)) (state : DecodeState)
    (message : Message ν) : Except ConverterError (Message ν × DecodeState) := do
  let content := contentOrEmpty message.content
  match message.role with
  | .system =>
    return ({ role := .system, content := some (decodeSystem suffix content) }, state)
  | .user =>
    let content := if state.firstUserMessageEncountered then content
      else decodeExample exampleText content
    let decoded ← decodeUser state.toolCallCounter content
    return (decoded, { state with firstUserMessageEncountered := true })
  | .assistant =>
    let (decoded, counter) ← decodeAssistant B tools state.toolCallCounter message
    return (decoded, { state with toolCallCounter := counter })
  | .tool =>
    throw (.conversion ("Unexpected role tool. Expected system, user, or assistant in " ++
      "non-function calling messages."))

/-- The loop over the messages. -/
def decodeMessages (suffix exampleText : Text) (tools : List (Tool ν)) :
    DecodeState → List (Message ν) → Except ConverterError (List (Message ν))
  | _, [] => return []
  | state, message :: messages => do
    let (decoded, state) ← decodeMessage B suffix exampleText tools state message
    let rest ← decodeMessages suffix exampleText tools state messages
    return decoded :: rest

/-- The function `convert_non_fncall_messages_to_fncall_messages`. -/
def convertNonFncallMessagesToFncallMessages (messages : List (Message ν))
    (tools : List (Tool ν)) : Except ConverterError (List (Message ν)) := do
  let suffix ← systemPromptSuffix B tools
  decodeMessages B suffix (getExampleForTools tools) tools ⟨1, false⟩ messages

end Decode

end ProRLAgent.FnCall
