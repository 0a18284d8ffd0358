import ProRLAgent.Lib.PyText
import ProRLAgent.Lib.Replay
import ProRLAgent.Memory.Prompt

set_option relaxedAutoImplicit false
set_option autoImplicit false

/-!
# From events to the texts of a prompt

How `process_events` (`openhands/memory/conversation_memory.py`) reads the events: each kind of
action and observation has its own text. The events are shared objects, and two converters write to
them: a finish action saves the content of the assistant message in its thought, and an observation
of a file edit caches its diff.

The templates of the prompt manager, the line groups of a diff and the text of an accessibility
tree are computed by libraries; they are parameters. A list of events is a list of names of
objects, so the same object may come more than once.

## Main definitions

* `ProRLAgent.Memory.HistoryEvent` — an event with the fields that a prompt shows.
* `ProRLAgent.Memory.PromptSetup` — the configuration and the libraries.
* `ProRLAgent.Memory.render` — the converters.
* `ProRLAgent.Memory.processHistory` — the function `process_events` on shared objects.
-/

namespace ProRLAgent.Memory

open PyText (strip rstrip)

/-! ## Events -/

/-- A model response: its id, and the message of its first choice. -/
structure LlmResponse where
  id : String
  role : Role
  content : Option String
  toolCalls : Option (List ToolCall)
  deriving DecidableEq, Repr

/-- The metadata of a tool call. -/
structure CallMetadata where
  functionName : String
  toolCallId : String
  modelResponse : LlmResponse
  deriving DecidableEq, Repr

/-- The output of a command, with the metadata that its text shows. -/
structure CmdOutput where
  content : String
  prefixText : String
  suffixText : String
  workingDir : Option String
  pyInterpreterPath : Option String
  exitCode : ℤ
  deriving DecidableEq, Repr

/-- Where a file edit comes from. -/
inductive FileEditSource where
  | llmBasedEdit
  | ohAci
  deriving DecidableEq, Repr

/-- An observation of a file edit. -/
structure FileEdit where
  content : String
  path : String
  prevExist : Bool
  oldContent : Option String
  newContent : Option String
  implSource : FileEditSource
  diffCache : Option String
  deriving DecidableEq, Repr

/-- The output of the browser. The accessibility tree is given by its text, or by the text of the
exception that the library raises. -/
structure BrowserOutput where
  content : String
  url : String
  triggerByAction : String
  screenshot : String
  screenshotPath : Option String
  setOfMarks : String
  error : Bool
  lastBrowserActionError : String
  focusedElementBid : String
  axtree : Except String String

/-- The knowledge of a microagent. -/
structure MicroagentKnowledge where
  name : String
  trigger : String
  content : String
  deriving DecidableEq, Repr

/-- What is recalled. -/
inductive RecallType where
  | workspaceContext
  | knowledge
  deriving DecidableEq, Repr

/-- A recall of knowledge or of the context of the workspace. -/
structure Recall where
  recallType : RecallType
  repoName : String
  repoDirectory : String
  repoInstructions : String
  runtimeHosts : List (String × ℤ)
  additionalAgentInstructions : String
  date : String
  customSecretsDescriptions : List (String × String)
  conversationInstructions : String
  microagentKnowledge : List MicroagentKnowledge
  deriving DecidableEq, Repr

/-- An event, with the fields that a prompt shows. -/
inductive HistoryEvent where
  /-- An action that is told by its model response alone: delegate, think, run a cell, edit or read
  a file, browse, or call a tool of a server. -/
  | toolAction (metadata : Option CallMetadata)
  /-- A `CmdRunAction`. -/
  | cmdRun (source : Option EventSource) (command : String) (metadata : Option CallMetadata)
  /-- An `AgentFinishAction`. -/
  | finish (source : Option EventSource) (thought : String) (metadata : Option CallMetadata)
  /-- A `MessageAction`. -/
  | message (source : Option EventSource) (content : Option String)
      (imageUrls : Option (List String))
  /-- A `SystemMessageAction`. -/
  | systemMessage (content : String)
  /-- Any other action. -/
  | otherAction
  | cmdOutput (output : CmdOutput) (metadata : Option CallMetadata)
  /-- An observation whose text is its content: of a tool of a server, of a thought, or of a
  condensation. -/
  | content (content : String) (metadata : Option CallMetadata)
  | ipythonRunCell (content : String) (imageUrls : Option (List String))
      (metadata : Option CallMetadata)
  | fileEdit (edit : FileEdit) (metadata : Option CallMetadata)
  | fileRead (content : String) (metadata : Option CallMetadata)
  | browserOutput (output : BrowserOutput) (metadata : Option CallMetadata)
  /-- The entry `content` of the outputs, if there is one, and the content. -/
  | agentDelegate (outputsContent : Option String) (content : String)
      (metadata : Option CallMetadata)
  | error (content : String) (metadata : Option CallMetadata)
  | userReject (content : String) (metadata : Option CallMetadata)
  | recallObservation (obs : Recall) (metadata : Option CallMetadata)
  /-- An observation of an unknown type. -/
  | unknownObservation
  /-- An event that is neither an action nor an observation. -/
  | unknownEvent

/-- The event is a system message. -/
def HistoryEvent.isSystemMessage : HistoryEvent → Bool
  | systemMessage _ => true
  | _ => false

/-- The event is a message of the user. -/
def HistoryEvent.isUserMessage : HistoryEvent → Bool
  | message source _ _ => source = some .user
  | _ => false

/-! ## The setup of a prompt -/

/-- What the repository is. -/
structure RepositoryInfo where
  repoName : String
  repoDirectory : String
  deriving DecidableEq, Repr

/-- What the runtime is. -/
structure RuntimeInfo where
  date : String
  availableHosts : List (String × ℤ)
  additionalAgentInstructions : String
  customSecretsDescriptions : List (String × String)
  deriving DecidableEq, Repr

/-- **The setup of a prompt**: the configuration of the agent, the arguments of the call, the
templates of the prompt manager, and the line groups of a diff before and after the edit. -/
structure PromptSetup where
  enablePromptExtensions : Bool
  enableSomVisualBrowsing : Bool
  disabledMicroagents : List String
  maxMessageChars : Option ℤ
  visionIsActive : Bool
  systemPrompt : String
  buildWorkspaceContext : Option RepositoryInfo → RuntimeInfo → Option String → String → String
  buildMicroagentInfo : List MicroagentKnowledge → String
  editGroups : String → String → List (List String × List String)

section Setup

variable (P : PromptSetup)

/-! ## Texts -/

/-- The function `truncate_content`. -/
def truncateContent (content : String) (maxChars : Option ℤ) : String :=
  match maxChars with
  | none => content
  | some maxChars =>
    if (content.toList.length : ℤ) ≤ maxChars ∨ maxChars < 0 then content
    else
      let half := maxChars / 2
      String.ofList (Slices.slice content.toList none (some half)) ++
        "\n[... Observation truncated due to length ...]\n" ++
        String.ofList (Slices.slice content.toList (some (-half)) none)

/-- The text of an observation, not longer than the setup allows. -/
def PromptSetup.truncate (content : String) : String := truncateContent content P.maxMessageChars

/-- The property `to_agent_observation` of a command. -/
def CmdOutput.toAgentObservation (output : CmdOutput) : String :=
  output.prefixText ++ output.content ++ output.suffixText ++
    (if output.workingDir.getD "" ≠ "" then
      "\n[Current working directory: " ++ output.workingDir.getD "" ++ "]" else "") ++
    (if output.pyInterpreterPath.getD "" ≠ "" then
      "\n[Python interpreter: " ++ output.pyInterpreterPath.getD "" ++ "]" else "") ++
    (if output.exitCode ≠ -1 then
      "\n[Command finished with exit code " ++ toString output.exitCode ++ "]" else "")

/-- The mark of an image in the output of a cell. -/
def base64Image : String := "![image](data:image/png;base64,"

/-- The output of a cell without its images. -/
def cleanCellOutput (text : String) : String :=
  "\n".intercalate ((text.splitOn "\n").map fun line =>
    if base64Image.toList <:+: line.toList then
      "![image](data:image/png;base64, ...) already displayed to user"
    else line)

/-- The lines of an edit in a diff. -/
def editGroupLines (opType : String) (total i : ℕ) (group : List String × List String) :
    List String :=
  (if i ≠ 0 then ["-------------------------"] else []) ++
    [s!"[begin of {opType} {i + 1} / {total}]", s!"(content before {opType})"] ++ group.1 ++
    [s!"(content after {opType})"] ++ group.2 ++ [s!"[end of {opType} {i + 1} / {total}]"]

/-- The function `visualize_diff` with its default arguments: it caches its result. -/
def FileEdit.visualizeDiff (edit : FileEdit) : FileEdit × String :=
  match edit.diffCache with
  | some diff => (edit, diff)
  | none =>
    let diff :=
      if edit.oldContent = edit.newContent then
        "(no changes detected. Please make sure your edits change " ++
          "the content of the existing file.)\n"
      else
        let groups := match edit.oldContent, edit.newContent with
          | some oldContent, some newContent => P.editGroups oldContent newContent
          | _, _ => []
        let header := "[Existing file " ++ edit.path ++ " is edited with " ++
          toString groups.length ++ " changes.]"
        "\n".intercalate
          (header :: (groups.mapIdx (editGroupLines "edit" groups.length)).flatten)
    ({ edit with diffCache := some diff }, diff)

/-- The method `__str__` of a file edit. -/
def FileEdit.str (edit : FileEdit) : FileEdit × Except PyError String :=
  match edit.implSource with
  | .ohAci => (edit, .ok edit.content)
  | .llmBasedEdit =>
    if !edit.prevExist then
      if edit.oldContent ≠ some "" then (edit, .error .assertionError)
      else (edit, .ok ("[New file " ++ edit.path ++ " is created with the provided content.]\n"))
    else
      let (edit, diff) := edit.visualizeDiff P
      (edit, .ok (String.ofList (rstrip diff.toList) ++ "\n"))

/-- The method `get_agent_obs_text` of the browser. -/
def BrowserOutput.agentObsText (output : BrowserOutput) : Except PyError String :=
  if output.triggerByAction = "browse_interactive" then
    return "[Current URL: " ++ output.url ++ "]\n" ++
      "[Focused element bid: " ++ output.focusedElementBid ++ "]\n" ++
      (if output.screenshotPath.getD "" ≠ "" then
        "[Screenshot saved to: " ++ output.screenshotPath.getD "" ++ "]\n" else "") ++ "\n" ++
      (if output.error then
        "================ BEGIN error message ===============\n" ++
        "The following error occurred when executing the last action:\n" ++
        output.lastBrowserActionError ++ "\n" ++
        "================ END error message ===============\n"
      else "[Action executed successfully.]\n") ++
      match output.axtree with
      | .ok text => "============== BEGIN accessibility tree ==============\n" ++ text ++ "\n" ++
          "============== END accessibility tree ==============\n"
      | .error message =>
        "\n[Error encountered when processing the accessibility tree: " ++ message ++ "]"
  else if output.triggerByAction = "browse" then
    return "[Current URL: " ++ output.url ++ "]\n" ++
      (if output.error then
        "================ BEGIN error message ===============\n" ++
        "The following error occurred when trying to visit the URL:\n" ++
        output.lastBrowserActionError ++ "\n" ++
        "================ END error message ===============\n"
      else "") ++
      "============== BEGIN webpage content ==============\n" ++ output.content ++
      "\n============== END webpage content ==============\n"
  else throw (.valueError ("Invalid trigger_by_action: " ++ output.triggerByAction))

/-- The content of the message for an output of the browser. -/
def BrowserOutput.messageContent (output : BrowserOutput) : Except PyError (List ContentItem) := do
  let text ← output.agentObsText
  if output.triggerByAction = "browse_interactive" ∧ P.enableSomVisualBrowsing ∧
      P.visionIsActive then
    return [.text (text ++ "Image: Current webpage screenshot (Note that only visible portion of " ++
        "webpage is present in the screenshot. You may need to scroll to view the remaining " ++
        "portion of the web-page.)\n"),
      .image [if output.setOfMarks ≠ "" then output.setOfMarks else output.screenshot]]
  else return [.text text]

/-! ## Recalls -/

/-- The agents that are not disabled. -/
def PromptSetup.enabledAgents (agents : List MicroagentKnowledge) : List MicroagentKnowledge :=
  agents.filter fun agent => agent.name ∉ P.disabledMicroagents

/-- The content for the context of the workspace: the templates that have something to say. -/
def Recall.workspaceContent (obs : Recall) : List ContentItem :=
  let repoInfo : Option RepositoryInfo :=
    if obs.repoName ≠ "" ∨ obs.repoDirectory ≠ "" then
      some ⟨obs.repoName, obs.repoDirectory⟩
    else none
  let runtimeInfo : RuntimeInfo :=
    if obs.runtimeHosts ≠ [] ∨ obs.additionalAgentInstructions ≠ "" then
      ⟨obs.date, obs.runtimeHosts, obs.additionalAgentInstructions,
        obs.customSecretsDescriptions⟩
    else ⟨obs.date, [], "", obs.customSecretsDescriptions⟩
  let conversationInstructions :=
    if obs.conversationInstructions ≠ "" then some obs.conversationInstructions else none
  let hasRuntimeInfo := runtimeInfo.date ≠ "" ∨ runtimeInfo.customSecretsDescriptions ≠ []
  let hasRepoInstructions := strip obs.repoInstructions.toList ≠ []
  let agents := P.enabledAgents obs.microagentKnowledge
  (if repoInfo.isSome ∨ hasRuntimeInfo ∨ hasRepoInstructions ∨ conversationInstructions.isSome then
    [.text (P.buildWorkspaceContext repoInfo runtimeInfo conversationInstructions
      obs.repoInstructions)]
  else []) ++ if agents ≠ [] then [.text (P.buildMicroagentInfo agents)] else []

/-- The event is a recall that has the agent. -/
def HistoryEvent.hasAgent (agentName : String) : HistoryEvent → Bool
  | recallObservation obs _ => obs.microagentKnowledge.any fun agent => agent.name = agentName
  | _ => false

/-- The function `_has_agent_in_earlier_events`. -/
def hasAgentInEarlierEvents (agentName : String) (earlier : List HistoryEvent) : Bool :=
  earlier.any (HistoryEvent.hasAgent agentName)

/-- The agents of a recall of knowledge that are told: they come for the first time and are not
disabled. -/
def Recall.newAgents (obs : Recall) (earlier : List HistoryEvent) : List MicroagentKnowledge :=
  P.enabledAgents
    (obs.microagentKnowledge.filter fun agent => !hasAgentInEarlierEvents agent.name earlier)

/-! ## The converters -/

/-- The response as the prompt shows it. -/
def LlmResponse.toModelResponse (response : LlmResponse) : ModelResponse where
  id := response.id
  role := response.role
  content := match response.content with
    | some content => if strip content.toList ≠ [] then [.text content] else []
    | none => []
  toolCalls := response.toolCalls

/-- The metadata as the prompt shows them. -/
def CallMetadata.toToolCallMetadata (metadata : CallMetadata) : ToolCallMetadata :=
  ⟨metadata.functionName, metadata.toolCallId, metadata.modelResponse.toModelResponse⟩

/-- The thought of a finish action that saves the content of the assistant message. -/
def savedThought (thought content : String) : String :=
  if thought ≠ "" then
    if thought ≠ content then thought ++ "\n" ++ content else thought
  else content

/-- The message of an observation, which becomes a tool message if it has metadata. -/
def observationOf (content : List ContentItem) (metadata : Option CallMetadata) : PromptEvent :=
  .observation content (metadata.map CallMetadata.toToolCallMetadata)

/-- A text with images, if they are shown. -/
def PromptSetup.withImages (text : String) (imageUrls : Option (List String)) : List ContentItem :=
  .text text :: if P.visionIsActive ∧ imageUrls.getD [] ≠ [] then [.image (imageUrls.getD [])] else []

/-- The recall as it is told, behind the earlier events. -/
def renderRecall (earlier : List HistoryEvent) (obs : Recall) (metadata : Option CallMetadata) :
    PromptEvent :=
  if !P.enablePromptExtensions then .silent
  else match obs.recallType with
    | .workspaceContext =>
      let content := obs.workspaceContent P
      if content ≠ [] then observationOf content metadata else .silent
    | .knowledge =>
      let agents := obs.newAgents P earlier
      if agents ≠ [] then .knowledge [.text (P.buildMicroagentInfo agents)] else .silent

/-- **The converters** of actions and observations: the event behind its conversion, and what the
loop over the events makes of it. -/
def render (earlier : List HistoryEvent) :
    HistoryEvent → HistoryEvent × Except PyError PromptEvent
  | .toolAction metadata =>
    (.toolAction metadata, .ok (.toolAction (metadata.map CallMetadata.toToolCallMetadata)))
  | .cmdRun source command metadata =>
    (.cmdRun source command metadata,
      if source = some .agent then
        .ok (.toolAction (metadata.map CallMetadata.toToolCallMetadata))
      else if source = some .user then
        .ok (.userCommand [.text ("User executed the command:\n" ++ command)])
      else .ok .otherAction)
  | .finish source thought none => (.finish source thought none, .ok (.finish source [.text thought]))
  | .finish source thought (some metadata) =>
    let thought := savedThought thought (metadata.modelResponse.content.getD "")
    (.finish source thought (some metadata), .ok (.finish source [.text thought]))
  | .message source content imageUrls =>
    (.message source content imageUrls,
      .ok (.message ⟨source, P.withImages (content.getD "") imageUrls⟩))
  | .systemMessage content => (.systemMessage content, .ok (.systemMessage [.text content]))
  | .otherAction => (.otherAction, .ok .otherAction)
  | .cmdOutput output metadata =>
    let text :=
      if metadata.isNone then
        "\nObserved result of command executed by user:\n" ++ output.toAgentObservation
      else output.toAgentObservation
    (.cmdOutput output metadata, .ok (observationOf [.text (P.truncate text)] metadata))
  | .content content metadata =>
    (.content content metadata, .ok (observationOf [.text (P.truncate content)] metadata))
  | .ipythonRunCell content imageUrls metadata =>
    (.ipythonRunCell content imageUrls metadata,
      .ok (observationOf (P.withImages (P.truncate (cleanCellOutput content)) imageUrls) metadata))
  | .fileEdit edit metadata =>
    let (edit, text) := edit.str P
    (.fileEdit edit metadata,
      text.map fun text => observationOf [.text (P.truncate text)] metadata)
  | .fileRead content metadata =>
    (.fileRead content metadata, .ok (observationOf [.text content] metadata))
  | .browserOutput output metadata =>
    (.browserOutput output metadata,
      (output.messageContent P).map fun content => observationOf content metadata)
  | .agentDelegate outputsContent content metadata =>
    (.agentDelegate outputsContent content metadata,
      .ok (observationOf [.text (P.truncate (outputsContent.getD content))] metadata))
  | .error content metadata =>
    (.error content metadata, .ok (observationOf
      [.text (P.truncate content ++ "\n[Error occurred in processing last action]")] metadata))
  | .userReject content metadata =>
    (.userReject content metadata, .ok (observationOf
      [.text ("OBSERVATION:\n" ++ P.truncate content ++
        "\n[Last action has been rejected by the user]")] metadata))
  | .recallObservation obs metadata =>
    (.recallObservation obs metadata, .ok (renderRecall P earlier obs metadata))
  | .unknownObservation => (.unknownObservation, .ok .unknownObservation)
  | .unknownEvent => (.unknownEvent, .ok .unknownEvent)

/-! ## The function -/

/-- The objects of a program, and the list of events, which has their names. -/
structure SharedHistory where
  objects : List HistoryEvent
  events : List ℕ

/-- The event with a name. -/
def SharedHistory.event (history : SharedHistory) (ref : ℕ) : HistoryEvent :=
  Replay.lookup .unknownEvent history.objects ref

/-- The function `_ensure_system_message`: a new object is put at the beginning of the list. -/
def SharedHistory.ensureSystemMessage (history : SharedHistory) : SharedHistory :=
  if history.events.any fun ref => (history.event ref).isSystemMessage then history
  else if P.systemPrompt ≠ "" then
    { objects := history.objects ++ [.systemMessage P.systemPrompt]
      events := Slices.insertAt history.events 0 history.objects.length }
  else history

/-- The function `_ensure_initial_user_message`. -/
def SharedHistory.ensureInitialUserMessage (history : SharedHistory) (initialUserAction : ℕ) : SharedHistory :=
  { history with
    events := Memory.ensureInitialUserMessage
      (fun ref => (history.event ref).isUserMessage) initialUserAction history.events }

/-- One event in the loop: what it was turned into goes into the messages and the tables. -/
def absorb (state : List Message × Tables) (rendered : Except PyError PromptEvent) :
    Except PyError (List Message × Tables) :=
  rendered >>= processStep state

/-- **The function `process_events`** on shared objects: the objects and the list behind the call,
and the messages. -/
def processHistory (history : SharedHistory) (initialUserAction : ℕ) :
    SharedHistory × Except PyError (List Message) :=
  let history := (history.ensureSystemMessage P).ensureInitialUserMessage initialUserAction
  let (objects, result) := Replay.run .unknownEvent (render P) absorb history.objects []
    ([], ⟨.empty, .empty⟩) history.events
  ({ history with objects := objects },
    result.map fun state => applyUserMessageFormatting none (filterUnmatchedToolCalls state.1))

end Setup

end ProRLAgent.Memory
