import ProRLAgent.Events.Values

set_option relaxedAutoImplicit false
set_option autoImplicit false

/-!
# The classes of the events

The registered actions and observations are dataclasses. Each has a list of fields with declared
types and defaults, among them `action` or `observation`, whose default names the class in a stored
event. The table below has the fields in the order of the dataclasses; observations inherit
`content`.

## Main definitions

* `Serialization.FieldType`, `Serialization.FieldType.hasType` — the declared types.
* `Serialization.EventClass`, `Serialization.EventClass.fields` — the table of the classes.
* `Serialization.Event` — an event with its attributes.
* `Serialization.Event.WellTyped` — the fields hold values of their declared types.
-/

namespace ProRLAgent.Serialization

variable {ν τ : Type}

/-! ## Declared types -/

/-- The declared types of the fields. -/
inductive FieldType where
  | str
  | int
  | bool
  | any
  /-- `t | None`. -/
  | opt (t : FieldType)
  | list (t : FieldType)
  /-- `dict[str, t]`. -/
  | dict (t : FieldType)
  /-- `dict` without arguments. -/
  | bareDict
  /-- An enumeration whose members are also texts. -/
  | strEnum (values : List String)
  | intEnum (values : List ℤ)
  | enum (values : List String)
  /-- `MicroagentKnowledge`. -/
  | knowledge
  /-- `CmdOutputMetadata`. -/
  | metadata

/-- The value is a text. -/
def PyObj.isText : PyObj ν → Bool
  | .str _ | .strEnum _ => true
  | _ => false

/-- An instance of `MicroagentKnowledge`. -/
def PyObj.isKnowledge : PyObj ν → Bool
  | .record [("name", name), ("trigger", trigger), ("content", content)] =>
    name.isText && trigger.isText && content.isText
  | _ => false

/-- `str | None` as a model holds it. -/
def PyObj.isOptStr : PyObj ν → Bool
  | .none | .str _ => true
  | _ => false

/-- An instance of `CmdOutputMetadata`: a model keeps numbers and texts as such. -/
def PyObj.isMetadata : PyObj ν → Bool
  | .model [("exit_code", .int _), ("pid", .int _), ("username", username),
      ("hostname", hostname), ("working_dir", workingDir),
      ("py_interpreter_path", pyInterpreterPath), ("prefix", .str _), ("suffix", .str _)] =>
    username.isOptStr && hostname.isOptStr && workingDir.isOptStr && pyInterpreterPath.isOptStr
  | _ => false

/-- **The values of a declared type**. -/
def FieldType.hasType : FieldType → PyObj ν → Bool
  | .str, v => v.isText
  | .int, .int _ | .int, .intEnum _ | .int, .bool _ => true
  | .bool, .bool _ => true
  | .any, _ => true
  | .opt _, .none => true
  | .opt t, v => t.hasType v
  | .list t, .list items => items.all t.hasType
  | .dict t, .dict entries =>
    (entries.all fun e => e.1.text?.isSome && t.hasType e.2) &&
      decide (entries.filterMap fun e => e.1.text?).Nodup
  | .bareDict, .dict _ => true
  | .strEnum values, .strEnum s => decide (s ∈ values)
  | .intEnum values, .intEnum n => decide (n ∈ values)
  | .enum values, .enum s => decide (s ∈ values)
  | .knowledge, v => v.isKnowledge
  | .metadata, v => v.isMetadata
  | _, _ => false

/-- The declaration leaves a part of the value open. -/
def FieldType.untyped : FieldType → Bool
  | .any | .bareDict => true
  | .opt t | .list t | .dict t => t.untyped
  | _ => false

/-- A type without dataclasses, models and plain enumerations. -/
def FieldType.ordinary : FieldType → Bool
  | .enum _ | .knowledge | .metadata => false
  | .opt t | .list t | .dict t => t.ordinary
  | _ => true

-- The equations of these functions are generated here, not in each proof that unfolds them.
section

attribute [local simp] FieldType.hasType FieldType.untyped FieldType.ordinary

end

/-! ## The table -/

/-- A field of a dataclass. -/
structure FieldSpec (ν : Type) where
  name : String
  type : FieldType
  /-- The default, if the field has one. -/
  default : Option (PyObj ν)

/-- The registered classes. -/
inductive EventClass where
  | nullAction
  | cmdRunAction
  | ipythonRunCellAction
  | browseURLAction
  | browseInteractiveAction
  | fileReadAction
  | fileWriteAction
  | fileEditAction
  | agentThinkAction
  | agentFinishAction
  | agentRejectAction
  | agentDelegateAction
  | recallAction
  | changeAgentStateAction
  | messageAction
  | systemMessageAction
  | condensationAction
  | mcpAction
  | nullObservation
  | cmdOutputObservation
  | ipythonRunCellObservation
  | browserOutputObservation
  | fileReadObservation
  | fileWriteObservation
  | fileEditObservation
  | agentDelegateObservation
  | successObservation
  | errorObservation
  | agentStateChangedObservation
  | userRejectObservation
  | agentCondensationObservation
  | agentThinkObservation
  | recallObservation
  | mcpObservation
  deriving DecidableEq

namespace EventClass

/-- `actions`. -/
def actions : List EventClass :=
  [nullAction, cmdRunAction, ipythonRunCellAction, browseURLAction, browseInteractiveAction,
    fileReadAction, fileWriteAction, fileEditAction, agentThinkAction, agentFinishAction,
    agentRejectAction, agentDelegateAction, recallAction, changeAgentStateAction, messageAction,
    systemMessageAction, condensationAction, mcpAction]

/-- `observations`. -/
def observations : List EventClass :=
  [nullObservation, cmdOutputObservation, ipythonRunCellObservation, browserOutputObservation,
    fileReadObservation, fileWriteObservation, fileEditObservation, agentDelegateObservation,
    successObservation, errorObservation, agentStateChangedObservation, userRejectObservation,
    agentCondensationObservation, agentThinkObservation, recallObservation, mcpObservation]

/-- The class is one of actions. -/
def isAction (cls : EventClass) : Bool := cls ∈ actions

/-- The field that names the class. -/
def tagField (cls : EventClass) : String := if cls.isAction then "action" else "observation"

/-- The name of the class in a stored event: the default of `action` or `observation`. -/
def tag : EventClass → String
  | nullAction | nullObservation => "null"
  | cmdRunAction | cmdOutputObservation => "run"
  | ipythonRunCellAction | ipythonRunCellObservation => "run_ipython"
  | browseURLAction | browserOutputObservation => "browse"
  | browseInteractiveAction => "browse_interactive"
  | fileReadAction | fileReadObservation => "read"
  | fileWriteAction | fileWriteObservation => "write"
  | fileEditAction | fileEditObservation => "edit"
  | agentThinkAction | agentThinkObservation => "think"
  | agentFinishAction => "finish"
  | agentRejectAction => "reject"
  | agentDelegateAction | agentDelegateObservation => "delegate"
  | recallAction | recallObservation => "recall"
  | changeAgentStateAction => "change_agent_state"
  | messageAction => "message"
  | systemMessageAction => "system"
  | condensationAction => "condensation"
  | mcpAction => "call_tool_mcp"
  | successObservation => "success"
  | errorObservation => "error"
  | agentStateChangedObservation => "agent_state_changed"
  | userRejectObservation => "user_rejected"
  | agentCondensationObservation => "condense"
  | mcpObservation => "mcp"

/-- The values of `ActionType`. -/
def actionTypes : List String :=
  ["message", "system", "start", "read", "write", "edit", "run", "run_ipython", "browse",
    "browse_interactive", "call_tool_mcp", "delegate", "think", "finish", "reject", "null", "pause",
    "resume", "stop", "change_agent_state", "push", "send_pr", "recall", "condensation"]

/-- `thought: str = ''`, and other texts with a default. -/
def text (name : String) (default : String := "") : FieldSpec ν :=
  ⟨name, .str, some (.str default)⟩

/-- `action` or `observation` of a class. -/
def tagSpec (cls : EventClass) : FieldSpec ν :=
  ⟨cls.tagField, .str, some (.strEnum cls.tag)⟩

/-- `confirmation_state`. -/
def confirmationState : FieldSpec ν :=
  ⟨"confirmation_state", .strEnum ["confirmed", "rejected", "awaiting_confirmation"],
    some (.strEnum "confirmed")⟩

/-- `security_risk`. -/
def securityRisk : FieldSpec ν :=
  ⟨"security_risk", .opt (.intEnum [-1, 0, 1, 2]), some .none⟩

/-- The values of `FileReadSource`. -/
def fileReadSources : List String := ["oh_aci", "default"]

/-- The values of `FileEditSource`. -/
def fileEditSources : List String := ["llm_based_edit", "oh_aci"]

/-- The values of `RecallType`. -/
def recallTypes : List String := ["workspace_context", "knowledge"]

/-- A field `str | None` with the default `None`. -/
def optText (name : String) : FieldSpec ν := ⟨name, .opt .str, some .none⟩

/-- A field `int | None` with the default `None`. -/
def optInt (name : String) : FieldSpec ν := ⟨name, .opt .int, some .none⟩

/-- A field `bool`. -/
def flag (name : String) (default : Bool := false) : FieldSpec ν :=
  ⟨name, .bool, some (.bool default)⟩

/-- A field `dict[str, Any]` with an empty default. -/
def anyDict (name : String) : FieldSpec ν := ⟨name, .dict .any, some (.dict [])⟩

/-- The default of `CmdOutputMetadata`. -/
def defaultMetadata : PyObj ν :=
  .model [("exit_code", .int (-1)), ("pid", .int (-1)), ("username", .none), ("hostname", .none),
    ("working_dir", .none), ("py_interpreter_path", .none), ("prefix", .str ""),
    ("suffix", .str "")]

/-- **The fields of the classes**; `version` is `openhands.__version__`. -/
def fields (version : String) (cls : EventClass) : List (FieldSpec ν) :=
  match cls with
  | nullAction => [tagSpec cls]
  | cmdRunAction =>
    [⟨"command", .str, none⟩, flag "is_input", text "thought", flag "blocking", flag "is_static",
      optText "cwd", flag "hidden", tagSpec cls, confirmationState, securityRisk]
  | ipythonRunCellAction =>
    [⟨"code", .str, none⟩, text "thought", flag "include_extra" true, tagSpec cls,
      confirmationState, securityRisk, text "kernel_init_code"]
  | browseURLAction => [⟨"url", .str, none⟩, text "thought", tagSpec cls, securityRisk]
  | browseInteractiveAction =>
    [⟨"browser_actions", .str, none⟩, text "thought", text "browsergym_send_msg_to_user",
      tagSpec cls, securityRisk]
  | fileReadAction =>
    [⟨"path", .str, none⟩, ⟨"start", .int, some (.int 0)⟩, ⟨"end", .int, some (.int (-1))⟩,
      text "thought", tagSpec cls, securityRisk,
      ⟨"impl_source", .strEnum fileReadSources, some (.strEnum "default")⟩,
      ⟨"view_range", .opt (.list .int), some .none⟩]
  | fileWriteAction =>
    [⟨"path", .str, none⟩, ⟨"content", .str, none⟩, ⟨"start", .int, some (.int 0)⟩,
      ⟨"end", .int, some (.int (-1))⟩, text "thought", tagSpec cls, securityRisk]
  | fileEditAction =>
    [⟨"path", .str, none⟩, text "command", optText "file_text", optText "old_str",
      optText "new_str", optInt "insert_line", text "content", ⟨"start", .int, some (.int 1)⟩,
      ⟨"end", .int, some (.int (-1))⟩, text "thought", tagSpec cls, securityRisk,
      ⟨"impl_source", .strEnum fileEditSources, some (.strEnum "oh_aci")⟩]
  | agentThinkAction => [text "thought", tagSpec cls]
  | agentFinishAction =>
    [text "final_thought",
      ⟨"task_completed", .opt (.enum ["false", "partial", "true"]), some .none⟩,
      anyDict "outputs", text "thought", tagSpec cls]
  | agentRejectAction =>
    [⟨"outputs", .bareDict, some (.dict [])⟩, text "thought", tagSpec cls]
  | agentDelegateAction =>
    [⟨"agent", .str, none⟩, ⟨"inputs", .bareDict, none⟩, text "thought", tagSpec cls]
  | recallAction =>
    [⟨"recall_type", .strEnum recallTypes, none⟩, text "query", text "thought", tagSpec cls]
  | changeAgentStateAction => [⟨"agent_state", .str, none⟩, text "thought", tagSpec cls]
  | messageAction =>
    [⟨"content", .str, none⟩, ⟨"image_urls", .opt (.list .str), some .none⟩,
      flag "wait_for_response", tagSpec cls, securityRisk]
  | systemMessageAction =>
    [⟨"content", .str, none⟩, ⟨"tools", .opt (.list .any), some .none⟩,
      ⟨"openhands_version", .opt .str, some (.str version)⟩, optText "agent_class",
      ⟨"action", .strEnum actionTypes, some (.strEnum "system")⟩]
  | condensationAction =>
    [tagSpec cls, ⟨"forgotten_event_ids", .opt (.list .int), some .none⟩,
      optInt "forgotten_events_start_id", optInt "forgotten_events_end_id", optText "summary",
      optInt "summary_offset"]
  | mcpAction =>
    [⟨"name", .str, none⟩, anyDict "arguments", text "thought", tagSpec cls, securityRisk]
  | nullObservation | successObservation | userRejectObservation | agentCondensationObservation
  | agentThinkObservation => [⟨"content", .str, none⟩, tagSpec cls]
  | cmdOutputObservation =>
    [⟨"content", .str, none⟩, ⟨"command", .str, none⟩, tagSpec cls,
      ⟨"metadata", .metadata, some defaultMetadata⟩, flag "hidden"]
  | ipythonRunCellObservation =>
    [⟨"content", .str, none⟩, ⟨"code", .str, none⟩, tagSpec cls,
      ⟨"image_urls", .opt (.list .str), some .none⟩]
  | browserOutputObservation =>
    [⟨"content", .str, none⟩, ⟨"url", .str, none⟩, ⟨"trigger_by_action", .str, none⟩,
      text "screenshot", optText "screenshot_path", text "set_of_marks", flag "error", tagSpec cls,
      ⟨"goal_image_urls", .list .str, some (.list [])⟩,
      ⟨"open_pages_urls", .list .str, some (.list [])⟩,
      ⟨"active_page_index", .int, some (.int (-1))⟩, anyDict "dom_object", anyDict "axtree_object",
      anyDict "extra_element_properties", text "last_browser_action",
      text "last_browser_action_error", text "focused_element_bid"]
  | fileReadObservation =>
    [⟨"content", .str, none⟩, ⟨"path", .str, none⟩, tagSpec cls,
      ⟨"impl_source", .strEnum fileReadSources, some (.strEnum "default")⟩]
  | fileWriteObservation => [⟨"content", .str, none⟩, ⟨"path", .str, none⟩, tagSpec cls]
  | fileEditObservation =>
    [⟨"content", .str, none⟩, text "path", flag "prev_exist", optText "old_content",
      optText "new_content", tagSpec cls,
      ⟨"impl_source", .strEnum fileEditSources, some (.strEnum "llm_based_edit")⟩, optText "diff",
      optText "_diff_cache"]
  | agentDelegateObservation =>
    [⟨"content", .str, none⟩, ⟨"outputs", .bareDict, none⟩, tagSpec cls]
  | errorObservation => [⟨"content", .str, none⟩, tagSpec cls, text "error_id"]
  | agentStateChangedObservation =>
    [⟨"content", .str, none⟩, ⟨"agent_state", .str, none⟩, text "reason", tagSpec cls]
  | recallObservation =>
    [⟨"content", .str, none⟩, ⟨"recall_type", .strEnum recallTypes, none⟩, tagSpec cls,
      text "repo_name", text "repo_directory", text "repo_instructions",
      ⟨"runtime_hosts", .dict .int, some (.dict [])⟩, text "additional_agent_instructions",
      text "date", ⟨"custom_secrets_descriptions", .dict .str, some (.dict [])⟩,
      text "conversation_instructions",
      ⟨"microagent_knowledge", .list .knowledge, some (.list [])⟩]
  | mcpObservation =>
    [⟨"content", .str, none⟩, tagSpec cls, text "name", anyDict "arguments"]

end EventClass

/-! ## Events -/

/-- `EventSource`. -/
inductive EventSource where
  | agent
  | user
  | environment
  deriving DecidableEq

/-- An event: its class, its dataclass fields, and the attributes that are set on it. `τ` is
`ToolCallMetadata`. -/
structure Event (ν τ : Type) where
  cls : EventClass
  fields : List (String × PyObj ν)
  /-- `_id`. -/
  id : Option ℤ := none
  timestamp : Option String := none
  source : Option EventSource := none
  cause : Option ℤ := none
  timeout : Option ν := none
  toolCallMetadata : Option τ := none

/-- The value of a field. -/
def Event.field? (e : Event ν τ) (name : String) : Option (PyObj ν) := e.fields.lookup name

/-- The value is not `None`. -/
def PyObj.isSet : PyObj ν → Bool
  | .none => false
  | _ => true

/-- A field that is there and not `None`. -/
def isSetField (fields : List (String × PyObj ν)) (name : String) : Bool :=
  (fields.lookup name).any PyObj.isSet

/-- `_validate_field_polymorphism` of `CondensationAction`. -/
def validateFieldPolymorphism (fields : List (String × PyObj ν)) : Bool :=
  let usingEventIds := isSetField fields "forgotten_event_ids"
  let usingEventRange := isSetField fields "forgotten_events_start_id" &&
    isSetField fields "forgotten_events_end_id"
  (usingEventIds ^^ usingEventRange) &&
    (isSetField fields "summary" == isSetField fields "summary_offset")

/-- **The fields hold values of their declared types**, and a condensation is one that
`__post_init__` accepts. -/
def Event.WellTyped (version : String) (e : Event ν τ) : Prop :=
  List.Forall₂ (fun (f : FieldSpec ν) a => a.1 = f.name ∧ f.type.hasType a.2 = true)
      (e.cls.fields version) e.fields ∧
    (e.cls = .condensationAction → validateFieldPolymorphism e.fields = true)

end ProRLAgent.Serialization
