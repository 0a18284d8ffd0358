import ProRLAgent.Events.Classes

set_option relaxedAutoImplicit false
set_option autoImplicit false

/-!
# Storing and loading events

`event_to_dict` puts the attributes of an event at the top of a dictionary and its dataclass fields
into `args` (of an action) or into `content` and `extras` (of an observation); `event_from_dict`
finds the class by `action` or `observation` and calls it with these. Both have special cases: an
unset security risk is left out, the metadata of a command and the knowledge of a recall are models
and dataclasses of their own, and arguments of older events are renamed or dropped.

`ToolCallMetadata` is a model of a library type; `ToolCalls` says what its dump and its constructor
do, with the round trip of the two. The texts of the messages are an argument, as nothing reads them
back, and so is `ast.literal_eval`. The metrics of an event are left out.

## Main definitions

* `Serialization.eventToDict` — `event_to_dict`.
* `Serialization.eventFromDict` — `event_from_dict`, on what the parser returns.
* `Serialization.RoundTrips` — the event is stored, and what is loaded is the event.
-/

namespace ProRLAgent.Serialization

variable {ν τ : Type}

/-- `ToolCallMetadata`: `model_dump` and the constructor. -/
structure ToolCalls (ν τ : Type) where
  dump : τ → PyObj ν
  load : Json ν → Except PyError τ
  /-- The metadata round-trips through `model_dump` and JSON. -/
  round : ∀ m, ∃ j, (dump m).toJson = .ok j ∧ load j = .ok m

/-- The value of a source. -/
def EventSource.value : EventSource → String
  | .agent => "agent"
  | .user => "user"
  | .environment => "environment"

/-- `EventSource(value)`. -/
def EventSource.ofJson : Json ν → Except PyError EventSource
  | .str "agent" => .ok .agent
  | .str "user" => .ok .user
  | .str "environment" => .ok .environment
  | _ => .error (.valueError "not a valid EventSource")

/-! ## Storing -/

/-- `TOP_KEYS`. -/
def topKeys : List String :=
  ["id", "timestamp", "source", "message", "cause", "action", "observation", "tool_call_metadata",
    "llm_metrics"]

/-- The value of the key `reason`. -/
def reason? (entries : List (DictKey × PyObj ν)) : Option (PyObj ν) :=
  (entries.find? fun e => e.1.text? = some "reason").map Prod.snd

/-- The truth value of an optional text. -/
def PyObj.isNonempty : PyObj ν → Bool
  | .str s | .strEnum s => s ≠ ""
  | _ => false

/-- The property `message`; `text` are the texts of the messages. A rejection appends its reason to
a text, and a condensation without a summary checks its configuration again. -/
def Event.message (text : Event ν τ → String) (e : Event ν τ) : Except PyError String :=
  match e.cls with
  | .agentRejectAction =>
    match e.field? "outputs" with
    | some (.dict entries) =>
      match reason? entries with
      | some reason =>
        if reason.isText then .ok (text e)
        else .error (.typeError "can only concatenate str to str")
      | none => .ok (text e)
    | _ => .ok (text e)
  | .condensationAction =>
    if (e.field? "summary").any PyObj.isNonempty || validateFieldPolymorphism e.fields then
      .ok (text e)
    else .error (.valueError "Invalid configuration of the optional fields.")
  | _ => .ok (text e)

/-- What `event_to_dict` puts under a key of `TOP_KEYS`, if anything. -/
def topValue (T : ToolCalls ν τ) (e : Event ν τ) (message key : String) : Option (PyObj ν) :=
  match key with
  | "id" => if e.id.getD (-1) = -1 then none else e.id.map .int
  | "timestamp" => e.timestamp.map .str
  | "source" => e.source.map fun s => .str s.value
  | "message" => some (.str message)
  | "cause" => e.cause.map .int
  | "action" => (e.field? "action").filter PyObj.isSet
  | "observation" => (e.field? "observation").filter PyObj.isSet
  | "tool_call_metadata" => e.toolCallMetadata.map T.dump
  | _ => none

/-- The entries of a dictionary whose keys are texts. -/
def toEntries (fields : List (String × PyObj ν)) : List (DictKey × PyObj ν) :=
  fields.map fun f => (.str f.1, f.2)

/-- `props` without a security risk that is `None`. -/
def dropUnsetRisk (props : List (String × PyObj ν)) : List (String × PyObj ν) :=
  match props.lookup "security_risk" with
  | some .none => props.filter fun f => f.1 ≠ "security_risk"
  | _ => props

/-- A field of an observation in `extras`: the value of an enumeration, the dump of a model. -/
def storedExtra : PyObj ν → PyObj ν
  | .strEnum s | .enum s => .str s
  | .intEnum n => .int n
  | .model fields => .dict (toEntries fields)
  | v => v

/-- The property `success`, where there is one. -/
def Event.success? (e : Event ν τ) : Option Bool :=
  match e.cls with
  | .ipythonRunCellObservation => some true
  | .cmdOutputObservation =>
    match e.field? "metadata" with
    | some (.model fields) =>
      match fields.lookup "exit_code" with
      | some (.int 0) => some true
      | _ => some false
    | _ => some false
  | _ => none

/-- **`event_to_dict`**. -/
def eventToDict (T : ToolCalls ν τ) (text : Event ν τ → String) (e : Event ν τ) :
    Except PyError (List (String × PyObj ν)) := do
  let message ← e.message text
  let d := topKeys.filterMap fun key => (topValue T e message key).map fun v => (key, v)
  let props := (e.fields.map fun f => (f.1, f.2.asdict)).filter fun f => f.1 ∉ topKeys
  let props := dropUnsetRisk props
  if (d.lookup "action").isSome then
    return d ++ ([("args", .dict (toEntries props))] ++
      (e.timeout.map fun x => ("timeout", .float x)).toList)
  else if (d.lookup "observation").isSome then
    let content := (props.lookup "content").getD (.str "")
    let extras := (props.filter fun f => f.1 ≠ "content").map fun f => (f.1, storedExtra f.2)
    return d ++ ([("content", content), ("extras", .dict (toEntries extras))] ++
      (e.success?.map fun b => ("success", .bool b)).toList)
  else throw (.valueError "Event must be either action or observation.")

/-- `json.dumps` of the dictionary, as the parser reads it. -/
def dumps (d : List (String × PyObj ν)) : Except PyError (Json ν) :=
  (PyObj.dict (toEntries d)).toJson

/-! ## Loading -/

section Loading

variable (version : String)

/-- `pop` of a key from the arguments. -/
def popEntry {α : Type} (key : String) (entries : List (String × α)) : List (String × α) :=
  entries.filter fun e => e.1 ≠ key

/-- `handle_action_deprecated_args`; `literalEval` is `ast.literal_eval` of a dictionary. -/
def handleActionDeprecatedArgs (literalEval : String → Option (List (String × Json ν)))
    (args : List (String × Json ν)) : Except PyError (List (String × Json ν)) := do
  let args := popEntry "keep_prompt" args
  match args.lookup "translated_ipython_code" with
  | none => return args
  | some code =>
    let args := popEntry "translated_ipython_code" args
    let args ← match code with
      | .null => pure args
      | .str code =>
        let opening := "print(file_editor(**".toList
        let closing := "))".toList
        if opening.isPrefixOf code.toList && closing.isSuffixOf code.toList then
          let dict := (code.toList.drop opening.length).take
            (code.toList.length - opening.length - closing.length)
          match literalEval (String.ofList dict) with
          | some fileArgs => pure (fileArgs.foldl setEntry args)
          | none => pure args
        else pure args
      | _ => throw (.other "AttributeError: object has no attribute 'startswith'")
    match args.lookup "command" with
    | some (.str "view") => return popEntry "command" args
    | _ => return args

/-- The value of a field in a call with keyword arguments: the argument or else the default. -/
def fieldOf (args : List (String × PyObj ν)) (f : FieldSpec ν) :
    Except PyError (String × PyObj ν) :=
  match args.lookup f.name, f.default with
  | some v, _ => .ok (f.name, v)
  | none, some v => .ok (f.name, v)
  | none, none => .error (.typeError s!"missing a required argument: {f.name}")

/-- The call of a class with keyword arguments. -/
def construct (cls : EventClass) (args : List (String × PyObj ν)) :
    Except PyError (List (String × PyObj ν)) := do
  let specs : List (FieldSpec ν) := cls.fields version
  -- `CmdOutputObservation` takes any further arguments.
  if (args.any fun a => decide (a.1 ∉ specs.map FieldSpec.name)) && cls ≠ .cmdOutputObservation then
    throw (.typeError "got an unexpected keyword argument")
  let fields ← specs.mapM (fieldOf args)
  if cls = .condensationAction && !validateFieldPolymorphism fields then
    throw (.valueError "Invalid configuration of the optional fields.")
  return fields

/-- A `TypeError` of the class becomes a malformed action. -/
def malformed {α : Type} : Except PyError α → Except PyError α
  | .error (.typeError message) =>
    .error (.other s!"LLMMalformedActionError: wrong arguments: {message}")
  | r => r

/-- `set_hard_timeout` on an event with a field `blocking` sets it. -/
def setBlocking (blocking : PyObj ν) (fields : List (String × PyObj ν)) : List (String × PyObj ν) :=
  fields.map fun f => if f.1 = "blocking" then (f.1, blocking) else f

/-- **`action_from_dict`**. -/
def actionFromDict (literalEval : String → Option (List (String × Json ν)))
    (data : List (String × Json ν)) : Except PyError (Event ν τ) :=
  match data.lookup "action" with
  | some (.str tag) =>
    match EventClass.actions.find? fun cls => cls.tag = tag with
    | none => .error (.other "LLMMalformedActionError: action is not defined")
    | some cls => do
      let args ← match data.lookup "args" with
        | none => pure []
        | some (.obj args) => pure args
        | some _ => throw (.other "AttributeError: object has no attribute 'pop'")
      let timestamp := args.lookup "timestamp"
      let args := popEntry "timestamp" args
      let isConfirmed := args.lookup "is_confirmed"
      let args := popEntry "is_confirmed" args
      let args := match isConfirmed with
        | none | some .null => args
        | some v => setEntry args ("confirmation_state", v)
      let args := match args.lookup "images_urls" with
        | none => args
        | some v => setEntry (popEntry "images_urls" args) ("image_urls", v)
      let args ← handleActionDeprecatedArgs literalEval args
      let fields ← malformed (construct version cls (args.map fun a => (a.1, a.2.toPy)))
      let e : Event ν τ ← match data.lookup "timeout" with
        | none => pure { cls := cls, fields := fields }
        | some timeout =>
          let blocking := ((args.lookup "blocking").map Json.toPy).getD (.bool false)
          let fields := setBlocking blocking fields
          -- Only floating-point numbers are stored for a timeout.
          match timeout with
          | .float x => pure { cls := cls, fields := fields, timeout := some x }
          | .null => pure { cls := cls, fields := fields }
          | _ => throw (.typeError "timeout must be a float")
      match timestamp with
      | some (.str s) => return if s = "" then e else { e with timestamp := some s }
      | _ => return e
  | _ => .error (.other "LLMMalformedActionError: action is not defined")

/-- `_update_cmd_output_metadata` for the metadata of a stored event. -/
def updateCmdOutputMetadata (metadata : Option (Json ν)) (key : String) (v : Json ν) : Json ν :=
  match metadata with
  | none | some .null => .obj [(key, v)]
  | some (.obj entries) => .obj (setEntry entries (key, v))
  | some other => other

/-- `handle_observation_deprecated_extras`. -/
def handleObservationDeprecatedExtras (extras : List (String × Json ν)) : List (String × Json ν) :=
  let extras := match extras.lookup "exit_code" with
    | none => extras
    | some v => setEntry (popEntry "exit_code" extras)
        ("metadata", updateCmdOutputMetadata (extras.lookup "metadata") "exit_code" v)
  let extras := match extras.lookup "command_id" with
    | none => extras
    | some v => setEntry (popEntry "command_id" extras)
        ("metadata", updateCmdOutputMetadata (extras.lookup "metadata") "pid" v)
  popEntry "formatted_output_and_error" extras

/-- A number of a model. Only numbers are written for one. -/
def modelInt (entries : List (String × Json ν)) (key : String) (default : ℤ) :
    Except PyError (PyObj ν) :=
  match entries.lookup key with
  | none => .ok (.int default)
  | some (.int n) => .ok (.int n)
  | some _ => .error (.valueError s!"validation error: {key}")

/-- A text of a model. -/
def modelStr (entries : List (String × Json ν)) (key : String) : Except PyError (PyObj ν) :=
  match entries.lookup key with
  | none => .ok (.str "")
  | some (.str s) => .ok (.str s)
  | some _ => .error (.valueError s!"validation error: {key}")

/-- An optional text of a model. -/
def modelOptStr (entries : List (String × Json ν)) (key : String) : Except PyError (PyObj ν) :=
  match entries.lookup key with
  | none | some .null => .ok .none
  | some (.str s) => .ok (.str s)
  | some _ => .error (.valueError s!"validation error: {key}")

/-- `CmdOutputMetadata(**metadata)`. -/
def loadMetadata (entries : List (String × Json ν)) : Except PyError (PyObj ν) := do
  let exitCode ← modelInt entries "exit_code" (-1)
  let pid ← modelInt entries "pid" (-1)
  let username ← modelOptStr entries "username"
  let hostname ← modelOptStr entries "hostname"
  let workingDir ← modelOptStr entries "working_dir"
  let pyInterpreterPath ← modelOptStr entries "py_interpreter_path"
  let before ← modelStr entries "prefix"
  let suffix ← modelStr entries "suffix"
  return .model [("exit_code", exitCode), ("pid", pid), ("username", username),
    ("hostname", hostname), ("working_dir", workingDir),
    ("py_interpreter_path", pyInterpreterPath), ("prefix", before), ("suffix", suffix)]

/-- `MicroagentKnowledge(**item)` for a dictionary. -/
def loadKnowledge : Json ν → Except PyError (PyObj ν)
  | .obj entries =>
    match entries.lookup "name", entries.lookup "trigger", entries.lookup "content" with
    | some name, some trigger, some content =>
      if entries.all fun e => decide (e.1 ∈ ["name", "trigger", "content"]) then
        .ok (.record [("name", name.toPy), ("trigger", trigger.toPy), ("content", content.toPy)])
      else .error (.typeError "got an unexpected keyword argument")
    | _, _, _ => .error (.typeError "missing a required argument")
  | j => .ok j.toPy

/-- The conversion of an entry of `extras` for its class. -/
def convertExtra (cls : EventClass) (name : String) (j : Json ν) : Except PyError (PyObj ν) :=
  if cls = .cmdOutputObservation ∧ name = "metadata" then
    match j with
    | .obj entries => loadMetadata entries
    | _ => .ok EventClass.defaultMetadata
  else if cls = .recallObservation ∧ name = "recall_type" then
    match j with
    | .str s =>
      if s ∈ EventClass.recallTypes then .ok (.strEnum s)
      else .error (.valueError "not a valid RecallType")
    | _ => .error (.valueError "not a valid RecallType")
  else if cls = .recallObservation ∧ name = "microagent_knowledge" then
    match j with
    | .arr items => do return .list (← items.mapM loadKnowledge)
    | j => .ok j.toPy
  else .ok j.toPy

/-- **`observation_from_dict`**. -/
def observationFromDict (data : List (String × Json ν)) : Except PyError (Event ν τ) :=
  match data.lookup "observation" with
  | some (.str tag) =>
    match EventClass.observations.find? fun cls => cls.tag = tag with
    | none => .error (.keyError tag)
    | some cls => do
      let content := (data.lookup "content").getD (.str "")
      let extras ← match data.lookup "extras" with
        | none => pure []
        | some (.obj extras) => pure extras
        | some _ => throw (.typeError "extras must be a dictionary")
      let extras := handleObservationDeprecatedExtras extras
      let extras ← extras.mapM fun a => do return (a.1, ← convertExtra cls a.1 a.2)
      if (extras.lookup "content").isSome then
        throw (.typeError "got multiple values for keyword argument 'content'")
      let fields ← construct version cls (("content", content.toPy) :: extras)
      return { cls := cls, fields := fields }
  | _ => .error (.keyError "observation")

/-- `_id` or `_cause`: only numbers are stored for them. -/
def loadInt (data : List (String × Json ν)) (key : String) (old : Option ℤ) :
    Except PyError (Option ℤ) :=
  match data.lookup key with
  | none => .ok old
  | some (.int n) => .ok (some n)
  | some _ => .error (.typeError s!"{key} must be an int")

/-- `_timestamp`: the property `timestamp` is `None` for what is not a text. -/
def loadTimestamp (data : List (String × Json ν)) (old : Option String) : Option String :=
  match data.lookup "timestamp" with
  | none => old
  | some (.str s) => some s
  | some _ => none

/-- `_source`. -/
def loadSource (data : List (String × Json ν)) (old : Option EventSource) :
    Except PyError (Option EventSource) :=
  match data.lookup "source" with
  | none => .ok old
  | some j => (EventSource.ofJson j).map some

/-- `_tool_call_metadata`. -/
def loadToolCallMetadata (T : ToolCalls ν τ) (data : List (String × Json ν)) (old : Option τ) :
    Except PyError (Option τ) :=
  match data.lookup "tool_call_metadata" with
  | none => .ok old
  | some j => (T.load j).map some

/-- The attributes that `event_from_dict` sets, in the order of `UNDERSCORE_KEYS`. -/
def setAttributes (T : ToolCalls ν τ) (data : List (String × Json ν)) (e : Event ν τ) :
    Except PyError (Event ν τ) := do
  let id ← loadInt data "id" e.id
  let timestamp := loadTimestamp data e.timestamp
  let source ← loadSource data e.source
  let cause ← loadInt data "cause" e.cause
  let toolCallMetadata ← loadToolCallMetadata T data e.toolCallMetadata
  return { e with
    id := id
    timestamp := timestamp
    source := source
    cause := cause
    toolCallMetadata := toolCallMetadata }

/-- **`event_from_dict`**. -/
def eventFromDict (T : ToolCalls ν τ) (literalEval : String → Option (List (String × Json ν)))
    (j : Json ν) : Except PyError (Event ν τ) :=
  match j with
  | .obj data =>
    if (data.lookup "action").isSome then do
      setAttributes T data (← actionFromDict version literalEval data)
    else if (data.lookup "observation").isSome then do
      setAttributes T data (← observationFromDict version data)
    else .error (.valueError "Unknown event type")
  | _ => .error (.typeError "argument is not a dictionary")

end Loading

-- The equations of these functions are generated here, not in each proof that unfolds them.
section

attribute [local simp] Event.message topValue storedExtra popEntry convertExtra

end

/-! ## The round trip -/

/-- The same event, with enumerations by their values. -/
structure SameEvent (e e' : Event ν τ) : Prop where
  cls : e'.cls = e.cls
  fields : List.Forall₂ (fun a b => b.1 = a.1 ∧ b.2.byValue = a.2.byValue) e.fields e'.fields
  id : e'.id.getD (-1) = e.id.getD (-1)
  timestamp : e'.timestamp = e.timestamp
  source : e'.source = e.source
  cause : e'.cause = e.cause
  timeout : e'.timeout = e.timeout
  toolCallMetadata : e'.toolCallMetadata = e.toolCallMetadata

/-- **The event round-trips**: it is stored as JSON, and what is loaded is the same event. -/
def RoundTrips (version : String) (T : ToolCalls ν τ) (text : Event ν τ → String)
    (literalEval : String → Option (List (String × Json ν))) (e : Event ν τ) : Prop :=
  ∃ d j e', eventToDict T text e = .ok d ∧ dumps d = .ok j ∧
    eventFromDict version T literalEval j = .ok e' ∧ SameEvent e e'

end ProRLAgent.Serialization
