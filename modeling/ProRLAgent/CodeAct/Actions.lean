import ProRLAgent.FnCall.Loaded

set_option relaxedAutoImplicit false
set_option autoImplicit false

/-!
# Actions for the tool calls of a response

`response_to_actions` of `openhands/agenthub/codeact_agent/function_calling.py` reads the arguments
of each tool call with `json.loads` and makes one action of them. The controller turns two
exceptions into an observation for the agent: `FunctionCallValidationError` and
`FunctionCallNotExistsError`. Other exceptions end the run.

The arguments need not be an object. `in` works for texts and lists, too, and fails for numbers;
an index or `get` fails for all of them.

## Main definitions

* `ProRLAgent.CodeAct.toolAction` — the action of one call.
* `ProRLAgent.CodeAct.responseToActions` — the actions of a response.
-/

namespace ProRLAgent.CodeAct

open FnCall (Text Library LoadsError jsonLoads)
open Serialization (Json)

variable {ν : Type}

/-! ## Responses -/

/-- A tool call of a response. -/
structure Call where
  id : Text
  name : Text
  arguments : Text
  deriving DecidableEq

/-- A part of a content list. -/
inductive Part where
  | text (text : Text)
  | other
  deriving DecidableEq

/-- The content of a message. -/
inductive Content where
  | none
  | text (text : Text)
  | parts (parts : List Part)
  deriving DecidableEq

/-- A response with one choice. -/
structure Response where
  id : Text
  content : Content
  toolCalls : List Call
  deriving DecidableEq

/-- The texts of a content. -/
def Content.thought : Content → Text
  | .none => []
  | .text t => t
  | .parts ps => ps.flatMap fun part => match part with
    | .text t => t
    | .other => []

/-! ## The interpreter -/

/-- Why `float(value)` fails. -/
inductive FloatError where
  | valueError
  | typeError
  | overflowError
  deriving DecidableEq

/-- **The interpreter**: its numbers, the texts at which `json.loads` meets a limit, and what it
prints for sets and for content lists. -/
structure Interpreter (ν : Type) where
  library : Library ν
  exceeds : Text → Bool
  /-- `float` of a text, if that is a number. -/
  floatOfText : Text → Option ν
  /-- `float` of an integer, if that is not too large. -/
  floatOfInt : ℤ → Option ν
  floatOfBool : Bool → ν
  min : ν → ν → ν
  isZero : ν → Bool
  reprSet : List String → Text
  strParts : List Part → Text

section Interpreter

variable (I : Interpreter ν)

/-- `float(value)`. -/
def Interpreter.float : Json ν → Except FloatError ν
  | .float x => .ok x
  | .bool b => .ok (I.floatOfBool b)
  | .int n =>
    match I.floatOfInt n with
    | some x => .ok x
    | none => .error .overflowError
  | .str s =>
    match I.floatOfText s.toList with
    | some x => .ok x
    | none => .error .valueError
  | _ => .error .typeError

/-- `str(value)`. -/
def Interpreter.str : Json ν → Text
  | .str s => s.toList
  | value => FnCall.repr I.library value

/-- `bool(value)`. -/
def Interpreter.truthy : Json ν → Bool
  | .null => false
  | .bool b => b
  | .int n => n ≠ 0
  | .float x => !I.isZero x
  | .str s => s ≠ ""
  | .arr items => !items.isEmpty
  | .obj entries => !entries.isEmpty

end Interpreter

/-! ## Exceptions -/

/-- An exception. -/
inductive Raised where
  | functionCallValidation (message : Text)
  | functionCallNotExists (message : Text)
  | other (error : PyError)
  deriving DecidableEq

/-- **The declared exceptions**, which the controller turns into an observation. -/
def Raised.Declared : Raised → Prop
  | .functionCallValidation _ => True
  | .functionCallNotExists _ => True
  | .other _ => False

/-- `value == text`. -/
def equalsText (text : String) : Json ν → Bool
  | .str s => s = text
  | _ => false

/-- Only the text itself is equal to it. -/
lemma equalsText_iff {text : String} {value : Json ν} :
    equalsText text value = true ↔ value = .str text := by
  cases value <;> simp [equalsText]

/-- `key in value`. -/
def contains (key : String) : Json ν → Except Raised Bool
  | .obj entries => .ok (key ∈ entries.map Prod.fst)
  | .arr items => .ok (items.any (equalsText key))
  | .str s => .ok (key.toList <:+: s.toList)
  | _ => .error (.other (.typeError "argument is not iterable"))

/-- `value[key]`. -/
def index (key : String) : Json ν → Except Raised (Json ν)
  | .obj entries =>
    match entries.lookup key with
    | some value => .ok value
    | none => .error (.other (.keyError key))
  | _ => .error (.other (.typeError "indices must be integers"))

/-- `value.get(key, default)`. -/
def get (key : String) (default : Json ν) : Json ν → Except Raised (Json ν)
  | .obj entries => .ok ((entries.lookup key).getD default)
  | _ => .error (.other (.other "AttributeError: object has no attribute 'get'"))

/-- `value.items()`. -/
def items : Json ν → Except Raised (List (String × Json ν))
  | .obj entries => .ok entries
  | _ => .error (.other (.other "AttributeError: object has no attribute 'items'"))

/-! ## Actions -/

/-- The fields of a `FileEditAction`, with their defaults. -/
structure FileEdit (ν : Type) where
  path : Json ν
  command : Json ν := .str ""
  fileText : Json ν := .null
  oldStr : Json ν := .null
  newStr : Json ν := .null
  insertLine : Json ν := .null
  content : Json ν := .str ""
  start : Json ν := .int 1
  stop : Json ν := .int (-1)

/-- What an action does. -/
inductive Body (ν : Type) where
  | cmdRun (command : Json ν) (isInput blocking : Bool)
  | ipythonRunCell (code : Json ν)
  | agentDelegate (agent : Text) (inputs : Json ν)
  | agentFinish (finalThought taskCompleted : Json ν)
  | fileEdit (edit : FileEdit ν)
  | fileRead (path viewRange : Json ν)
  | agentThink
  | browseInteractive (browserActions : Json ν)
  | mcp (name : Text) (arguments : Json ν)
  | message (content : Text) (waitForResponse : Bool)

/-- An action without its metadata. -/
structure Plain (ν : Type) where
  body : Body ν
  thought : Json ν := .str ""
  timeout : Option ν := none

/-- `ToolCallMetadata`. -/
structure ToolCallMetadata where
  functionName : Text
  toolCallId : Text
  modelResponse : Response
  totalCallsInResponse : ℕ

/-- An action. -/
structure Action (ν : Type) where
  plain : Plain ν
  toolCallMetadata : ToolCallMetadata
  responseId : Text

/-- `combine_thought`. -/
def combineThought (I : Interpreter ν) (action : Plain ν) (thought : Text) : Plain ν :=
  if thought = [] then action
  else if I.truthy action.thought then
    { action with thought := .str (String.ofList (thought ++ '\n' :: I.str action.thought)) }
  else { action with thought := .str (String.ofList thought) }

/-! ## The tools -/

/-- The names of the tools. -/
def executeBash : Text := "execute_bash".toList

/-- `IPythonTool`. -/
def executeIpythonCell : Text := "execute_ipython_cell".toList

/-- The tool without a definition. -/
def delegateToBrowsingAgent : Text := "delegate_to_browsing_agent".toList

/-- `FinishTool`. -/
def finish : Text := "finish".toList

/-- `LLMBasedFileEditTool`. -/
def editFile : Text := "edit_file".toList

/-- `create_str_replace_editor_tool`. -/
def strReplaceEditor : Text := "str_replace_editor".toList

/-- `ThinkTool`. -/
def think : Text := "think".toList

/-- `BrowserTool`. -/
def browser : Text := "browser".toList

/-- The parameters of the editor. -/
def validParams : List String :=
  ["command", "path", "file_text", "old_str", "new_str", "insert_line", "view_range"]

/-- The checks `if key not in arguments` of a tool, one after the other. -/
def requireKeys (name : Text) (arguments : Json ν) : List String → Except Raised Unit
  | [] => .ok ()
  | key :: keys => do
    if ← contains key arguments then requireKeys name arguments keys
    else throw (.functionCallValidation ("Missing required argument \x22".toList ++ key.toList ++
      "\x22 in tool call ".toList ++ name))

section Tools

variable (I : Interpreter ν) (timeout : Option ν)

/-- The timeout of the caller. Zero counts as none. -/
def callerTimeout : Option ν := timeout.filter fun x => !I.isZero x

/-- The timeout of a command. -/
def commandTimeout (arguments : Json ν) : Except Raised (Option ν) := do
  if ← contains "timeout" arguments then
    let value ← index "timeout" arguments
    match I.float value with
    | .ok x =>
      match callerTimeout I timeout with
      | some limit => return some (I.min x limit)
      | none => return some x
    | .error .valueError =>
      throw (.functionCallValidation
        ("Invalid float passed to 'timeout' argument: ".toList ++ I.str value))
    | .error .typeError => throw (.other (.typeError "float() argument must be a number"))
    | .error .overflowError => throw (.other (.other "int too large to convert to float"))
  else return callerTimeout I timeout

/-- A call of the shell. -/
def bashAction (arguments : Json ν) : Except Raised (Plain ν) := do
  requireKeys executeBash arguments ["command"]
  let isInput ← get "is_input" (.str "false") arguments
  let command ← index "command" arguments
  let hardTimeout ← commandTimeout I timeout arguments
  return {
    body := .cmdRun command (equalsText "true" isInput) hardTimeout.isSome
    timeout := hardTimeout }

/-- A cell of Python. -/
def ipythonAction (arguments : Json ν) : Except Raised (Plain ν) := do
  requireKeys executeIpythonCell arguments ["code"]
  let code ← index "code" arguments
  return { body := .ipythonRunCell code, timeout := callerTimeout I timeout }

/-- The end of the task. -/
def finishAction (arguments : Json ν) : Except Raised (Plain ν) := do
  let finalThought ← get "message" (.str "") arguments
  let taskCompleted ← get "task_completed" .null arguments
  return { body := .agentFinish finalThought taskCompleted }

/-- A change to a file by a model. -/
def editFileAction (arguments : Json ν) : Except Raised (Plain ν) := do
  requireKeys editFile arguments ["path", "content"]
  let path ← index "path" arguments
  let content ← index "content" arguments
  let start ← get "start" (.int 1) arguments
  let stop ← get "end" (.int (-1)) arguments
  return { body := .fileEdit { path, content, start, stop } }

/-- The entries behind the command and the path. -/
def otherKwargs (entries : List (String × Json ν)) : List (String × Json ν) :=
  entries.filter fun e => e.1 ∉ ["command", "path"]

/-- The entries of a change. -/
def editKwargs (entries : List (String × Json ν)) : List (String × Json ν) :=
  (otherKwargs entries).filter fun e => e.1 ≠ "view_range"

/-- The first entry that the editor does not accept. -/
def unexpected (entries : List (String × Json ν)) : Option (String × Json ν) :=
  entries.find? fun e => e.1 ∉ validParams

/-- A view of a file, or a change to it. -/
def editorAction (arguments : Json ν) : Except Raised (Plain ν) := do
  requireKeys strReplaceEditor arguments ["command", "path"]
  let path ← index "path" arguments
  let command ← index "command" arguments
  let entries ← items arguments
  if equalsText "view" command then
    return { body := .fileRead path (((otherKwargs entries).lookup "view_range").getD .null) }
  else
    match unexpected (editKwargs entries) with
    | some e =>
      throw (.functionCallValidation ("Unexpected argument ".toList ++ e.1.toList ++
        " in tool call ".toList ++ strReplaceEditor ++ ". Allowed arguments are: ".toList ++
        I.reprSet validParams))
    | none =>
      let field (key : String) := ((editKwargs entries).lookup key).getD .null
      return { body := .fileEdit {
        path, command, fileText := field "file_text", oldStr := field "old_str",
        newStr := field "new_str", insertLine := field "insert_line" } }

/-- A thought. -/
def thinkAction (arguments : Json ν) : Except Raised (Plain ν) := do
  let thought ← get "thought" (.str "") arguments
  return { body := .agentThink, thought }

/-- An interaction with the browser. -/
def browserAction (arguments : Json ν) : Except Raised (Plain ν) := do
  requireKeys browser arguments ["code"]
  let code ← index "code" arguments
  return { body := .browseInteractive code }

variable (mcpToolNames : List Text)

/-- The action of a tool with its arguments. -/
def namedAction (name : Text) (arguments : Json ν) : Except Raised (Plain ν) :=
  if name = executeBash then bashAction I timeout arguments
  else if name = executeIpythonCell then ipythonAction I timeout arguments
  else if name = delegateToBrowsingAgent then
    .ok { body := .agentDelegate "BrowsingAgent".toList arguments }
  else if name = finish then finishAction arguments
  else if name = editFile then editFileAction arguments
  else if name = strReplaceEditor then editorAction I arguments
  else if name = think then thinkAction arguments
  else if name = browser then browserAction arguments
  else if name ∈ mcpToolNames then .ok { body := .mcp name arguments }
  else .error (.functionCallNotExists ("Tool ".toList ++ name ++
    " is not registered. (arguments: ".toList ++ I.str arguments ++
    "). Please check the tool name and retry with an existing tool.".toList))

/-- **The action of a call.** -/
def toolAction (call : Call) : Except Raised (Plain ν) :=
  match jsonLoads I.library I.exceeds call.arguments with
  | .ok arguments => namedAction I timeout mcpToolNames call.name arguments
  | .error .decode =>
    .error (.functionCallValidation ("Failed to parse tool call arguments: ".toList ++
      call.arguments))
  | .error .limit => .error (.other (.other "json.loads"))

/-- An action with its metadata. The first one carries the content, too. -/
def withMetadata (response : Response) (call : Call) (i : ℕ) (action : Plain ν) : Action ν where
  plain := if i = 0 then combineThought I action response.content.thought else action
  toolCallMetadata := {
    functionName := call.name
    toolCallId := call.id
    modelResponse := response
    totalCallsInResponse := response.toolCalls.length }
  responseId := response.id

/-- `str(content) if content else ''`. -/
def contentText : Content → Text
  | .none => []
  | .text t => t
  | .parts ps => if ps = [] then [] else I.strParts ps

/-- The message of a response without tool calls. -/
def messageAction (response : Response) : Action ν where
  plain := { body := .message (contentText I response.content) true }
  toolCallMetadata := {
    functionName := []
    toolCallId := []
    modelResponse := response
    totalCallsInResponse := 0 }
  responseId := response.id

/-- The actions of the calls from number `i` on. -/
def actionsFrom (response : Response) (i : ℕ) : List Call → Except Raised (List (Action ν))
  | [] => .ok []
  | call :: calls => do
    let action ← toolAction I timeout mcpToolNames call
    let actions ← actionsFrom response (i + 1) calls
    return withMetadata I response call i action :: actions

/-- **`response_to_actions`.** -/
def responseToActions (response : Response) : Except Raised (List (Action ν)) :=
  if response.toolCalls = [] then .ok [messageAction I response]
  else actionsFrom I timeout mcpToolNames response 0 response.toolCalls

end Tools

end ProRLAgent.CodeAct
