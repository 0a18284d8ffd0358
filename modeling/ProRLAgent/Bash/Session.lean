import ProRLAgent.Bash.Incremental
import ProRLAgent.Bash.Splitting

set_option relaxedAutoImplicit false
set_option autoImplicit false

/-!
# A bash session

`EfficientBashSession` of `openhands/runtime/utils/efficient_bash.py` as a machine. A reader appends
what arrives to the buffer, and looks for a prompt if a command is in progress. `execute` sends a
command, an input or a key, or nothing for an empty command, and waits for the prompt, a timeout or
the end of a grace period. Wherever it waits, more output can arrive.

Time is not modelled: a wait can end with a timeout whenever the action has one.

## Main definitions

* `ProRLAgent.Bash.Session` — the fields of a session.
* `ProRLAgent.Bash.execute` — what happens up to the first wait.
* `ProRLAgent.Bash.step` — the machine.
-/

namespace ProRLAgent.Bash

open FnCall (Text)
open Markers PyText

variable {ν : Type}

/-! ## Data -/

/-- `BashCommandStatus`. -/
inductive BashCommandStatus where
  | continue
  | completed
  | noChangeTimeout
  | hardTimeout
  deriving DecidableEq

/-- The status of `_create_metadata`. -/
inductive Status where
  | completed
  | hardTimeout
  | noChangeTimeout
  | running
  | interrupt
  deriving DecidableEq

/-- `CmdRunAction`. -/
structure CmdRunAction (ν : Type) where
  command : Text
  isInput : Bool := false
  blocking : Bool := false
  timeout : Option ν := none

/-- What `execute` returns. -/
inductive Observation where
  | cmdOutput (content command : Text) (metadata : CmdOutputMetadata)
  | error (content : Text)

/-- **What the session has from outside**: the interpreter, `bashlex.parse`, the capital letters, the
texts of exceptions, and the timeout without changes. -/
structure Shell (ν : Type) where
  interpreter : Interpreter ν
  parse : Text → Except BashlexError (List Node)
  upper : Char → Text
  message : PyError → Text
  noChangeTimeoutSeconds : ℕ

/-- **`EfficientBashSession`**, once it is initialized. -/
structure Session (ν : Type) where
  outputBuffer : Text := []
  commandInProgress : Bool := false
  currentCommand : Text := []
  prevStatus : Option BashCommandStatus := none
  lastOutputPosition : ℕ := 0
  lastTimeoutValue : Option ν := none
  outputReady : Bool := false
  completionExitCode : Option ℤ := none
  completionDetected : Bool := false
  usingWrapper : Bool := false
  cwd : String := ""

/-- The working directory of a prompt, unless it is empty. -/
def Session.changeDir (s : Session ν) (metadata : CmdOutputMetadata) : Session ν :=
  match metadata.workingDir with
  | some dir => if dir ≠ "" ∧ dir ≠ s.cwd then { s with cwd := dir } else s
  | none => s

/-- `_is_special_key`. -/
def isSpecialKey (command : Text) : Bool :=
  "C-".toList.isPrefixOf (strip command) && (strip command).length = 3

/-! ## Texts -/

/-- How a report of completion begins. -/
def completedWords : Text := "\n[The command completed with exit code ".toList

/-- How the refusal of a command begins. -/
def refusedWords : Text := "\n[Your command \"".toList

/-- How the other reports begin. -/
def timeoutWords : Text := "\n[The command timed out after ".toList

@[inherit_doc timeoutWords]
def noChangeWords : Text := "\n[The command has no new output after ".toList

@[inherit_doc timeoutWords]
def interruptWords : Text := "\n[The interrupt signal ".toList

/-- The report on a command that is running. -/
def runningText : Text :=
  ("\n[Command is still running. Send empty command ''' to get more output, " ++
    "or send C-c/C-z to interrupt.]").toList

/-- What can be done with a command that is running. -/
def waitHint : Text :=
  ("You may wait longer to see additional output by sending empty command '', " ++
    "send other commands to interact with the current process, " ++
    "or send keys to interrupt/kill the command.]").toList

/-- The report on a key that ended the command. -/
def keySuffix (cfg : Shell ν) (exitCode : ℤ) (key : Text) : Text :=
  completedWords ++ (str exitCode ++ (". CTRL+".toList ++
    (((key.getLast?.map cfg.upper).getD []) ++ " was sent.]".toList)))

/-- The report on a key that ended nothing. -/
def interruptSuffix (key : Text) : Text :=
  interruptWords ++ (key ++ " was sent but command may still be running.]".toList)

/-- The suffix of a status. -/
def statusSuffix (cfg : Shell ν) (command : Text) (exitCode : ℤ) (timeoutValue : Option ν)
    (specialKey : Bool) : Status → Text
  | .completed =>
    if specialKey then keySuffix cfg exitCode command
    else completedWords ++ (str exitCode ++ ".]".toList)
  | .hardTimeout =>
    let timeoutDisplay := match timeoutValue with
      | some value => cfg.interpreter.library.reprFloat value ++ " seconds".toList
      | none => "the specified timeout".toList
    timeoutWords ++ (timeoutDisplay ++ (". ".toList ++ waitHint))
  | .noChangeTimeout =>
    noChangeWords ++ (str cfg.noChangeTimeoutSeconds ++ (" seconds. ".toList ++ waitHint))
  | .running => runningText
  | .interrupt => interruptSuffix command

/-- The prefix of the output that comes later. -/
def laterNote : Text := "[Below is the output of the previous command.]\n".toList

/-- The prefix of truncated output. -/
def truncatedNote (isIncremental : Bool) : Text :=
  "Previous command outputs are truncated".toList ++
    if isIncremental then '\n' :: laterNote else []

/-- The suffix of a command that is refused. -/
def refusedSuffix (command : Text) : Text :=
  refusedWords ++ (command ++ (("\" is NOT executed. " ++
    "The previous command is still running - You CANNOT send new commands until the previous " ++
    "command is completed. By setting `is_input` to `true`, you can interact with the current " ++
    "process: You may wait longer to see additional output of the previous command by sending " ++
    "empty command '', send other commands to interact with the current process, " ++
    "or send keys (\"C-c\", \"C-z\", \"C-d\") to interrupt/kill the previous command before " ++
    "sending your new command.]").toList))

/-! ## Parts of the methods -/

section Methods

variable (cfg : Shell ν)

/-- **`_is_command_complete`.** -/
def isCommandComplete (s : Session ν) : Bool × Session ν :=
  if !s.commandInProgress then (true, s)
  else if s.completionDetected then (true, s)
  else
    match lastPrompt cfg.interpreter s.outputBuffer with
    | some metadata =>
      (true, { s with completionExitCode := some metadata.exitCode, completionDetected := true })
    | none => (false, s)

/-- `_parse_ps1_metadata`. -/
def parsePs1Metadata (buffer : Text) : Except PyError CmdOutputMetadata := do
  let ps1Matches ← matchesPs1Metadata cfg.interpreter buffer
  match ps1Matches.getLast? with
  | some last => fromPs1Match cfg.interpreter last
  | none => return {}

/-- The exit code of `_create_metadata`. -/
def metadataExitCode (exitCode : Option ℤ) (status : Status) (parsed : ℤ) : ℤ :=
  match exitCode with
  | some code => code
  | none =>
    if status = .hardTimeout ∨ status = .noChangeTimeout ∨ status = .running then -1 else parsed

/-- **`_create_metadata`.** -/
def createMetadata (s : Session ν) (command : Text) (status : Status) (exitCode : Option ℤ)
    (timeoutValue : Option ν) (wasTruncated isIncremental specialKey : Bool) :
    Except PyError CmdOutputMetadata := do
  let metadata ← parsePs1Metadata cfg s.outputBuffer
  let exitCode := metadataExitCode exitCode status metadata.exitCode
  let prefixText := if wasTruncated then String.ofList (truncatedNote isIncremental)
    else if isIncremental then String.ofList laterNote
    else metadata.prefixText
  let suffixText := String.ofList
    (statusSuffix cfg command exitCode timeoutValue specialKey status)
  return { metadata with exitCode, prefixText, suffixText }

/-- **`_handle_completed_command`.** -/
def handleCompletedCommand (s : Session ν) (command : Text) :
    Session ν × Except PyError Observation :=
  let s := { s with commandInProgress := false, prevStatus := some .completed }
  let exitCode := s.completionExitCode.getD (-1)
  let (content, wasTruncated) := commandOutput s.usingWrapper s.outputBuffer command
  match createMetadata cfg s command .completed (some exitCode) none wasTruncated false
      (isSpecialKey command) with
  | .error e => (s, .error e)
  | .ok metadata =>
    let s := if exitCode = 0 then s.changeDir metadata else s
    ({ s with completionExitCode := none, completionDetected := false, usingWrapper := false },
      .ok (.cmdOutput content command metadata))

/-- **`_handle_timeout_command`.** -/
def handleTimeoutCommand (s : Session ν) (command : Text) (noChange : Bool)
    (timeoutValue : Option ν) : Session ν × Except PyError Observation :=
  let s := { s with
    lastTimeoutValue := timeoutValue
    prevStatus := some (if noChange then .noChangeTimeout else .hardTimeout) }
  let (content, wasTruncated) := commandOutput s.usingWrapper s.outputBuffer command
  match createMetadata cfg s command (if noChange then .noChangeTimeout else .hardTimeout) none
      timeoutValue wasTruncated false false with
  | .error e => (s, .error e)
  | .ok metadata =>
    ({ s.changeDir metadata with lastOutputPosition := s.outputBuffer.length },
      .ok (.cmdOutput content command metadata))

/-- The output since the last read, and whether it is truncated. -/
def outputSince (s : Session ν) (ps1Matches : List (Found Char)) : Except PyError (Text × Bool) := do
  let content ← if s.lastOutputPosition < s.outputBuffer.length then
      extractOutputContent cfg.interpreter s.outputBuffer ps1Matches s.lastOutputPosition
    else .ok []
  return processOutput content [] true

/-- The exit code of the last prompt, or `-1`. -/
def lastExitCode (ps1Matches : List (Found Char)) : Except PyError ℤ :=
  match ps1Matches.getLast? with
  | some last => (fromPs1Match cfg.interpreter last).map (·.exitCode)
  | none => .ok (-1)

/-- What an empty command returns when the command is complete: the exit code of the last prompt and
the observation. -/
def completedSince (s : Session ν) (ps1Matches : List (Found Char)) :
    Except PyError (ℤ × Text × CmdOutputMetadata) := do
  let (content, wasTruncated) ← outputSince cfg s ps1Matches
  let exitCode ← lastExitCode cfg ps1Matches
  let metadata ← createMetadata cfg s [] .completed (some exitCode) none wasTruncated true false
  return (exitCode, content, metadata)

/-- The status of a command that is still running, and the timeout it shows. -/
def runningStatus (s : Session ν) (hardTimeoutReached : Bool) : Status × Option ν :=
  if s.prevStatus = some .hardTimeout ∨ hardTimeoutReached then (.hardTimeout, s.lastTimeoutValue)
  else if s.prevStatus = some .noChangeTimeout then (.noChangeTimeout, none)
  else (.running, none)

/-- An empty command when the command is complete. -/
def completeIncremental (s : Session ν) (ps1Matches : List (Found Char)) :
    Session ν × Except PyError Observation :=
  let s := { s with commandInProgress := false, prevStatus := some .completed }
  match completedSince cfg s ps1Matches with
  | .error e => (s, .error e)
  | .ok (exitCode, content, metadata) =>
    let s := if exitCode = 0 then s.changeDir metadata else s
    ({ s with lastOutputPosition := 0 }, .ok (.cmdOutput content [] metadata))

/-- An empty command while the command is running. -/
def continueIncremental (s : Session ν) (ps1Matches : List (Found Char))
    (hardTimeoutReached : Bool) : Session ν × Except PyError Observation :=
  match outputSince cfg s ps1Matches with
  | .error e => (s, .error e)
  | .ok (content, wasTruncated) =>
    let s := { s with lastOutputPosition := max s.lastOutputPosition s.outputBuffer.length }
    let (status, timeoutValue) := runningStatus s hardTimeoutReached
    (s, do
      let metadata ← createMetadata cfg s [] status none timeoutValue wasTruncated true false
      return .cmdOutput content [] metadata)

/-- **`_get_incremental_output`** behind its wait. -/
def getIncrementalOutput (s : Session ν) (completed hardTimeoutReached : Bool) :
    Session ν × Except PyError Observation :=
  match matchesPs1Metadata cfg.interpreter s.outputBuffer with
  | .error e => (s, .error e)
  | .ok ps1Matches =>
    let (complete, s) := if completed then (true, s) else isCommandComplete cfg s
    if complete then completeIncremental cfg s ps1Matches
    else continueIncremental cfg s ps1Matches hardTimeoutReached

/-- **`_get_current_output`** behind its wait. -/
def getCurrentOutput (s : Session ν) (command : Text) : Except PyError Observation := do
  let ps1Matches ← matchesPs1Metadata cfg.interpreter s.outputBuffer
  let content := match ps1Matches.getLast? with
    | some last => s.outputBuffer.drop (last.stop + 1)
    | none => s.outputBuffer
  let status : Status := if s.commandInProgress then .running else .completed
  let metadata ← createMetadata cfg s command status none none false false false
  return .cmdOutput (processOutput content [] false).1 command metadata

/-- What a key returns when the command is complete. -/
def interruptedOutput (s : Session ν) (key : Text) (ps1Matches : List (Found Char))
    (last : Found Char) : Except PyError Observation := do
  let metadata ← fromPs1Match cfg.interpreter last
  let content ← extractOutputContent cfg.interpreter s.outputBuffer ps1Matches 0
  return .cmdOutput (processOutput content [] false).1 key
    { metadata with suffixText := String.ofList (keySuffix cfg metadata.exitCode key) }

end Methods

/-! ## The machine -/

/-- **Where `execute` waits.** -/
inductive Phase (ν : Type) where
  | idle
  /-- In `_wait_for_completion`, with the output that the wait saw last. -/
  | completion (command : Text) (timeout : Option ν) (blocking : Bool) (lastOutput : Text)
  /-- In `_get_incremental_output`. -/
  | incremental (timeout : Option ν)
  /-- In `_send_input`. -/
  | input (text : Text)
  /-- In `_wait_for_interrupt_completion`. -/
  | interrupt (key : Text)
  /-- In `_get_current_output`. -/
  | currentOutput (text : Text)

/-- A session, where it waits, and what `execute` returned in the last step. -/
structure State (ν : Type) where
  session : Session ν
  phase : Phase ν
  result : Option (Except PyError Observation)

/-- The process when `execute` is called. -/
inductive Pty where
  | alive
  | dead
  /-- It dies before the command is sent. -/
  | dies
  /-- It cannot be written to. -/
  | unwritable (message : Text)

/-- How a round of `_wait_for_event_with_timeout` goes on. -/
inductive Tick where
  /-- `should_continue` is false. -/
  | stop
  | hardTimeout
  | noChange
  | check
  deriving DecidableEq

/-- What `_wait_for_event_with_timeout` returns. -/
inductive Waited where
  | completed
  | hardTimeout
  | noChange
  | interrupted

/-- **The steps**: a call, output that arrives, and what a wait sees. -/
inductive Label (ν : Type) where
  | execute (action : CmdRunAction ν) (pty : Pty) (tick : Tick)
  | output (chunk : Text)
  /-- A round of `_wait_for_event_with_timeout`, with or without an output event. -/
  | wake (event : Bool) (tick : Tick)
  /-- An output event in the other waits. -/
  | event
  /-- The end of the other waits. -/
  | deadline

/-- The end of a call. -/
def State.done (r : Session ν × Except PyError Observation) : State ν := ⟨r.1, .idle, some r.2⟩

/-- An exception that is returned as an observation. -/
def caught (cfg : Shell ν) (text : Text) : Except PyError Observation → Except PyError Observation
  | .ok observation => .ok observation
  | .error e => .ok (.error (text ++ cfg.message e))

section Step

variable (cfg : Shell ν)

/-- A round of `_wait_for_event_with_timeout`: what it returns, or nothing if it goes on. -/
def poll (canNoChange : Bool) (timeout : Option ν) (s : Session ν) :
    Tick → Option (Session ν × Option Waited)
  | .stop => some (s, some .interrupted)
  | .hardTimeout =>
    if timeout.any fun t => !cfg.interpreter.library.eqInt t 0 then some (s, some .hardTimeout)
    else none
  | .noChange => if canNoChange then some (s, some .noChange) else none
  | .check =>
    match isCommandComplete cfg s with
    | (true, s) => some (s, some .completed)
    | (false, s) => some (s, none)

/-- What follows a round. -/
def afterPoll (finish : Session ν → Waited → Session ν × Except PyError Observation)
    (phase : Phase ν) : Session ν × Option Waited → State ν
  | (s, some waited) => .done (finish s waited)
  | (s, none) => ⟨s, phase, none⟩

/-- An exception in `_wait_for_completion` ends the command. -/
def completionCaught :
    Session ν × Except PyError Observation → Session ν × Except PyError Observation
  | (s, .ok observation) => (s, .ok observation)
  | (s, .error e) => ({ s with commandInProgress := false },
      .ok (.error ("Error during command execution: ".toList ++ cfg.message e)))

/-- **`_wait_for_completion`** behind its wait. -/
def waitForCompletion (command : Text) (timeout : Option ν) (s : Session ν) :
    Waited → Session ν × Except PyError Observation
  | .completed => completionCaught cfg (handleCompletedCommand cfg s command)
  | .hardTimeout => completionCaught cfg (handleTimeoutCommand cfg s command false timeout)
  | .noChange => completionCaught cfg (handleTimeoutCommand cfg s command true none)
  | .interrupted =>
    ({ s with commandInProgress := false }, .ok (.error "Command execution interrupted".toList))

/-- `_get_incremental_output` behind its wait. -/
def afterIncremental (s : Session ν) (waited : Waited) : Session ν × Except PyError Observation :=
  match waited with
  | .completed => getIncrementalOutput cfg s true false
  | .hardTimeout => getIncrementalOutput cfg s false true
  | _ => getIncrementalOutput cfg s false false

/-- The keys that are sent as control codes. -/
def interruptKeys : List Text := ["C-c".toList, "C-z".toList, "C-d".toList]

/-- `_send_input` up to its wait. -/
def sendInput (s : Session ν) (inputText : Text) (pty : Pty) : State ν :=
  match pty with
  | .unwritable message => .done (s, .ok (.error ("Error sending input: ".toList ++ message)))
  | _ =>
    if inputText ∈ interruptKeys then ⟨s, .interrupt inputText, none⟩
    else ⟨s, .input inputText, none⟩

/-- **Whether the previous command is still running.** -/
def commandStillRunning (s : Session ν) : Bool × Session ν :=
  let (complete, s) :=
    if s.prevStatus = some .hardTimeout ∨ s.prevStatus = some .noChangeTimeout then
      isCommandComplete cfg s
    else (true, s)
  (!complete || s.commandInProgress, s)

/-- The answer to a command that is refused. -/
def refuse (s : Session ν) (command : Text) : Observation :=
  let (content, wasTruncated) :=
    if s.lastOutputPosition < s.outputBuffer.length then
      truncateOutputIfNeeded (strip (lineFeeds (s.outputBuffer.drop s.lastOutputPosition)))
    else ([], false)
  .cmdOutput content command
    { exitCode := -1
      prefixText := String.ofList (if wasTruncated then truncatedNote true else laterNote)
      suffixText := String.ofList (refusedSuffix command) }

/-- An observation with a text and no metadata. -/
def plain (content command : Text) : Except PyError Observation :=
  .ok (.cmdOutput content command {})

/-- The session when a new command is prepared. -/
def prepared (s : Session ν) (command : Text) : Session ν :=
  { s with
    commandInProgress := true
    currentCommand := command
    outputReady := false
    outputBuffer := []
    lastOutputPosition := 0 }

/-- The session when a command is written. The wrapper of a command that is no key resets what was
detected. -/
def written (s : Session ν) (command : Text) : Session ν :=
  if isSpecialKey command then s
  else { s with completionExitCode := none, completionDetected := false, usingWrapper := true }

/-- An exception in `_execute_new_command` before its wait. -/
def executeFailed (s : Session ν) (message : Text) : State ν :=
  .done ({ s with commandInProgress := false },
    .ok (.error ("Error executing command: ".toList ++ message)))

/-- **`_execute_new_command`** up to its wait. -/
def executeNewCommand (s : Session ν) (command : Text) (action : CmdRunAction ν) (pty : Pty)
    (tick : Tick) : Option (State ν) :=
  let (complete, s) := if s.commandInProgress then isCommandComplete cfg s else (true, s)
  if s.commandInProgress && !complete then
    some (.done (s, plain
      ("ERROR: Previous command is still running. Cannot execute new command \"".toList ++
        (command ++ "\". Use is_input=true to interact with the running process.".toList)) command))
  else
    let s := prepared s command
    match pty with
    | .dead | .dies => some (executeFailed s "PTY process is not available or has died".toList)
    | .unwritable message => some (executeFailed (written s command) message)
    | .alive => (poll cfg false action.timeout (written s command) tick).map
        (afterPoll (waitForCompletion cfg command action.timeout)
          (.completion command action.timeout action.blocking []))

/-- The numbered commands of an error. -/
def numbered (commands : List Text) : Text :=
  joinLines (commands.mapIdx fun i command =>
    '(' :: (str (i + 1 : ℕ) ++ (") ".toList ++ command)))

/-- `execute` of a process that is alive. -/
def executeAlive (s : Session ν) (action : CmdRunAction ν) (pty : Pty) (tick : Tick) :
    Option (State ν) :=
  let command := strip action.command
  if command = [] then
    if s.commandInProgress then
      (poll cfg false action.timeout s tick).map
        (afterPoll (afterIncremental cfg) (.incremental action.timeout))
    else some (.done (s, plain
      "ERROR: No previous running command to retrieve logs from.".toList []))
  else if action.isInput then
    if s.commandInProgress then some (sendInput s command pty)
    else some (.done (s, plain
      "ERROR: No previous running command to interact with.".toList []))
  else
    match splitBashCommands cfg.parse command with
    | .error _ => some (.done (s, .error (.other "bashlex")))
    | .ok splitCommands =>
      if 1 < splitCommands.length then
        some (.done (s, .ok (.error
          (("ERROR: Cannot execute multiple commands at once.\n" ++
            "Please run each command separately OR chain them into a single command via && " ++
            "or ;\nProvided commands:\n").toList ++ numbered splitCommands))))
      else
        let (running, s) := commandStillRunning cfg s
        if running then some (.done (s, .ok (refuse s command)))
        else executeNewCommand cfg s command action pty tick

/-- **`execute`** up to its wait. -/
def execute (s : Session ν) (action : CmdRunAction ν) (pty : Pty) (tick : Tick) :
    Option (State ν) :=
  match pty with
  | .dead => some (.done (s, .ok (.error "Bash process has died".toList)))
  | _ => executeAlive cfg s action pty tick

/-- **The reader**: what arrives is appended, and a prompt is looked for. -/
def receive (s : Session ν) (chunk : Text) : Session ν :=
  (isCommandComplete cfg
    { s with outputBuffer := s.outputBuffer ++ chunk, outputReady := true }).2

/-- An output event in `_send_input`. -/
def inputEvent (s : Session ν) (text : Text) : State ν :=
  match matchesPs1Metadata cfg.interpreter s.outputBuffer with
  | .error e => .done (s, caught cfg "Error sending input: ".toList (.error e))
  | .ok [] => ⟨s, .input text, none⟩
  | .ok (_ :: _) =>
    let command := if s.currentCommand ≠ [] then s.currentCommand else text
    let (s, result) := handleCompletedCommand cfg { s with usingWrapper := false } command
    .done (s, caught cfg "Error sending input: ".toList result)

/-- An output event in `_wait_for_interrupt_completion`. -/
def interruptEvent (s : Session ν) (key : Text) : State ν :=
  match matchesPs1Metadata cfg.interpreter s.outputBuffer with
  | .error e => .done (s, caught cfg "Error sending input: ".toList (.error e))
  | .ok ps1Matches =>
    match ps1Matches.getLast? with
    | none => ⟨s, .interrupt key, none⟩
    | some last => .done ({ s with commandInProgress := false },
        caught cfg "Error sending input: ".toList (interruptedOutput cfg s key ps1Matches last))

/-- The end of `_wait_for_interrupt_completion` without a prompt. -/
def interruptDeadline (s : Session ν) (key : Text) : State ν :=
  .done ({ s with commandInProgress := false }, .ok (.cmdOutput (strip s.outputBuffer) key
    { suffixText := String.ofList (interruptSuffix key) }))

/-- The end of `_get_current_output`. -/
def currentOutputDone (s : Session ν) (text : Text) : State ν :=
  .done (s, caught cfg "Error sending input: ".toList (getCurrentOutput cfg s text))

/-- A wait takes an output event. -/
def takeEvent (event : Bool) (s : Session ν) : Option (Session ν) :=
  if !event then some s
  else if s.outputReady then some { s with outputReady := false }
  else none

/-- Whether a wait for completion can end without changes. -/
def canNoChange (blocking event : Bool) (lastOutput : Text) (s : Session ν) : Bool :=
  !blocking && cfg.noChangeTimeoutSeconds ≠ 0 && (!event || s.outputBuffer = lastOutput)

/-- **The machine.** -/
def step (st : State ν) : Label ν → Option (State ν)
  | .execute action pty tick =>
    match st.phase with
    | .idle => execute cfg st.session action pty tick
    | _ => none
  | .output chunk => some ⟨receive cfg st.session chunk, st.phase, none⟩
  | .wake event tick => do
    let s ← takeEvent event st.session
    match st.phase with
    | .completion command timeout blocking lastOutput =>
      let seen := if event then s.outputBuffer else lastOutput
      let round ← poll cfg (canNoChange cfg blocking event lastOutput s) timeout s tick
      return afterPoll (waitForCompletion cfg command timeout)
        (.completion command timeout blocking seen) round
    | .incremental timeout =>
      let round ← poll cfg false timeout s tick
      return afterPoll (afterIncremental cfg) (.incremental timeout) round
    | _ => none
  | .event => do
    let s ← takeEvent true st.session
    match st.phase with
    | .input text => return inputEvent cfg s text
    | .interrupt key => return interruptEvent cfg s key
    | .currentOutput text => return currentOutputDone cfg s text
    | _ => none
  | .deadline =>
    match st.phase with
    | .input text => some ⟨st.session, .currentOutput text, none⟩
    | .interrupt key => some (interruptDeadline st.session key)
    | .currentOutput text => some (currentOutputDone cfg st.session text)
    | _ => none

end Step

/-- A session that was just initialized. -/
def start (cwd : String) : State ν := ⟨{ cwd }, .idle, none⟩

/-! ## A shell -/

/-- A shell with whole numbers, where every text is one command. -/
def sampleShell : Shell Truncated where
  interpreter := wholeNumbers
  parse commands := .ok [.mk (.other "command") ⟨0, commands.length⟩ none []]
  upper c := [c.toUpper]
  message _ := []
  noChangeTimeoutSeconds := 30

/-- A prompt block with an exit code. -/
def samplePrompt (exitCode : ℤ) : Text :=
  promptBlock false ("\x7b\"exit_code\": ".toList ++ (str exitCode ++ "\x7d".toList))

end ProRLAgent.Bash
