import Mathlib.Data.List.Dedup
import Mathlib.Data.List.Infix
import ProRLAgent.Basic
import ProRLAgent.Lib.Except
import ProRLAgent.Lib.PyText
import ProRLAgent.Lib.Slices
import ProRLAgent.Memory.View

set_option relaxedAutoImplicit false
set_option autoImplicit false

/-!
# The loop detectors

A controller asks a detector before each step whether the agent is stuck
(`openhands/controller/stuck.py`). The detectors look at the end of the history without the messages
of the user: the last actions and observations, the last messages of the agent, and, in the first
detector, the condensations. `StrictStuckDetector` has its own copies of most scenarios, with shorter
windows.

The scenarios of both are one definition each, with the length of the window. A scenario returns or
raises; that all of them return is part of what is shown.

Events are compared by their classes and fields, which `==` does as well; the source is no field. The
fields that no scenario reads are one value.

## Main definitions

* `ProRLAgent.Stuck.Event` — the events of a history.
* `ProRLAgent.Stuck.filteredHistory` — the part of a history that is looked at.
* `ProRLAgent.Stuck.isStuck` — the first detector.
* `ProRLAgent.Stuck.strictIsStuck` — the strict detector.
-/

namespace ProRLAgent.Stuck

open Memory (EventSource)
open PyText (strip)

/-! ## Events -/

/-- The classes of events that are told apart, with the fields that the scenarios read. The value of
type `φ` has the other fields, and the class where it is left open. -/
inductive Body (φ : Type) where
  | message (fields : φ)
  | think (fields : φ)
  | ipythonRunCell (code : List Char) (fields : φ)
  | nullAction (fields : φ)
  | otherAction (fields : φ)
  | cmdOutput (command : List Char) (exitCode : ℤ) (fields : φ)
  | ipythonRunCellObservation (content : List Char) (fields : φ)
  | error (fields : φ)
  | agentCondensation (fields : φ)
  | nullObservation (fields : φ)
  | otherObservation (fields : φ)
  /-- Neither an action nor an observation. -/
  | other (fields : φ)
  deriving DecidableEq, Repr

/-- An event of a history. -/
structure Event (φ : Type) where
  source : Option EventSource
  body : Body φ
  deriving DecidableEq, Repr

variable {φ : Type}

/-- `isinstance(event, Action)`. -/
def Event.isAction (event : Event φ) : Bool :=
  match event.body with
  | .message _ | .think _ | .ipythonRunCell .. | .nullAction _ | .otherAction _ => true
  | _ => false

/-- `isinstance(event, Observation)`. -/
def Event.isObservation (event : Event φ) : Bool :=
  match event.body with
  | .cmdOutput .. | .ipythonRunCellObservation .. | .error _ | .agentCondensation _
  | .nullObservation _ | .otherObservation _ => true
  | _ => false

/-- `isinstance(event, MessageAction)`. -/
def Event.isMessage (event : Event φ) : Bool :=
  match event.body with
  | .message _ => true
  | _ => false

/-- `isinstance(event, AgentThinkAction)`. -/
def Event.isThink (event : Event φ) : Bool :=
  match event.body with
  | .think _ => true
  | _ => false

/-- `isinstance(event, (NullAction, NullObservation))`. -/
def Event.isNull (event : Event φ) : Bool :=
  match event.body with
  | .nullAction _ | .nullObservation _ => true
  | _ => false

/-- `isinstance(event, ErrorObservation)`. -/
def Event.isError (event : Event φ) : Bool :=
  match event.body with
  | .error _ => true
  | _ => false

/-- `isinstance(event, AgentCondensationObservation)`. -/
def Event.isCondensation (event : Event φ) : Bool :=
  match event.body with
  | .agentCondensation _ => true
  | _ => false

/-- The content of an `IPythonRunCellObservation`. -/
def Event.ipythonContent? (event : Event φ) : Option (List Char) :=
  match event.body with
  | .ipythonRunCellObservation content _ => some content
  | _ => none

/-! ## The history that is looked at -/

/-- The event is a message of the user. -/
def Event.isUserMessage (event : Event φ) : Bool := event.isMessage ∧ event.source = some .user

/-- The event is a message of the agent. -/
def Event.isAgentMessage (event : Event φ) : Bool := event.isMessage ∧ event.source = some .agent

/-- The history, or in interactive mode the part behind the last message of the user. -/
def historyToCheck (history : List (Event φ)) (headlessMode : Bool) : List (Event φ) :=
  if headlessMode then history
  else
    let lastUserMsgIdx : ℤ := match history.reverse.findIdx? Event.isUserMessage with
      | some i => history.length - i - 1
      | none => -1
    Slices.slice history (some (lastUserMsgIdx + 1)) none

/-- The history without messages of the user and null events. -/
def filteredHistory (history : List (Event φ)) (headlessMode : Bool) : List (Event φ) :=
  (historyToCheck history headlessMode).filter fun event =>
    decide (¬ (event.isUserMessage ∨ event.isNull))

/-- The loop over the reversed history that takes the last `n` actions and the last `n`
observations. -/
def collectLast (n : ℕ) : List (Event φ) → List (Event φ) → List (Event φ) →
    List (Event φ) × List (Event φ)
  | [], lastActions, lastObservations => (lastActions, lastObservations)
  | event :: events, lastActions, lastObservations =>
    let (lastActions, lastObservations) :=
      if event.isAction ∧ lastActions.length < n then (lastActions ++ [event], lastObservations)
      else if event.isObservation ∧ lastObservations.length < n then
        (lastActions, lastObservations ++ [event])
      else (lastActions, lastObservations)
    if lastActions.length = n ∧ lastObservations.length = n then (lastActions, lastObservations)
    else collectLast n events lastActions lastObservations

/-- The element `l[i]`, or an error. -/
def item {α : Type} (l : List α) (i : ℤ) : Except PyError α :=
  match Slices.item? l i with
  | some a => .ok a
  | none => .error .indexError

/-! ## Comparing events -/

/-- The start of an edit. -/
def editCall : List Char := "edit_file_by_replace(".toList

variable [DecidableEq φ]

/-- The comparison `obj1 == obj2`. -/
def Event.eq (obj1 obj2 : Event φ) : Bool := obj1.body = obj2.body

/-- The function `_eq_no_pid`. -/
def eqNoPid (obj1 obj2 : Event φ) : Bool :=
  match obj1.body, obj2.body with
  | .ipythonRunCell code1 _, .ipythonRunCell code2 _ =>
    if editCall <:+: code1 ∧ editCall <:+: code2 then
      2 < (code1.splitOn '\n').length ∧ (code1.splitOn '\n').take 3 = (code2.splitOn '\n').take 3
    else obj1.eq obj2
  | .cmdOutput command1 exitCode1 _, .cmdOutput command2 exitCode2 _ =>
    command1 = command2 ∧ exitCode1 = exitCode2
  | _, _ => obj1.eq obj2

/-- All events are compared with the first one, which is only read if there is one. -/
def allEqNoPid (events : List (Event φ)) : Except PyError Bool :=
  events.allM fun event => do
    let first ← item events 0
    return eqNoPid first event

/-! ## Errors of the interpreter -/

/-- The messages `SYNTAX_ERROR_MESSAGES`. -/
def unterminatedString : List Char :=
  "SyntaxError: unterminated string literal (detected at line".toList

def forgottenComma : List Char := "SyntaxError: invalid syntax. Perhaps you forgot a comma?".toList

def incompleteInput : List Char := "SyntaxError: incomplete input".toList

def syntaxErrorMessages : List (List Char) := [unterminatedString, forgottenComma, incompleteInput]

/-- How the first line of an error begins. -/
def cellStart : List Char := "Cell In[1], line".toList

/-- How the last line begins. -/
def interpreterStart : List Char := "[Jupyter Python interpreter:".toList

/-- How the line before the last one begins. -/
def directoryStart : List Char := "[Jupyter current working directory:".toList

/-- The lines of a content. -/
def lines (content : List Char) : List (List Char) := (strip content).splitOn '\n'

/-- One observation in `_check_for_consistent_invalid_syntax`: its first line, and whether it is
valid; nothing if the function returns false. -/
def invalidSyntaxStep (errorMessage content : List Char) :
    Except PyError (Option (List Char × Bool)) := do
  let lines := lines content
  if lines.length < 6 then return none
  else
    let line1 := strip (← item lines 0)
    if ¬ cellStart <+: line1 then return none
    else
      let last ← item lines (-1)
      if interpreterStart <+: last then
        let beforeLast ← item lines (-2)
        if directoryStart <+: beforeLast then
          let errorLine ← item lines (-3)
          return some (line1, errorMessage <:+: errorLine)
        else return some (line1, false)
      else return some (line1, false)

/-- The loop over the observations: the first lines and the valid observations. -/
def invalidSyntaxLoop (errorMessage : List Char) :
    List (List Char) → Except PyError (Option (List (List Char) × List (List Char)))
  | [] => return some ([], [])
  | content :: contents => do
    match ← invalidSyntaxStep errorMessage content with
    | none => return none
    | some (line1, valid) =>
      match ← invalidSyntaxLoop errorMessage contents with
      | none => return none
      | some (firstLines, validObservations) =>
        return some (line1 :: firstLines,
          if valid then content :: validObservations else validObservations)

/-- The function `_check_for_consistent_invalid_syntax`, for `n` observations. -/
def checkForConsistentInvalidSyntax (n : ℕ) (observations : List (List Char))
    (errorMessage : List Char) : Except PyError Bool := do
  match ← invalidSyntaxLoop errorMessage observations with
  | none => return false
  | some (firstLines, validObservations) =>
    if firstLines.dedup.length = 1 ∧ validObservations.length = n then
      let errorLines ← validObservations.mapM fun content =>
        item (Slices.slice (lines content) none (some (-2))) (-1)
      return errorLines.dedup.length = 1
    else return false

/-- One observation in `_check_for_consistent_line_error`: the line with the message, if it is
there; nothing if the function returns false. -/
def lineErrorStep (errorMessage content : List Char) :
    Except PyError (Option (List (List Char))) := do
  let lines := lines content
  if lines.length < 3 then return none
  else
    let lastLines := Slices.slice lines (some (-3)) none
    let beforeLast ← item lastLines (-2)
    if ¬ directoryStart <+: beforeLast then return none
    else
      let last ← item lastLines (-1)
      if ¬ interpreterStart <+: last then return none
      else
        let errorLine ← item lastLines (-3)
        return some (if errorMessage <:+: errorLine then [errorLine] else [])

/-- The loop over the observations: the lines with the message. -/
def lineErrorLoop (errorMessage : List Char) :
    List (List Char) → Except PyError (Option (List (List Char)))
  | [] => return some []
  | content :: contents => do
    match ← lineErrorStep errorMessage content with
    | none => return none
    | some errorLine =>
      match ← lineErrorLoop errorMessage contents with
      | none => return none
      | some errorLines => return some (errorLine ++ errorLines)

/-- The function `_check_for_consistent_line_error`, for `n` observations. -/
def checkForConsistentLineError (n : ℕ) (observations : List (List Char))
    (errorMessage : List Char) : Except PyError Bool := do
  match ← lineErrorLoop errorMessage observations with
  | none => return false
  | some errorLines => return errorLines.length = n ∧ errorLines.dedup.length = 1

/-! ## The scenarios -/

/-- The function `_is_stuck_repeating_action_observation`, for `n` steps. -/
def isStuckRepeatingActionObservation (n : ℕ) (lastActions lastObservations : List (Event φ)) :
    Except PyError Bool :=
  if lastActions.length = n ∧ lastObservations.length = n then do
    let actionsEqual ← allEqNoPid lastActions
    let observationsEqual ← allEqNoPid lastObservations
    return actionsEqual && observationsEqual
  else return false

/-- The body of `_is_stuck_repeating_action_error`, for `n` observations. -/
def repeatingActionError (n : ℕ) (lastActions lastObservations : List (Event φ)) :
    Except PyError Bool := do
  let actionsEqual ← allEqNoPid lastActions
  if actionsEqual then
    if lastObservations.all Event.isError then return true
    else if lastObservations.all fun obs => obs.ipythonContent?.isSome then
      let contents := lastObservations.filterMap Event.ipythonContent?
      syntaxErrorMessages.anyM fun errorMessage =>
        if unterminatedString <+: errorMessage then
          checkForConsistentLineError n contents errorMessage
        else if errorMessage ∈ [forgottenComma, incompleteInput] then
          checkForConsistentInvalidSyntax n contents errorMessage
        else return false
    else return false
  else return false

/-- The function `_is_stuck_monologue`, for `n` messages. -/
def isStuckMonologue (n : ℕ) (filteredHistory : List (Event φ)) : Except PyError Bool := do
  let agentMessageActions := filteredHistory.zipIdx.filter fun action => action.1.isAgentMessage
  if n ≤ agentMessageActions.length then
    let lastAgentMessageActions := Slices.slice agentMessageActions (some (-n)) none
    let allEqual ← lastAgentMessageActions.allM fun action => do
      let first ← item lastAgentMessageActions 0
      return first.1.eq action.1
    if allEqual then
      let first ← item lastAgentMessageActions 0
      let last ← item lastAgentMessageActions (-1)
      let hasObservationBetween := (Slices.slice filteredHistory (some (first.2 + 1 : ℕ))
        (some last.2)).any Event.isObservation
      return !hasObservationBetween
    else return false
  else return false

/-- Every other event of six is compared, with the first and with the second one. -/
def allEveryOther (events : List (Event φ)) : Except PyError Bool :=
  [(0, 2), (0, 4), (1, 3), (1, 5)].allM fun (i, j) => do
    let obj1 ← item events i
    let obj2 ← item events j
    return eqNoPid obj1 obj2

/-- The function `_is_stuck_action_observation_pattern`. -/
def isStuckActionObservationPattern (filteredHistory : List (Event φ)) : Except PyError Bool :=
  let (lastSixActions, lastSixObservations) := collectLast 6 filteredHistory.reverse [] []
  if lastSixActions.length = 6 ∧ lastSixObservations.length = 6 then do
    let actionsEqual ← allEveryOther lastSixActions
    let observationsEqual ← allEveryOther lastSixObservations
    return actionsEqual && observationsEqual
  else return false

/-- The indices of the last ten condensations. -/
def lastCondensationEvents (filteredHistory : List (Event φ)) : List ℕ :=
  let condensationEvents :=
    (filteredHistory.zipIdx.filter fun event => event.1.isCondensation).map Prod.snd
  Slices.slice condensationEvents (some (-10)) none

/-- The function `_is_stuck_context_window_error`. -/
def isStuckContextWindowError (filteredHistory : List (Event φ)) : Bool :=
  if (filteredHistory.filter Event.isCondensation).length < 10 then false
  else
    let last := lastCondensationEvents filteredHistory
    -- The loop over the pairs of neighbours ends at the first pair without other events.
    (last.zip last.tail).any fun (startIdx, endIdx) =>
      !(Slices.slice filteredHistory (some (startIdx + 1 : ℕ)) (some endIdx)).any fun event =>
        !event.isCondensation

/-- The function `_is_stuck_useless_action`. -/
def isStuckUselessAction (lastActions : List (Event φ)) : Bool :=
  lastActions.all fun action => action.isMessage || action.isThink

/-! ## The detectors -/

/-- **The function `StuckDetector.is_stuck`.** -/
def isStuck (history : List (Event φ)) (headlessMode : Bool) : Except PyError Bool :=
  let filteredHistory := filteredHistory history headlessMode
  if filteredHistory.length < 3 then return false
  else
    let (lastActions, lastObservations) := collectLast 4 filteredHistory.reverse [] []
    [isStuckRepeatingActionObservation 4 lastActions lastObservations,
      if lastActions.length < 3 ∨ lastObservations.length < 3 then return false
      else repeatingActionError 3 (lastActions.take 3) (lastObservations.take 3),
      isStuckMonologue 3 filteredHistory,
      if 6 ≤ filteredHistory.length then isStuckActionObservationPattern filteredHistory
      else return false,
      if 10 ≤ filteredHistory.length then return isStuckContextWindowError filteredHistory
      else return false].anyM id

/-- **The function `StrictStuckDetector.is_stuck`.** -/
def strictIsStuck (history : List (Event φ)) (headlessMode : Bool) : Except PyError Bool :=
  let filteredHistory := filteredHistory history headlessMode
  if filteredHistory.length < 2 then return false
  else
    let (lastActions, lastObservations) := collectLast 2 filteredHistory.reverse [] []
    [return isStuckUselessAction lastActions,
      isStuckRepeatingActionObservation 2 lastActions lastObservations,
      repeatingActionError 2 lastActions lastObservations,
      isStuckMonologue 2 filteredHistory,
      if 6 ≤ filteredHistory.length then isStuckActionObservationPattern filteredHistory
      else return false].anyM id

end ProRLAgent.Stuck
