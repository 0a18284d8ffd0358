import ProRLAgent.Bash.Session
import ProRLAgent.Lib.Machine

set_option relaxedAutoImplicit false
set_option autoImplicit false

/-!
# What the methods of a session change

What each method returns and what it leaves behind: the buffer, whether a command is in progress, and
whether its prompt was seen. The status of an observation is read off its suffix.

## Main definitions

* `ProRLAgent.Bash.Observation.IsCompleted`, `ProRLAgent.Bash.Observation.IsRefused` — the reports.
* `ProRLAgent.Bash.Session.Agrees` — sessions that differ in other fields only.

## Main results

* `ProRLAgent.Bash.execute_cases` — what a call does.
* `ProRLAgent.Bash.step_buffer`, `ProRLAgent.Bash.run_buffer` — the buffer is what arrived since a
  command was sent.
-/

namespace ProRLAgent.Bash

open FnCall (Text)
open Markers PyText

variable {ν : Type}

/-! ## Prompts and suffixes -/

section Prompts

variable {cfg : Shell ν} {buffer : Text}

/-- The last prompt is read. -/
lemma lastPrompt_eq_some_iff {metadata : CmdOutputMetadata} :
    lastPrompt cfg.interpreter buffer = some metadata ↔ ∃ ms last,
      matchesPs1Metadata cfg.interpreter buffer = .ok ms ∧ ms.getLast? = some last ∧
        fromPs1Match cfg.interpreter last = .ok metadata := by
  rw [lastPrompt]
  rcases matchesPs1Metadata cfg.interpreter buffer with e | ms
  · simp
  · rcases hlast : ms.getLast? with _ | last
    · simp [hlast]
    · rcases hread : fromPs1Match cfg.interpreter last with e | read <;>
        simp [hlast, hread, Except.toOption]

/-- What is parsed is the last prompt, if there is one. -/
lemma parsePs1Metadata_ok {metadata : CmdOutputMetadata}
    (h : parsePs1Metadata cfg buffer = .ok metadata) :
    lastPrompt cfg.interpreter buffer = some metadata ∨
      matchesPs1Metadata cfg.interpreter buffer = .ok [] := by
  rw [parsePs1Metadata, Except.bind_eq_ok] at h
  obtain ⟨ms, hms, h⟩ := h
  rcases hlast : ms.getLast? with _ | last
  · exact Or.inr (by rw [hms, List.getLast?_eq_none_iff.mp hlast])
  · rw [hlast] at h
    exact Or.inl (lastPrompt_eq_some_iff.2 ⟨ms, last, hms, hlast, h⟩)

/-- The suffix of an observation. -/
def Observation.suffix : Observation → Text
  | .cmdOutput _ _ metadata => metadata.suffixText.toList
  | .error _ => []

/-- The exit code of an observation. -/
def Observation.exitCode? : Observation → Option ℤ
  | .cmdOutput _ _ metadata => some metadata.exitCode
  | .error _ => none

/-- **The observation reports completion.** -/
def Observation.IsCompleted (o : Observation) : Prop := completedWords <+: o.suffix

/-- **The observation refuses a command.** -/
def Observation.IsRefused (o : Observation) : Prop := refusedWords <+: o.suffix

instance decidableIsCompleted (o : Observation) : Decidable o.IsCompleted :=
  inferInstanceAs (Decidable (_ <+: _))

instance decidableIsRefused (o : Observation) : Decidable o.IsRefused :=
  inferInstanceAs (Decidable (_ <+: _))

/-- The observation that the last step returned, if it returned one. -/
def State.observation? (st : State ν) : Option Observation := st.result.bind Except.toOption

/-- An observation is a result. -/
lemma State.result_of_observation {st : State ν} {o : Observation}
    (h : st.observation? = some o) : st.result = some (.ok o) := by
  obtain ⟨result, hresult, ho⟩ := Option.bind_eq_some_iff.mp h
  rcases result with e | o'
  · cases ho
  · rw [hresult]
    exact congrArg (some ∘ Except.ok) (Option.some.inj ho)

/-- Two beginnings that differ early. -/
lemma not_prefix_append {w c : Text} (k : ℕ) (hw : k ≤ w.length) (hc : k ≤ c.length)
    (hne : w.take k ≠ c.take k) (x : Text) : ¬ w <+: c ++ x := fun h => by
  have htake := List.prefix_iff_eq_take.mp ((List.take_prefix k w).trans h)
  rw [List.length_take, Nat.min_eq_left hw, List.take_append_of_le_length hc] at htake
  exact hne htake

/-- How the reports on a status begin. -/
lemma exists_statusSuffix (cfg : Shell ν) (command : Text) (exitCode : ℤ) (timeoutValue : Option ν)
    (specialKey : Bool) (status : Status) :
    ∃ x, statusSuffix cfg command exitCode timeoutValue specialKey status =
      (match status with
      | .completed => completedWords
      | .hardTimeout => timeoutWords
      | .noChangeTimeout => noChangeWords
      | .running => runningText
      | .interrupt => interruptWords) ++ x := by
  cases status with
  | completed =>
    rw [statusSuffix]
    split_ifs
    · exact ⟨_, rfl⟩
    · exact ⟨_, rfl⟩
  | running => exact ⟨[], (List.append_nil _).symm⟩
  | _ => exact ⟨_, rfl⟩

/-- Only a status of completion is reported as such. -/
lemma completed_statusSuffix_iff {command : Text} {exitCode : ℤ} {timeoutValue : Option ν}
    {specialKey : Bool} {status : Status} :
    completedWords <+: statusSuffix cfg command exitCode timeoutValue specialKey status ↔
      status = .completed := by
  obtain ⟨x, hx⟩ := exists_statusSuffix cfg command exitCode timeoutValue specialKey status
  rw [hx]
  cases status with
  | completed => exact iff_of_true (List.prefix_append _ _) rfl
  | running =>
    refine iff_of_false ?_ nofun
    delta completedWords runningText
    rw [String.toList_append, String.toList_ofList, String.toList_ofList, String.toList_ofList]
    exact not_prefix_append 15 (by decide) (by decide) (by decide) _
  | _ =>
    refine iff_of_false ?_ nofun
    delta completedWords timeoutWords noChangeWords interruptWords
    rw [String.toList_ofList, String.toList_ofList]
    exact not_prefix_append 15 (by decide) (by decide) (by decide) _

/-- A status is no refusal. -/
lemma not_refused_statusSuffix {command : Text} {exitCode : ℤ} {timeoutValue : Option ν}
    {specialKey : Bool} {status : Status} :
    ¬ refusedWords <+: statusSuffix cfg command exitCode timeoutValue specialKey status := by
  obtain ⟨x, hx⟩ := exists_statusSuffix cfg command exitCode timeoutValue specialKey status
  rw [hx]
  cases status with
  | running =>
    delta refusedWords runningText
    rw [String.toList_append, String.toList_ofList, String.toList_ofList, String.toList_ofList]
    exact not_prefix_append 3 (by decide) (by decide) (by decide) _
  | _ =>
    delta refusedWords completedWords timeoutWords noChangeWords interruptWords
    rw [String.toList_ofList, String.toList_ofList]
    exact not_prefix_append 3 (by decide) (by decide) (by decide) _

/-- **The metadata of a status.** -/
lemma createMetadata_ok {s : Session ν} {command : Text} {status : Status} {exitCode : Option ℤ}
    {timeoutValue : Option ν} {wasTruncated isIncremental specialKey : Bool}
    {metadata : CmdOutputMetadata}
    (h : createMetadata cfg s command status exitCode timeoutValue wasTruncated isIncremental
      specialKey = .ok metadata) :
    (∃ parsed, parsePs1Metadata cfg s.outputBuffer = .ok parsed ∧
      metadata.exitCode = metadataExitCode exitCode status parsed.exitCode) ∧
    (completedWords <+: metadata.suffixText.toList ↔ status = .completed) ∧
      ¬ refusedWords <+: metadata.suffixText.toList := by
  rw [createMetadata, Except.bind_eq_ok] at h
  obtain ⟨parsed, hparsed, h⟩ := h
  obtain rfl := Except.ok.inj h
  simp only [String.toList_ofList]
  exact ⟨⟨parsed, hparsed, rfl⟩, completed_statusSuffix_iff, not_refused_statusSuffix⟩

end Prompts

/-! ## What the methods change -/

section Frames

variable {cfg : Shell ν} {s s' : Session ν} {command : Text}

/-- **The same buffer, and the same fields on whether the command is complete.** -/
structure Session.Agrees (s t : Session ν) : Prop where
  buffer : t.outputBuffer = s.outputBuffer
  inProgress : t.commandInProgress = s.commandInProgress
  exitCode : t.completionExitCode = s.completionExitCode
  detected : t.completionDetected = s.completionDetected

/-- A change of the directory changes nothing else. -/
lemma agrees_changeDir (s : Session ν) (metadata : CmdOutputMetadata) :
    s.Agrees (s.changeDir metadata) := by
  rw [Session.changeDir]
  split
  · split_ifs <;> exact ⟨rfl, rfl, rfl, rfl⟩
  · exact ⟨rfl, rfl, rfl, rfl⟩

/-- **`_is_command_complete`** finds nothing new, or finds a prompt, or there is none. -/
lemma isCommandComplete_cases (cfg : Shell ν) (s : Session ν) :
    (isCommandComplete cfg s = (true, s) ∧
      (s.commandInProgress = false ∨ s.completionDetected = true)) ∨
    (∃ metadata, isCommandComplete cfg s = (true, { s with
        completionExitCode := some metadata.exitCode, completionDetected := true }) ∧
      s.commandInProgress = true ∧ s.completionDetected = false ∧
      lastPrompt cfg.interpreter s.outputBuffer = some metadata) ∨
    (isCommandComplete cfg s = (false, s) ∧ s.commandInProgress = true ∧
      s.completionDetected = false ∧ lastPrompt cfg.interpreter s.outputBuffer = none) := by
  rw [isCommandComplete]
  rcases hrun : s.commandInProgress with _ | _
  · exact Or.inl ⟨rfl, Or.inl rfl⟩
  · rcases hdetected : s.completionDetected with _ | _
    · rcases hlast : lastPrompt cfg.interpreter s.outputBuffer with _ | metadata
      · exact Or.inr (Or.inr ⟨rfl, rfl, rfl, rfl⟩)
      · exact Or.inr (Or.inl ⟨metadata, rfl, rfl, rfl, rfl⟩)
    · exact Or.inl ⟨rfl, Or.inr rfl⟩

/-- Looking for a prompt changes neither the buffer nor whether a command is in progress. -/
lemma isCommandComplete_frame (cfg : Shell ν) (s : Session ν) :
    (isCommandComplete cfg s).2.outputBuffer = s.outputBuffer ∧
      (isCommandComplete cfg s).2.commandInProgress = s.commandInProgress ∧
      (isCommandComplete cfg s).2.lastOutputPosition = s.lastOutputPosition ∧
      (isCommandComplete cfg s).2.prevStatus = s.prevStatus := by
  rcases isCommandComplete_cases cfg s with ⟨h, -⟩ | ⟨metadata, h, -⟩ | ⟨h, -⟩ <;>
    rw [h] <;> exact ⟨rfl, rfl, rfl, rfl⟩

/-- Other fields do not matter for whether the command is complete. -/
lemma Session.Agrees.isCommandComplete (h : s.Agrees s') :
    (isCommandComplete cfg s').1 = (isCommandComplete cfg s).1 := by
  rw [Bash.isCommandComplete, Bash.isCommandComplete, h.buffer, h.inProgress, h.detected]
  split_ifs
  · rfl
  · rfl
  · rcases lastPrompt cfg.interpreter s.outputBuffer with _ | metadata <;> rfl

/-- **A round of a wait** gives up, or finds the command complete, or goes on. -/
lemma poll_cases {canNoChange : Bool} {timeout : Option ν} {tick : Tick}
    {r : Session ν × Option Waited} (h : poll cfg canNoChange timeout s tick = some r) :
    (tick = .stop ∧ r = (s, some .interrupted)) ∨
    (tick = .hardTimeout ∧ r = (s, some .hardTimeout)) ∨
    (tick = .noChange ∧ r = (s, some .noChange)) ∨
    (tick = .check ∧ ∃ s', isCommandComplete cfg s = (true, s') ∧ r = (s', some .completed)) ∨
    (tick = .check ∧ ∃ s', isCommandComplete cfg s = (false, s') ∧ r = (s', none)) := by
  cases tick with
  | stop => exact Or.inl ⟨rfl, (Option.some.inj h).symm⟩
  | hardTimeout =>
    rw [poll] at h
    split_ifs at h
    exact Or.inr (Or.inl ⟨rfl, (Option.some.inj h).symm⟩)
  | noChange =>
    rw [poll] at h
    split_ifs at h
    exact Or.inr (Or.inr (Or.inl ⟨rfl, (Option.some.inj h).symm⟩))
  | check =>
    rw [poll] at h
    rcases hcomplete : isCommandComplete cfg s with ⟨_ | _, s'⟩
    · rw [hcomplete] at h
      exact Or.inr (Or.inr (Or.inr (Or.inr ⟨rfl, s', rfl, (Option.some.inj h).symm⟩)))
    · rw [hcomplete] at h
      exact Or.inr (Or.inr (Or.inr (Or.inl ⟨rfl, s', rfl, (Option.some.inj h).symm⟩)))

/-- **A completed command** is no longer in progress. Its observation has the exit code that was
found with the first prompt. -/
lemma handleCompletedCommand_spec (cfg : Shell ν) (s : Session ν) (command : Text) :
    (handleCompletedCommand cfg s command).1.commandInProgress = false ∧
    (handleCompletedCommand cfg s command).1.outputBuffer = s.outputBuffer ∧
    ∀ o, (handleCompletedCommand cfg s command).2 = .ok o → ¬ o.IsRefused ∧
      (∃ parsed, parsePs1Metadata cfg s.outputBuffer = .ok parsed) ∧
      o.exitCode? = some (s.completionExitCode.getD (-1)) := by
  rw [handleCompletedCommand]
  dsimp only
  split
  · exact ⟨rfl, rfl, nofun⟩
  · next metadata hmetadata =>
    obtain ⟨⟨parsed, hparsed, hcode⟩, -, hrefused⟩ := createMetadata_ok hmetadata
    refine ⟨?_, ?_, fun o ho => ?_⟩
    · dsimp only
      split_ifs
      · exact (agrees_changeDir _ metadata).inProgress
      · rfl
    · dsimp only
      split_ifs
      · exact (agrees_changeDir _ metadata).buffer
      · rfl
    · obtain rfl := Except.ok.inj ho
      exact ⟨hrefused, ⟨parsed, hparsed⟩, congrArg some hcode⟩

/-- **A command that timed out** stays in progress. -/
lemma handleTimeoutCommand_spec (cfg : Shell ν) (s : Session ν) (command : Text) (noChange : Bool)
    (timeoutValue : Option ν) :
    s.Agrees (handleTimeoutCommand cfg s command noChange timeoutValue).1 ∧
    ∀ o, (handleTimeoutCommand cfg s command noChange timeoutValue).2 = .ok o →
      ¬ o.IsRefused ∧ ¬ o.IsCompleted := by
  rw [handleTimeoutCommand]
  dsimp only
  split
  · exact ⟨⟨rfl, rfl, rfl, rfl⟩, nofun⟩
  · next metadata hmetadata =>
    obtain ⟨-, hcompleted, hrefused⟩ := createMetadata_ok hmetadata
    have hdir := agrees_changeDir { s with
      lastTimeoutValue := timeoutValue
      prevStatus := some (if noChange then .noChangeTimeout else .hardTimeout) } metadata
    refine ⟨⟨hdir.buffer, hdir.inProgress, hdir.exitCode, hdir.detected⟩, fun o ho => ?_⟩
    obtain rfl := Except.ok.inj ho
    refine ⟨hrefused, mt hcompleted.mp ?_⟩
    split_ifs <;> exact nofun

/-- An error reports nothing. -/
lemma not_reported_error (content : Text) :
    ¬ (Observation.error content).IsRefused ∧ ¬ (Observation.error content).IsCompleted := by
  rw [Observation.IsRefused, Observation.IsCompleted, Observation.suffix]
  decide

/-- An exception is returned as an error, and no command is in progress then. -/
lemma completionCaught_cases (cfg : Shell ν) (r : Session ν × Except PyError Observation) :
    (completionCaught cfg r = r ∧ ∃ o, r.2 = .ok o) ∨
      (completionCaught cfg r).1.commandInProgress = false ∧
        (completionCaught cfg r).1.outputBuffer = r.1.outputBuffer ∧
        ∃ content, (completionCaught cfg r).2 = .ok (.error content) := by
  rcases r with ⟨s, e | o⟩
  · exact Or.inr ⟨rfl, rfl, _, rfl⟩
  · exact Or.inl ⟨rfl, o, rfl⟩

/-- A wait that found the command complete. -/
lemma waitForCompletion_completed (cfg : Shell ν) (command : Text) (timeout : Option ν)
    (s : Session ν) :
    (waitForCompletion cfg command timeout s .completed).1.commandInProgress = false ∧
    (waitForCompletion cfg command timeout s .completed).1.outputBuffer = s.outputBuffer ∧
    ∀ o, (waitForCompletion cfg command timeout s .completed).2 = .ok o → ¬ o.IsRefused ∧
      (o.IsCompleted → (∃ parsed, parsePs1Metadata cfg s.outputBuffer = .ok parsed) ∧
        o.exitCode? = some (s.completionExitCode.getD (-1))) := by
  obtain ⟨hprogress, hbuffer, hresult⟩ := handleCompletedCommand_spec cfg s command
  rw [waitForCompletion]
  rcases completionCaught_cases cfg (handleCompletedCommand cfg s command) with
    ⟨heq, -⟩ | ⟨hprogress', hbuffer', content, herror⟩
  · rw [heq]
    exact ⟨hprogress, hbuffer, fun o ho => ⟨(hresult o ho).1, fun _ => (hresult o ho).2⟩⟩
  · refine ⟨hprogress', hbuffer'.trans hbuffer, fun o ho => ?_⟩
    obtain rfl := Except.ok.inj (herror.symm.trans ho)
    exact ⟨(not_reported_error _).1, fun h => absurd h (not_reported_error _).2⟩

/-- A wait that gave up: the command is in progress as before, or ended with an error. -/
lemma waitForCompletion_gaveUp (cfg : Shell ν) (command : Text) (timeout : Option ν)
    (s : Session ν) {waited : Waited} (h : waited ≠ .completed) :
    ((waited ≠ .interrupted ∧ s.Agrees (waitForCompletion cfg command timeout s waited).1) ∨
      (waitForCompletion cfg command timeout s waited).1.commandInProgress = false ∧
        (waitForCompletion cfg command timeout s waited).1.outputBuffer = s.outputBuffer) ∧
    ∀ o, (waitForCompletion cfg command timeout s waited).2 = .ok o →
      ¬ o.IsRefused ∧ ¬ o.IsCompleted := by
  have htimeout (noChange : Bool) (value : Option ν) (hwaited : waited ≠ .interrupted)
      (heq : waitForCompletion cfg command timeout s waited =
        completionCaught cfg (handleTimeoutCommand cfg s command noChange value)) :
      ((waited ≠ .interrupted ∧ s.Agrees (waitForCompletion cfg command timeout s waited).1) ∨
        (waitForCompletion cfg command timeout s waited).1.commandInProgress = false ∧
          (waitForCompletion cfg command timeout s waited).1.outputBuffer = s.outputBuffer) ∧
      ∀ o, (waitForCompletion cfg command timeout s waited).2 = .ok o →
        ¬ o.IsRefused ∧ ¬ o.IsCompleted := by
    obtain ⟨hagrees, hresult⟩ := handleTimeoutCommand_spec cfg s command noChange value
    rw [heq]
    rcases completionCaught_cases cfg
      (handleTimeoutCommand cfg s command noChange value) with
      ⟨hsame, -⟩ | ⟨hprogress, hbuffer, content, herror⟩
    · rw [hsame]
      exact ⟨Or.inl ⟨hwaited, hagrees⟩, hresult⟩
    · refine ⟨Or.inr ⟨hprogress, hbuffer.trans hagrees.buffer⟩, fun o ho => ?_⟩
      obtain rfl := Except.ok.inj (herror.symm.trans ho)
      exact not_reported_error _
  cases waited with
  | completed => exact absurd rfl h
  | interrupted =>
    refine ⟨Or.inr ⟨rfl, rfl⟩, fun o ho => ?_⟩
    obtain rfl := Except.ok.inj ho
    exact not_reported_error _
  | hardTimeout => exact htimeout false timeout nofun rfl
  | noChange => exact htimeout true none nofun rfl

/-- The last prompt has the exit code. -/
lemma lastExitCode_ok {ms : List (Found Char)} {exitCode : ℤ}
    (hms : matchesPs1Metadata cfg.interpreter s.outputBuffer = .ok ms)
    (h : lastExitCode cfg ms = .ok exitCode) :
    ms = [] ∨ ∃ last, lastPrompt cfg.interpreter s.outputBuffer = some last ∧
      exitCode = last.exitCode := by
  rw [lastExitCode] at h
  rcases hlast : ms.getLast? with _ | last
  · exact Or.inl (List.getLast?_eq_none_iff.mp hlast)
  · rw [hlast] at h
    rcases hread : fromPs1Match cfg.interpreter last with e | read
    · simp only [hread] at h
      cases h
    · simp only [hread] at h
      exact Or.inr ⟨read, lastPrompt_eq_some_iff.mpr ⟨ms, last, hms, hlast, hread⟩,
        (Except.ok.inj h).symm⟩

/-- **An empty command that completes the command**: no command is in progress then, and the exit
code is that of the last prompt. -/
lemma completeIncremental_spec {ms : List (Found Char)}
    (hms : matchesPs1Metadata cfg.interpreter s.outputBuffer = .ok ms) :
    (completeIncremental cfg s ms).1.commandInProgress = false ∧
    (completeIncremental cfg s ms).1.outputBuffer = s.outputBuffer ∧
    ∀ o, (completeIncremental cfg s ms).2 = .ok o → ¬ o.IsRefused ∧
      (ms = [] ∨ ∃ last, lastPrompt cfg.interpreter s.outputBuffer = some last ∧
        o.exitCode? = some last.exitCode) := by
  rw [completeIncremental]
  dsimp only
  split
  · exact ⟨rfl, rfl, nofun⟩
  · next exitCode content metadata hsince =>
    rw [completedSince, Except.bind_eq_ok] at hsince
    obtain ⟨⟨text, wasTruncated⟩, -, hsince⟩ := hsince
    dsimp only at hsince
    rw [Except.bind_eq_ok] at hsince
    obtain ⟨code, hcode, hsince⟩ := hsince
    rw [Except.bind_eq_ok] at hsince
    obtain ⟨metadata', hmetadata, hsince⟩ := hsince
    obtain ⟨rfl, rfl, rfl⟩ : code = exitCode ∧ text = content ∧ metadata' = metadata := by
      simpa using Except.ok.inj hsince
    obtain ⟨⟨parsed, -, hmetadataCode⟩, -, hrefused⟩ := createMetadata_ok hmetadata
    have hdir := agrees_changeDir { s with
      commandInProgress := false
      prevStatus := some .completed } metadata'
    refine ⟨?_, ?_, fun o ho => ?_⟩
    · dsimp only
      split_ifs
      · exact hdir.inProgress
      · rfl
    · dsimp only
      split_ifs
      · exact hdir.buffer
      · rfl
    · obtain rfl := Except.ok.inj ho
      refine ⟨hrefused, (lastExitCode_ok hms hcode).imp_right ?_⟩
      rintro ⟨last, hlast, rfl⟩
      exact ⟨last, hlast, congrArg some hmetadataCode⟩

/-- **An empty command that finds the command running** leaves it in progress. -/
lemma continueIncremental_spec (cfg : Shell ν) (s : Session ν) (ms : List (Found Char))
    (hardTimeoutReached : Bool) :
    s.Agrees (continueIncremental cfg s ms hardTimeoutReached).1 ∧
    ∀ o, (continueIncremental cfg s ms hardTimeoutReached).2 = .ok o →
      ¬ o.IsRefused ∧ ¬ o.IsCompleted := by
  rw [continueIncremental]
  split
  · exact ⟨⟨rfl, rfl, rfl, rfl⟩, nofun⟩
  · refine ⟨⟨rfl, rfl, rfl, rfl⟩, fun o ho => ?_⟩
    obtain ⟨metadata, hmetadata, ho⟩ := Except.bind_eq_ok.mp ho
    obtain rfl := Except.ok.inj ho
    obtain ⟨-, hcompleted, hrefused⟩ := createMetadata_ok hmetadata
    refine ⟨hrefused, mt hcompleted.mp ?_⟩
    rw [runningStatus]
    split_ifs <;> exact nofun

/-- A key that was reported is no refusal. -/
lemma interruptedOutput_ok {key : Text} {ms : List (Found Char)} {last : Found Char}
    {o : Observation} (h : interruptedOutput cfg s key ms last = .ok o) :
    ¬ o.IsRefused ∧ ∃ metadata, fromPs1Match cfg.interpreter last = .ok metadata ∧
      o.exitCode? = some metadata.exitCode := by
  rw [interruptedOutput, Except.bind_eq_ok] at h
  obtain ⟨metadata, hmetadata, h⟩ := h
  obtain ⟨content, -, h⟩ := Except.bind_eq_ok.mp h
  obtain rfl := Except.ok.inj h
  refine ⟨?_, metadata, hmetadata, rfl⟩
  rw [Observation.IsRefused, Observation.suffix, String.toList_ofList, keySuffix]
  exact not_prefix_append 3 (by decide) (by decide) (by decide) _

/-- The output so far reports no completion while the command is in progress. -/
lemma getCurrentOutput_ok {o : Observation} (h : getCurrentOutput cfg s command = .ok o) :
    ¬ o.IsRefused ∧ (s.commandInProgress = true → ¬ o.IsCompleted) := by
  rw [getCurrentOutput, Except.bind_eq_ok] at h
  obtain ⟨ms, -, h⟩ := h
  obtain ⟨metadata, hmetadata, h⟩ := Except.bind_eq_ok.mp h
  obtain rfl := Except.ok.inj h
  obtain ⟨-, hcompleted, hrefused⟩ := createMetadata_ok hmetadata
  refine ⟨hrefused, fun hprogress => mt hcompleted.mp ?_⟩
  rw [hprogress]
  exact nofun

/-- A key that ended nothing reports nothing. -/
lemma not_reported_interrupt {content key : Text} {metadata : CmdOutputMetadata}
    (h : metadata.suffixText = String.ofList (interruptSuffix key)) :
    ¬ (Observation.cmdOutput content key metadata).IsRefused ∧
      ¬ (Observation.cmdOutput content key metadata).IsCompleted := by
  rw [Observation.IsRefused, Observation.IsCompleted, Observation.suffix, h, String.toList_ofList,
    interruptSuffix]
  exact ⟨not_prefix_append 3 (by decide) (by decide) (by decide) _,
    not_prefix_append 7 (by decide) (by decide) (by decide) _⟩

/-- An observation without metadata reports nothing. -/
lemma not_reported_plain {content : Text} {o : Observation} (h : plain content command = .ok o) :
    ¬ o.IsRefused ∧ ¬ o.IsCompleted := by
  obtain rfl := Except.ok.inj h
  rw [Observation.IsRefused, Observation.IsCompleted, Observation.suffix]
  decide

/-- The answer to a refused command reports no completion. -/
lemma not_completed_refuse : ¬ (refuse s command).IsCompleted := by
  rw [refuse, Observation.IsCompleted]
  dsimp only
  rw [Observation.suffix, String.toList_ofList, refusedSuffix]
  exact not_prefix_append 3 (by decide) (by decide) (by decide) _

/-- An exception in `_send_input` is returned as an error. -/
lemma caught_ok {text : Text} {r : Except PyError Observation} {o : Observation}
    (h : caught cfg text r = .ok o) : r = .ok o ∨ ∃ content, o = .error content := by
  rcases r with e | o'
  · exact Or.inr ⟨_, (Except.ok.inj h).symm⟩
  · exact Or.inl h

/-- Taking an event changes nothing else. -/
lemma takeEvent_agrees {event : Bool} (h : takeEvent event s = some s') : s.Agrees s' := by
  rw [takeEvent] at h
  split_ifs at h
  · obtain rfl := Option.some.inj h
    exact ⟨rfl, rfl, rfl, rfl⟩
  · obtain rfl := Option.some.inj h
    exact ⟨rfl, rfl, rfl, rfl⟩

/-- **A command is still running** exactly if one is in progress. -/
lemma commandStillRunning_spec (cfg : Shell ν) (s : Session ν) :
    (commandStillRunning cfg s).1 = s.commandInProgress ∧
    ((commandStillRunning cfg s).2 = s ∨
      (commandStillRunning cfg s).2 = (isCommandComplete cfg s).2) ∧
    (s.commandInProgress = false → (commandStillRunning cfg s).2 = s) := by
  have hidle (h : s.commandInProgress = false) : isCommandComplete cfg s = (true, s) := by
    rw [isCommandComplete, h]
    rfl
  have hkept := (isCommandComplete_frame cfg s).2.1
  rw [commandStillRunning]
  split_ifs
  · rcases hrun : s.commandInProgress with _ | _
    · rw [hidle hrun]
      exact ⟨hrun, Or.inl rfl, fun _ => rfl⟩
    · dsimp only
      rw [hkept, hrun, Bool.or_true]
      exact ⟨rfl, Or.inr rfl, nofun⟩
  · exact ⟨rfl, Or.inl rfl, fun _ => rfl⟩

/-- **A call** changes nothing, or waits for the running command, or sends to it, or is refused, or
starts a command. -/
lemma execute_cases {action : CmdRunAction ν} {pty : Pty} {tick : Tick} {st : State ν}
    (h : execute cfg s action pty tick = some st) :
    (∃ r, st = .done (s, r) ∧ ∀ o, r = .ok o → ¬ o.IsRefused ∧ ¬ o.IsCompleted) ∨
    (s.commandInProgress = true ∧ ∃ round, poll cfg false action.timeout s tick = some round ∧
      st = afterPoll (afterIncremental cfg) (.incremental action.timeout) round) ∨
    (strip action.command ≠ [] ∧ action.isInput = true ∧ s.commandInProgress = true ∧
      st = sendInput s (strip action.command) pty) ∨
    (s.commandInProgress = true ∧ ∃ s', (s' = s ∨ s' = (isCommandComplete cfg s).2) ∧
      st = .done (s', .ok (refuse s' (strip action.command)))) ∨
    (action.isInput = false ∧ s.commandInProgress = false ∧
      executeNewCommand cfg s (strip action.command) action pty tick = some st) := by
  have hquiet {content : Text} (heq : st = .done (s, .ok (.error content))) :
      ∃ r, st = .done (s, r) ∧ ∀ o, r = .ok o → ¬ o.IsRefused ∧ ¬ o.IsCompleted :=
    ⟨_, heq, fun o ho => Except.ok.inj ho ▸ not_reported_error _⟩
  by_cases hdead : pty = .dead
  · subst hdead
    exact Or.inl (hquiet (Option.some.inj h).symm)
  have halive : execute cfg s action pty tick = executeAlive cfg s action pty tick := by
    rw [execute]
    exact hdead
  rw [halive, executeAlive] at h
  dsimp only at h
  by_cases hempty : strip action.command = []
  · rw [if_pos hempty] at h
    split_ifs at h with hrun
    · obtain ⟨round, hround, rfl⟩ := Option.map_eq_some_iff.mp h
      exact Or.inr (Or.inl ⟨hrun, round, hround, rfl⟩)
    · exact Or.inl ⟨_, (Option.some.inj h).symm, fun o ho => not_reported_plain ho⟩
  rw [if_neg hempty] at h
  by_cases hinput : action.isInput = true
  · rw [if_pos hinput] at h
    split_ifs at h with hrun
    · exact Or.inr (Or.inr (Or.inl ⟨hempty, hinput, hrun, (Option.some.inj h).symm⟩))
    · exact Or.inl ⟨_, (Option.some.inj h).symm, fun o ho => not_reported_plain ho⟩
  rw [if_neg hinput] at h
  split at h
  · exact Or.inl ⟨_, (Option.some.inj h).symm, nofun⟩
  obtain ⟨hrunning, hsame, hidle⟩ := commandStillRunning_spec cfg s
  split_ifs at h with hmany hstill
  · exact Or.inl (hquiet (Option.some.inj h).symm)
  · exact Or.inr (Or.inr (Or.inr (Or.inl
      ⟨hrunning.symm.trans hstill, _, hsame, (Option.some.inj h).symm⟩)))
  · have hnone : s.commandInProgress = false := by
      rw [← hrunning]
      exact Bool.eq_false_of_not_eq_true hstill
    rw [hidle hnone] at h
    exact Or.inr (Or.inr (Or.inr (Or.inr ⟨Bool.eq_false_of_not_eq_true hinput, hnone, h⟩)))

end Frames

/-! ## The buffer -/

section Buffer

variable {cfg : Shell ν} {s : Session ν} {st st' : State ν}

/-- A wait for completion keeps the buffer. -/
lemma waitForCompletion_buffer (command : Text) (timeout : Option ν) (s : Session ν)
    (waited : Waited) :
    (waitForCompletion cfg command timeout s waited).1.outputBuffer = s.outputBuffer := by
  by_cases h : waited = .completed
  · subst h
    exact (waitForCompletion_completed cfg command timeout s).2.1
  · rcases (waitForCompletion_gaveUp cfg command timeout s h).1 with ⟨-, hagrees⟩ | ⟨-, hbuffer⟩
    · exact hagrees.buffer
    · exact hbuffer

/-- An empty command keeps the buffer. -/
lemma getIncrementalOutput_buffer (s : Session ν) (completed hardTimeoutReached : Bool) :
    (getIncrementalOutput cfg s completed hardTimeoutReached).1.outputBuffer = s.outputBuffer := by
  rw [getIncrementalOutput]
  rcases hms : matchesPs1Metadata cfg.interpreter s.outputBuffer with e | ms
  · rfl
  cases completed with
  | true => exact (completeIncremental_spec hms).2.1
  | false =>
    have hbuffer := (isCommandComplete_frame cfg s).1
    rcases hcomplete : isCommandComplete cfg s with ⟨_ | _, s'⟩
    · rw [hcomplete] at hbuffer
      simp only [hcomplete, Bool.false_eq_true, if_false]
      exact (continueIncremental_spec cfg s' ms hardTimeoutReached).1.buffer.trans hbuffer
    · rw [hcomplete] at hbuffer
      rw [← hbuffer] at hms
      simp only [hcomplete, Bool.false_eq_true, if_false, if_true]
      exact (completeIncremental_spec hms).2.1.trans hbuffer

/-- A round of a wait keeps the buffer if its end does. -/
lemma afterPoll_buffer {canNoChange : Bool} {timeout : Option ν} {tick : Tick} {phase : Phase ν}
    {finish : Session ν → Waited → Session ν × Except PyError Observation}
    {round : Session ν × Option Waited}
    (hfinish : ∀ s waited, (finish s waited).1.outputBuffer = s.outputBuffer)
    (h : poll cfg canNoChange timeout s tick = some round) :
    (afterPoll finish phase round).session.outputBuffer = s.outputBuffer := by
  have hbuffer := (isCommandComplete_frame cfg s).1
  rcases poll_cases h with ⟨-, rfl⟩ | ⟨-, rfl⟩ | ⟨-, rfl⟩ | ⟨-, s', hcomplete, rfl⟩ |
    ⟨-, s', hcomplete, rfl⟩
  · exact hfinish s _
  · exact hfinish s _
  · exact hfinish s _
  · rw [hcomplete] at hbuffer
    exact (hfinish s' _).trans hbuffer
  · rw [hcomplete] at hbuffer
    exact hbuffer

/-- The end of the wait of an empty command keeps the buffer. -/
lemma afterIncremental_buffer (s : Session ν) (waited : Waited) :
    (afterIncremental cfg s waited).1.outputBuffer = s.outputBuffer := by
  cases waited <;> exact getIncrementalOutput_buffer s _ _

/-- A call keeps the buffer, or empties it for a new command. -/
lemma execute_buffer {action : CmdRunAction ν} {pty : Pty} {tick : Tick}
    (h : execute cfg s action pty tick = some st') :
    st'.session.outputBuffer = s.outputBuffer ∨
      action.isInput = false ∧ s.commandInProgress = false ∧ st'.session.outputBuffer = [] := by
  rcases execute_cases h with ⟨result, rfl, -⟩ | ⟨-, round, hround, rfl⟩ | ⟨-, -, -, rfl⟩ |
    ⟨-, s', hsame, rfl⟩ | ⟨hinput, hidle, h⟩
  · exact Or.inl rfl
  · exact Or.inl (afterPoll_buffer afterIncremental_buffer hround)
  · left
    have hwait (text : Text) : (if text ∈ interruptKeys then ⟨s, .interrupt text, none⟩
        else ⟨s, .input text, none⟩ : State ν).session = s := by
      split_ifs <;> rfl
    cases pty with
    | unwritable message => rfl
    | _ => exact congrArg Session.outputBuffer (hwait _)
  · left
    rcases hsame with rfl | rfl
    · rfl
    · exact (isCommandComplete_frame cfg s).1
  · right
    refine ⟨hinput, hidle, ?_⟩
    have hempty (t : Session ν) (command : Text) (ht : t.outputBuffer = []) :
        (written t command).outputBuffer = [] := by
      rw [written]
      split_ifs <;> exact ht
    simp only [executeNewCommand, hidle, Bool.false_eq_true, if_false, Bool.false_and] at h
    cases pty with
    | dead => exact Option.some.inj h ▸ rfl
    | dies => exact Option.some.inj h ▸ rfl
    | unwritable message => exact Option.some.inj h ▸ hempty _ _ rfl
    | alive =>
      obtain ⟨round, hround, rfl⟩ := Option.map_eq_some_iff.mp h
      rw [afterPoll_buffer (waitForCompletion_buffer _ _) hround]
      exact hempty _ _ rfl

/-- What arrives in the steps of a run. -/
def arrived (labels : List (Label ν)) : Text :=
  labels.flatMap fun label => match label with
    | .output chunk => chunk
    | _ => []

/-- **A step appends what arrives** to the buffer, or empties it for a new command. -/
theorem step_buffer {label : Label ν} (h : step cfg st label = some st') :
    st'.session.outputBuffer = st.session.outputBuffer ++ arrived [label] ∨
      ∃ action pty tick, label = .execute action pty tick ∧ action.isInput = false ∧
        st.session.commandInProgress = false ∧ st'.session.outputBuffer = [] := by
  obtain ⟨s, phase, result⟩ := st
  have hkept (hquiet : arrived [label] = []) (hsame : st'.session.outputBuffer = s.outputBuffer) :
      st'.session.outputBuffer = s.outputBuffer ++ arrived [label] := by
    rw [hquiet, List.append_nil, hsame]
  cases label with
  | execute action pty tick =>
    cases phase with
    | idle =>
      rcases execute_buffer h with hbuffer | hnew
      · exact Or.inl (hkept rfl hbuffer)
      · exact Or.inr ⟨action, pty, tick, rfl, hnew⟩
    | _ => cases h
  | output chunk =>
    left
    obtain rfl := Option.some.inj h
    have hchunk : arrived [Label.output (ν := ν) chunk] = chunk := List.append_nil chunk
    rw [hchunk]
    exact (isCommandComplete_frame cfg _).1
  | wake event tick =>
    refine Or.inl (hkept rfl ?_)
    obtain ⟨t, htake, h⟩ := Option.bind_eq_some_iff.mp h
    have hbuffer := (takeEvent_agrees htake).buffer
    cases phase with
    | completion command timeout blocking lastOutput =>
      obtain ⟨round, hround, h⟩ := Option.bind_eq_some_iff.mp h
      obtain rfl := Option.some.inj h
      exact (afterPoll_buffer (waitForCompletion_buffer _ _) hround).trans hbuffer
    | incremental timeout =>
      obtain ⟨round, hround, h⟩ := Option.bind_eq_some_iff.mp h
      obtain rfl := Option.some.inj h
      exact (afterPoll_buffer afterIncremental_buffer hround).trans hbuffer
    | _ => cases h
  | event =>
    refine Or.inl (hkept rfl ?_)
    obtain ⟨t, htake, h⟩ := Option.bind_eq_some_iff.mp h
    have hbuffer := (takeEvent_agrees htake).buffer
    cases phase with
    | input text =>
      obtain rfl := Option.some.inj h
      rw [inputEvent]
      split
      · exact hbuffer
      · exact hbuffer
      · exact (handleCompletedCommand_spec cfg { t with usingWrapper := false } _).2.1.trans hbuffer
    | interrupt key =>
      obtain rfl := Option.some.inj h
      rw [interruptEvent]
      split
      · exact hbuffer
      · split <;> exact hbuffer
    | currentOutput text =>
      obtain rfl := Option.some.inj h
      exact hbuffer
    | _ => cases h
  | deadline =>
    refine Or.inl (hkept rfl ?_)
    cases phase with
    | idle => cases h
    | completion => cases h
    | incremental => cases h
    | _ => exact Option.some.inj h ▸ rfl

/-- **The buffer is what arrived since a command was sent**, or since the start. -/
def SinceSent (labels : List (Label ν)) (st : State ν) : Prop :=
  ∃ before after, labels = before ++ after ∧ st.session.outputBuffer = arrived after ∧
    (before = [] ∨ ∃ init action pty tick, before = init ++ [.execute action pty tick] ∧
      action.isInput = false)

/-- The buffer after a run. -/
theorem run_buffer {cwd : String} {labels : List (Label ν)}
    (hrun : Machine.run (step cfg) (start cwd) labels = some st) : SinceSent labels st := by
  have hstart : SinceSent [] (start cwd : State ν) := ⟨[], [], rfl, rfl, Or.inl rfl⟩
  have hend : SinceSent ([] ++ labels) st := by
    refine Machine.run_trace_invariant SinceSent (fun labels s label s' hinv hstep => ?_) hstart hrun
    obtain ⟨before, after, rfl, hbuffer, hbefore⟩ := hinv
    rcases step_buffer hstep with happend | ⟨action, pty, tick, rfl, hnew, -, hnil⟩
    · refine ⟨before, after ++ [label], List.append_assoc _ _ _, ?_, hbefore⟩
      rw [happend, hbuffer]
      exact List.flatMap_append.symm
    · exact ⟨before ++ after ++ [.execute action pty tick], [], (List.append_nil _).symm, hnil,
        Or.inr ⟨before ++ after, action, pty, tick, rfl, hnew⟩⟩
  exact hend

end Buffer

end ProRLAgent.Bash
