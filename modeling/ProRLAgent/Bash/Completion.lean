import ProRLAgent.Bash.Methods
import ProRLAgent.Lib.Machine

set_option relaxedAutoImplicit false
set_option autoImplicit false

/-!
# Reports of completion

A session keeps whether a prompt was seen since the command was sent, and the exit code that it had.
Only some of the methods that end a command forget them. A key that is sent as a command does not,
and is then reported as completed at once. The exit code of a report is the one of the prompt that
was seen first, if the report is not that of an empty command or of a key.

The buffer is emptied right before a command is sent, so what is in it arrived since then.

## Main definitions

* `ProRLAgent.Bash.Sound`, `ProRLAgent.Bash.Fresh` — what was seen is in the buffer.
* `ProRLAgent.Bash.Clean` — steps that do not use what was seen for an earlier prompt.

## Main results

* `ProRLAgent.Bash.completed_genuine` — a report of completion has the last exit code.
-/

namespace ProRLAgent.Bash

open FnCall (Text)
open Markers PyText Machine

variable {ν : Type} (cfg : Shell ν)

/-! ## What was seen -/

/-- **What was seen is in the buffer**, and what is in the buffer was seen. -/
structure Sound (s : Session ν) : Prop where
  found : s.commandInProgress = true → s.completionDetected = true →
    matchesPs1Metadata cfg.interpreter s.outputBuffer ≠ .ok []
  seen : s.commandInProgress = true → ∀ metadata,
    lastPrompt cfg.interpreter s.outputBuffer = some metadata → s.completionDetected = true

/-- **The exit code that was seen is the last one.** -/
def Fresh (s : Session ν) : Prop :=
  s.completionDetected = true → ∀ metadata ∈ lastPrompt cfg.interpreter s.outputBuffer,
    s.completionExitCode = some metadata.exitCode

instance decidableFresh (s : Session ν) : Decidable (Fresh cfg s) :=
  inferInstanceAs (Decidable (_ → ∀ metadata ∈ _, _))

variable {cfg}

section Sound

variable {s s' : Session ν}

/-- Without a command in progress nothing is said. -/
lemma sound_of_not_inProgress (h : s.commandInProgress = false) : Sound cfg s :=
  ⟨fun hrun => absurd (h.symm.trans hrun) nofun, fun hrun => absurd (h.symm.trans hrun) nofun⟩

/-- Other fields do not matter. -/
lemma Sound.of_agrees (h : Sound cfg s) (hagrees : s.Agrees s') : Sound cfg s' := by
  obtain ⟨hbuffer, hrun, -, hdetected⟩ := hagrees
  exact ⟨by rw [hbuffer, hrun, hdetected]; exact h.found, by rw [hbuffer, hrun, hdetected]; exact h.seen⟩

/-- Other fields do not matter. -/
lemma Fresh.of_agrees (h : Fresh cfg s) (hagrees : s.Agrees s') : Fresh cfg s' := by
  obtain ⟨hbuffer, -, hcode, hdetected⟩ := hagrees
  rw [Fresh, hbuffer, hcode, hdetected]
  exact h

/-- A prompt that is read is found. -/
lemma matches_ne_nil {buffer : Text} {metadata : CmdOutputMetadata}
    (h : lastPrompt cfg.interpreter buffer = some metadata) :
    matchesPs1Metadata cfg.interpreter buffer ≠ .ok [] := by
  obtain ⟨ms, last, hms, hlast, -⟩ := lastPrompt_eq_some_iff.mp h
  rw [hms]
  rintro heq
  rw [Except.ok.inj heq] at hlast
  cases hlast

/-- A prompt in the beginning of a buffer is one of the buffer. -/
lemma matches_append_ne_nil {x y : Text}
    (h : matchesPs1Metadata cfg.interpreter x ≠ .ok []) :
    matchesPs1Metadata cfg.interpreter (x ++ y) ≠ .ok [] := fun heq =>
  h (matchesPs1Metadata_append heq)

/-- **Looking for a prompt** makes what was seen sound. -/
lemma sound_isCommandComplete (hfound : s.commandInProgress = true → s.completionDetected = true →
    matchesPs1Metadata cfg.interpreter s.outputBuffer ≠ .ok []) :
    Sound cfg (isCommandComplete cfg s).2 := by
  rcases isCommandComplete_cases cfg s with ⟨h, hquiet⟩ | ⟨metadata, h, -, -, hlast⟩ | ⟨h, -, -, hnone⟩
  · rw [h]
    rcases hquiet with hrun | hdetected
    · exact sound_of_not_inProgress hrun
    · exact ⟨hfound, fun _ _ _ => hdetected⟩
  · rw [h]
    exact ⟨fun _ _ => matches_ne_nil hlast, fun _ _ _ => rfl⟩
  · rw [h]
    refine ⟨hfound, fun _ metadata hlast => ?_⟩
    exact absurd (hnone.symm.trans hlast) nofun

/-- A prompt that is found just now is the last one. -/
lemma Fresh.isCommandComplete (h : Fresh cfg s) : Fresh cfg (isCommandComplete cfg s).2 := by
  rcases isCommandComplete_cases cfg s with ⟨heq, -⟩ | ⟨metadata, heq, -, -, hlast⟩ | ⟨heq, -⟩
  · rwa [heq]
  · rw [heq]
    intro _ metadata' hmem
    rw [hlast] at hmem
    rw [Option.some.inj hmem]
  · rwa [heq]

/-- A command that is in progress and complete was seen to be. -/
lemma detected_of_complete (hrun : s.commandInProgress = true)
    (h : isCommandComplete cfg s = (true, s')) : s'.completionDetected = true := by
  rcases isCommandComplete_cases cfg s with ⟨heq, hquiet⟩ | ⟨metadata, heq, -⟩ | ⟨heq, -⟩
  · obtain rfl : s = s' := congrArg Prod.snd (heq.symm.trans h)
    exact hquiet.resolve_left fun hnot => absurd (hnot.symm.trans hrun) nofun
  · obtain rfl := congrArg Prod.snd (heq.symm.trans h)
    rfl
  · exact absurd (congrArg Prod.fst (heq.symm.trans h)) nofun

end Sound

/-! ## The invariant -/

variable (cfg)

/-- The waits that report the exit code that was seen. -/
def Phase.reportsSeen : Phase ν → Bool
  | .completion .. | .input _ => true
  | _ => false

/-- **The invariant**: a wait has a command in progress, and what was seen is in the buffer. -/
structure Inv (st : State ν) : Prop where
  sound : Sound cfg st.session
  inProgress : st.phase ≠ .idle → st.session.commandInProgress = true
  fresh : st.phase.reportsSeen = true → Fresh cfg st.session

/-- **A genuine result**: a report of completion has the exit code of the last prompt in the
buffer. -/
def Genuine (buffer : Text) (result : Except PyError Observation) : Prop :=
  ∀ o, result = .ok o → o.IsCompleted → ∃ metadata,
    lastPrompt cfg.interpreter buffer = some metadata ∧ o.exitCode? = some metadata.exitCode

/-- The invariant, with a genuine result. -/
structure Good (st : State ν) : Prop where
  inv : Inv cfg st
  genuine : ∀ result ∈ st.result, Genuine cfg st.session.outputBuffer result

variable {cfg}

section Good

variable {s s' : Session ν} {r : Session ν × Except PyError Observation}

/-- The end of a call. -/
lemma good_done (hsound : Sound cfg r.1) (hgenuine : Genuine cfg r.1.outputBuffer r.2) :
    Good cfg (State.done r) :=
  ⟨⟨hsound, fun h => absurd rfl h, nofun⟩, fun result hresult => by
    obtain rfl := Option.some.inj hresult
    exact hgenuine⟩

/-- A wait. -/
lemma good_wait {phase : Phase ν} (hsound : Sound cfg s) (hrun : s.commandInProgress = true)
    (hfresh : phase.reportsSeen = true → Fresh cfg s) : Good cfg ⟨s, phase, none⟩ :=
  ⟨⟨hsound, fun _ => hrun, hfresh⟩, fun _ hresult => absurd hresult (Option.not_mem_none _)⟩

/-- A result that reports no completion. -/
lemma genuine_of_not_completed {buffer : Text} {result : Except PyError Observation}
    (h : ∀ o, result = .ok o → ¬ o.IsCompleted) : Genuine cfg buffer result :=
  fun o ho hcompleted => absurd hcompleted (h o ho)

/-- What is parsed in a buffer with a prompt is the last prompt, and its exit code was seen. -/
lemma exists_lastPrompt (hsound : Sound cfg s) (hfresh : Fresh cfg s)
    (hrun : s.commandInProgress = true)
    (hne : matchesPs1Metadata cfg.interpreter s.outputBuffer ≠ .ok [])
    (hparsed : ∃ parsed, parsePs1Metadata cfg s.outputBuffer = .ok parsed) :
    ∃ metadata, lastPrompt cfg.interpreter s.outputBuffer = some metadata ∧
      s.completionExitCode.getD (-1) = metadata.exitCode := by
  obtain ⟨parsed, hparsed⟩ := hparsed
  have hlast := (parsePs1Metadata_ok hparsed).resolve_right hne
  refine ⟨parsed, hlast, ?_⟩
  rw [hfresh (hsound.seen hrun parsed hlast) parsed hlast]
  rfl

/-- **The wait for completion.** -/
lemma good_completion {command : Text} {timeout : Option ν} {canNoChange blocking : Bool}
    {tick : Tick} {lastOutput : Text} {round : Session ν × Option Waited} (hsound : Sound cfg s)
    (hrun : s.commandInProgress = true) (hfresh : Fresh cfg s)
    (h : poll cfg canNoChange timeout s tick = some round) :
    Good cfg (afterPoll (waitForCompletion cfg command timeout)
      (.completion command timeout blocking lastOutput) round) := by
  have hgaveUp {waited : Waited} (hwaited : waited ≠ .completed) :
      Good cfg (State.done (waitForCompletion cfg command timeout s waited)) := by
    obtain ⟨hframe, hresult⟩ := waitForCompletion_gaveUp cfg command timeout s hwaited
    refine good_done ?_ (genuine_of_not_completed fun o ho => (hresult o ho).2)
    rcases hframe with ⟨-, hagrees⟩ | ⟨hended, -⟩
    · exact hsound.of_agrees hagrees
    · exact sound_of_not_inProgress hended
  have hnext := sound_isCommandComplete hsound.found
  obtain ⟨hbuffer, hstill, -⟩ := isCommandComplete_frame cfg s
  rcases poll_cases h with ⟨-, rfl⟩ | ⟨-, rfl⟩ | ⟨-, rfl⟩ | ⟨-, s', hcomplete, rfl⟩ |
    ⟨-, s', hcomplete, rfl⟩
  · exact hgaveUp nofun
  · exact hgaveUp nofun
  · exact hgaveUp nofun
  · -- The command is complete.
    have hdetected := detected_of_complete hrun hcomplete
    have hfresh' := hfresh.isCommandComplete
    rw [hcomplete] at hnext hbuffer hstill hfresh'
    obtain ⟨hended, hkept, hresult⟩ := waitForCompletion_completed cfg command timeout s'
    refine good_done (sound_of_not_inProgress hended) fun o ho hcompleted => ?_
    obtain ⟨hparsed, hcode⟩ := (hresult o ho).2 hcompleted
    have hrun' := hstill.trans hrun
    obtain ⟨metadata, hlast, hexit⟩ :=
      exists_lastPrompt hnext hfresh' hrun' (hnext.found hrun' hdetected) hparsed
    rw [hkept]
    exact ⟨metadata, hlast, hcode.trans (congrArg some hexit)⟩
  · have hfresh' := hfresh.isCommandComplete
    rw [hcomplete] at hnext hstill hfresh'
    exact good_wait hnext (hstill.trans hrun) fun _ => hfresh'

/-- An empty command that completes the command. -/
lemma good_completeIncremental {ms : List (Found Char)} (hsound : Sound cfg s)
    (hrun : s.commandInProgress = true) (hdetected : s.completionDetected = true)
    (hms : matchesPs1Metadata cfg.interpreter s.outputBuffer = .ok ms) :
    Good cfg (State.done (completeIncremental cfg s ms)) := by
  obtain ⟨hended, hkept, hresult⟩ := completeIncremental_spec hms
  refine good_done (sound_of_not_inProgress hended) fun o ho _ => ?_
  rw [hkept]
  rcases (hresult o ho).2 with rfl | hlast
  · exact absurd hms (hsound.found hrun hdetected)
  · exact hlast

/-- **An empty command** behind its wait. -/
lemma good_getIncrementalOutput {completed hardTimeoutReached : Bool} (hsound : Sound cfg s)
    (hrun : s.commandInProgress = true)
    (hdetected : completed = true → s.completionDetected = true) :
    Good cfg (State.done (getIncrementalOutput cfg s completed hardTimeoutReached)) := by
  rw [getIncrementalOutput]
  rcases hms : matchesPs1Metadata cfg.interpreter s.outputBuffer with e | ms
  · exact good_done hsound (genuine_of_not_completed fun o ho => by cases ho)
  cases completed with
  | true => exact good_completeIncremental hsound hrun (hdetected rfl) hms
  | false =>
    have hnext := sound_isCommandComplete hsound.found
    obtain ⟨hbuffer, hstill, -⟩ := isCommandComplete_frame cfg s
    rcases hcomplete : isCommandComplete cfg s with ⟨_ | _, s'⟩
    · rw [hcomplete] at hnext
      obtain ⟨hagrees, hresult⟩ := continueIncremental_spec cfg s' ms hardTimeoutReached
      simp only [hcomplete, Bool.false_eq_true, if_false]
      exact good_done (hnext.of_agrees hagrees)
        (genuine_of_not_completed fun o ho => (hresult o ho).2)
    · have hseen := detected_of_complete hrun hcomplete
      rw [hcomplete] at hnext hbuffer hstill
      simp only [hcomplete, Bool.false_eq_true, if_false, if_true]
      exact good_completeIncremental hnext (hstill.trans hrun) hseen (by rw [hbuffer]; exact hms)

/-- **The wait of an empty command.** -/
lemma good_incremental {timeout : Option ν} {tick : Tick} {round : Session ν × Option Waited}
    (hsound : Sound cfg s) (hrun : s.commandInProgress = true)
    (h : poll cfg false timeout s tick = some round) :
    Good cfg (afterPoll (afterIncremental cfg) (.incremental timeout) round) := by
  have hnext := sound_isCommandComplete hsound.found
  obtain ⟨-, hstill, -⟩ := isCommandComplete_frame cfg s
  rcases poll_cases h with ⟨-, rfl⟩ | ⟨-, rfl⟩ | ⟨-, rfl⟩ | ⟨-, s', hcomplete, rfl⟩ |
    ⟨-, s', hcomplete, rfl⟩
  · exact good_getIncrementalOutput hsound hrun nofun
  · exact good_getIncrementalOutput hsound hrun nofun
  · exact good_getIncrementalOutput hsound hrun nofun
  · have hseen := detected_of_complete hrun hcomplete
    rw [hcomplete] at hnext hstill
    exact good_getIncrementalOutput hnext (hstill.trans hrun) fun _ => hseen
  · rw [hcomplete] at hnext hstill
    exact good_wait hnext (hstill.trans hrun) nofun

/-- An output event behind an input. -/
lemma good_inputEvent {text : Text} (hsound : Sound cfg s) (hrun : s.commandInProgress = true)
    (hfresh : Fresh cfg s) : Good cfg (inputEvent cfg s text) := by
  rw [inputEvent]
  split
  · refine good_done hsound (genuine_of_not_completed fun o ho => ?_)
    obtain rfl := Except.ok.inj ho
    exact (not_reported_error _).2
  · exact good_wait hsound hrun fun _ => hfresh
  · next hms =>
    dsimp only
    generalize (if s.currentCommand ≠ [] then s.currentCommand else text) = command
    have hagrees : s.Agrees { s with usingWrapper := false } := ⟨rfl, rfl, rfl, rfl⟩
    obtain ⟨hended, hkept, hresult⟩ :=
      handleCompletedCommand_spec cfg { s with usingWrapper := false } command
    refine good_done (sound_of_not_inProgress hended) fun o ho hcompleted => ?_
    rcases caught_ok ho with ho | ⟨content, rfl⟩
    · obtain ⟨-, hparsed, hcode⟩ := hresult o ho
      obtain ⟨metadata, hlast, hexit⟩ := exists_lastPrompt (hsound.of_agrees hagrees)
        (hfresh.of_agrees hagrees) hrun (fun heq => by rw [hms] at heq; cases heq) hparsed
      refine ⟨metadata, ?_, hcode.trans (congrArg some hexit)⟩
      dsimp only
      rw [hkept]
      exact hlast
    · exact absurd hcompleted (not_reported_error _).2

/-- An output event behind a key. -/
lemma good_interruptEvent {key : Text} (hsound : Sound cfg s) (hrun : s.commandInProgress = true) :
    Good cfg (interruptEvent cfg s key) := by
  rw [interruptEvent]
  split
  · refine good_done hsound (genuine_of_not_completed fun o ho => ?_)
    obtain rfl := Except.ok.inj ho
    exact (not_reported_error _).2
  · next ms hms =>
    split
    · exact good_wait hsound hrun fun hreports => absurd hreports Bool.false_ne_true
    · next last hlast =>
      refine good_done (sound_of_not_inProgress rfl) fun o ho hcompleted => ?_
      rcases caught_ok ho with ho | ⟨content, rfl⟩
      · obtain ⟨-, metadata, hread, hcode⟩ := interruptedOutput_ok ho
        exact ⟨metadata, lastPrompt_eq_some_iff.mpr ⟨ms, last, hms, hlast, hread⟩, hcode⟩
      · exact absurd hcompleted (not_reported_error _).2

/-- The output so far. -/
lemma good_currentOutputDone {text : Text} (hsound : Sound cfg s)
    (hrun : s.commandInProgress = true) : Good cfg (currentOutputDone cfg s text) := by
  refine good_done hsound (genuine_of_not_completed fun o ho => ?_)
  rcases caught_ok ho with ho | ⟨content, rfl⟩
  · exact (getCurrentOutput_ok ho).2 hrun
  · exact (not_reported_error _).2

/-- **Output that arrives.** -/
lemma good_receive {phase : Phase ν} {result : Option (Except PyError Observation)} {chunk : Text}
    (h : Inv cfg ⟨s, phase, result⟩) (hclean : phase.reportsSeen = true →
      Fresh cfg { s with outputBuffer := s.outputBuffer ++ chunk }) :
    Good cfg ⟨receive cfg s chunk, phase, none⟩ := by
  have hfound : s.commandInProgress = true → s.completionDetected = true →
      matchesPs1Metadata cfg.interpreter (s.outputBuffer ++ chunk) ≠ .ok [] := fun hrun hdetected =>
    matches_append_ne_nil (h.sound.found hrun hdetected)
  obtain ⟨-, hstill, -⟩ := isCommandComplete_frame cfg
    { s with outputBuffer := s.outputBuffer ++ chunk, outputReady := true }
  exact ⟨⟨sound_isCommandComplete hfound, fun hphase => hstill.trans (h.inProgress hphase),
    fun hreports => Fresh.isCommandComplete (hclean hreports)⟩,
    fun _ hresult => absurd hresult (Option.not_mem_none _)⟩

end Good

/-! ## Runs -/

variable (cfg)

/-- **Clean steps**: no key is sent as a command while an earlier prompt counts as seen, no text is
sent to a command after a prompt with another exit code than the one that was seen, and no such
prompt arrives while a wait would report the one that was seen. -/
def Clean (st : State ν) : Label ν → Prop
  | .execute action _ _ =>
    let command := strip action.command
    (action.isInput = false → isSpecialKey command = true → st.session.commandInProgress = false →
      st.session.completionDetected = false) ∧
    (action.isInput = true → command ≠ [] → command ∉ interruptKeys →
      st.session.commandInProgress = true → Fresh cfg st.session)
  | .output chunk => st.phase.reportsSeen = true →
    Fresh cfg { st.session with outputBuffer := st.session.outputBuffer ++ chunk }
  | _ => True

instance decidableClean (st : State ν) (label : Label ν) : Decidable (Clean cfg st label) :=
  match label with
  | .execute .. => inferInstanceAs (Decidable ((_ → _ → _ → _) ∧ (_ → _ → _ → _ → Fresh cfg _)))
  | .output _ => inferInstanceAs (Decidable (_ → Fresh cfg _))
  | .wake .. | .event | .deadline => instDecidableTrue

variable {cfg}

section Step

variable {s : Session ν} {st st' : State ν}

/-- **A new command.** -/
lemma good_executeNewCommand {command : Text} {action : CmdRunAction ν} {pty : Pty} {tick : Tick}
    (hidle : s.commandInProgress = false)
    (hkey : isSpecialKey command = true → s.completionDetected = false)
    (h : executeNewCommand cfg s command action pty tick = some st') : Good cfg st' := by
  have hfailed (t : Session ν) (message : Text) : Good cfg (executeFailed t message) := by
    refine good_done (sound_of_not_inProgress rfl) (genuine_of_not_completed fun o ho => ?_)
    obtain rfl := Except.ok.inj ho
    exact (not_reported_error _).2
  simp only [executeNewCommand, hidle, Bool.false_eq_true, if_false, Bool.false_and] at h
  cases pty with
  | dead => exact Option.some.inj h ▸ hfailed _ _
  | dies => exact Option.some.inj h ▸ hfailed _ _
  | unwritable message => exact Option.some.inj h ▸ hfailed _ _
  | alive =>
    obtain ⟨round, hround, rfl⟩ := Option.map_eq_some_iff.mp h
    have hreset : (written (prepared s command) command).completionDetected = false ∧
        (written (prepared s command) command).commandInProgress = true ∧
        (written (prepared s command) command).outputBuffer = [] := by
      rw [written]
      split_ifs with hspecial
      · exact ⟨hkey hspecial, rfl, rfl⟩
      · exact ⟨rfl, rfl, rfl⟩
    obtain ⟨hunseen, hrun, hempty⟩ := hreset
    have hsound : Sound cfg (written (prepared s command) command) := by
      refine ⟨fun _ hseen => absurd (hunseen.symm.trans hseen) Bool.false_ne_true, fun _ metadata hlast => ?_⟩
      rw [hempty] at hlast
      cases hlast
    exact good_completion hsound hrun
      (fun hseen => absurd (hunseen.symm.trans hseen) Bool.false_ne_true) hround

/-- An input or a key. -/
lemma good_sendInput {text : Text} {pty : Pty} (hsound : Sound cfg s)
    (hrun : s.commandInProgress = true) (hfresh : text ∉ interruptKeys → Fresh cfg s) :
    Good cfg (sendInput s text pty) := by
  have hwait : Good cfg (if text ∈ interruptKeys then ⟨s, .interrupt text, none⟩
      else ⟨s, .input text, none⟩ : State ν) := by
    split_ifs with hkeys
    · exact good_wait hsound hrun nofun
    · exact good_wait hsound hrun fun _ => hfresh hkeys
  cases pty with
  | unwritable message =>
    refine good_done hsound (genuine_of_not_completed fun o ho => ?_)
    obtain rfl := Except.ok.inj ho
    exact (not_reported_error _).2
  | _ => exact hwait

/-- **A call.** -/
lemma good_execute {action : CmdRunAction ν} {pty : Pty} {tick : Tick} (hsound : Sound cfg s)
    (hclean : Clean cfg ⟨s, .idle, none⟩ (.execute action pty tick))
    (h : execute cfg s action pty tick = some st') : Good cfg st' := by
  obtain ⟨hkey, hinput⟩ := hclean
  rcases execute_cases h with ⟨result, rfl, hquiet⟩ | ⟨hrun, round, hround, rfl⟩ |
    ⟨hne, hisInput, hrun, rfl⟩ | ⟨hrun, s', hsame, rfl⟩ | ⟨hisInput, hidle, h⟩
  · exact good_done hsound (genuine_of_not_completed fun o ho => (hquiet o ho).2)
  · exact good_incremental hsound hrun hround
  · exact good_sendInput hsound hrun fun hkeys => hinput hisInput hne hkeys hrun
  · have hsound' : Sound cfg s' := by
      rcases hsame with rfl | rfl
      · exact hsound
      · exact sound_isCommandComplete hsound.found
    refine good_done hsound' (genuine_of_not_completed fun o ho => ?_)
    obtain rfl := Except.ok.inj ho
    exact not_completed_refuse
  · exact good_executeNewCommand hidle (fun hspecial => hkey hisInput hspecial hidle) h

/-- **A step** from the invariant. -/
lemma good_step {label : Label ν} (hinv : Inv cfg st) (hclean : Clean cfg st label)
    (h : step cfg st label = some st') : Good cfg st' := by
  obtain ⟨s, phase, result⟩ := st
  have hsound : Sound cfg s := hinv.sound
  cases label with
  | execute action pty tick =>
    cases phase with
    | idle => exact good_execute hsound hclean h
    | _ => cases h
  | output chunk =>
    obtain rfl := Option.some.inj h
    exact good_receive hinv hclean
  | wake event tick =>
    obtain ⟨t, htake, h⟩ := Option.bind_eq_some_iff.mp h
    have hagrees := takeEvent_agrees htake
    cases phase with
    | completion command timeout blocking lastOutput =>
      obtain ⟨round, hround, h⟩ := Option.bind_eq_some_iff.mp h
      obtain rfl := Option.some.inj h
      exact good_completion (hsound.of_agrees hagrees)
        (hagrees.inProgress.trans (hinv.inProgress nofun)) ((hinv.fresh rfl).of_agrees hagrees) hround
    | incremental timeout =>
      obtain ⟨round, hround, h⟩ := Option.bind_eq_some_iff.mp h
      obtain rfl := Option.some.inj h
      exact good_incremental (hsound.of_agrees hagrees)
        (hagrees.inProgress.trans (hinv.inProgress nofun)) hround
    | _ => cases h
  | event =>
    obtain ⟨t, htake, h⟩ := Option.bind_eq_some_iff.mp h
    have hagrees := takeEvent_agrees htake
    cases phase with
    | input text =>
      obtain rfl := Option.some.inj h
      exact good_inputEvent (hsound.of_agrees hagrees)
        (hagrees.inProgress.trans (hinv.inProgress nofun)) ((hinv.fresh rfl).of_agrees hagrees)
    | interrupt key =>
      obtain rfl := Option.some.inj h
      exact good_interruptEvent (hsound.of_agrees hagrees)
        (hagrees.inProgress.trans (hinv.inProgress nofun))
    | currentOutput text =>
      obtain rfl := Option.some.inj h
      exact good_currentOutputDone (hsound.of_agrees hagrees)
        (hagrees.inProgress.trans (hinv.inProgress nofun))
    | _ => cases h
  | deadline =>
    cases phase with
    | input text =>
      obtain rfl := Option.some.inj h
      exact good_wait hsound (hinv.inProgress nofun) nofun
    | interrupt key =>
      obtain rfl := Option.some.inj h
      refine good_done (sound_of_not_inProgress rfl) (genuine_of_not_completed fun o ho => ?_)
      obtain rfl := Except.ok.inj ho
      exact (not_reported_interrupt rfl).2
    | currentOutput text =>
      obtain rfl := Option.some.inj h
      exact good_currentOutputDone hsound (hinv.inProgress nofun)
    | _ => cases h

end Step

/-- **Reports of completion are genuine** in every run of clean steps: what arrived since the command
was sent has a prompt, and the exit code is that of the last one. -/
theorem completed_genuine {cwd : String} {labels : List (Label ν)} {st : State ν}
    (hrun : run (guarded (step cfg) (Clean cfg)) (start cwd) labels = some st) {o : Observation}
    (hresult : st.result = some (.ok o)) (hcompleted : o.IsCompleted) :
    SinceSent labels st ∧ ∃ metadata,
      lastPrompt cfg.interpreter st.session.outputBuffer = some metadata ∧
        o.exitCode? = some metadata.exitCode := by
  have hstart : Good cfg (start cwd) :=
    ⟨⟨sound_of_not_inProgress rfl, fun h => absurd rfl h, nofun⟩,
      fun _ hresult => absurd hresult (Option.not_mem_none _)⟩
  have hgood : Good cfg st := by
    refine run_invariant (Good cfg) (fun s a s' hs hstep => ?_) hstart hrun
    obtain ⟨hclean, hstep⟩ := guarded_eq_some.mp hstep
    exact good_step hs.inv hclean hstep
  exact ⟨run_buffer (run_of_guarded hrun), hgood.genuine _ hresult o rfl hcompleted⟩

/-- A command, its output with a prompt, and the wait that sees it. -/
def echoRun : List (Label Truncated) :=
  [.execute { command := "echo hi".toList } .alive .check,
    .output (echo false "echo hi".toList ++ ("hi".toList ++ samplePrompt 0)), .wake true .check]

/-- The command `echo hi` is reported as completed. -/
theorem completed_genuine_echo :
    ∃ st o, run (guarded (step sampleShell) (Clean sampleShell)) (start "/") echoRun = some st ∧
      st.result = some (.ok o) ∧ o.IsCompleted ∧ SinceSent echoRun st ∧ ∃ metadata,
        lastPrompt sampleShell.interpreter st.session.outputBuffer = some metadata ∧
          o.exitCode? = some metadata.exitCode := by
  have hsome : ((run (guarded (step sampleShell) (Clean sampleShell)) (start "/") echoRun).bind
      fun st => st.observation?.filter (·.IsCompleted)).isSome := by
    delta echoRun echo wrapCommand wrapperHead wrapperTail
    repeat rw [String.toList_append]
    repeat rw [String.toList_ofList]
    decide +kernel
  obtain ⟨o, ho⟩ := Option.isSome_iff_exists.mp hsome
  obtain ⟨st, hrun, ho⟩ := Option.bind_eq_some_iff.mp ho
  obtain ⟨ho, hcompleted⟩ := Option.filter_eq_some_iff.mp ho
  have hresult := State.result_of_observation ho
  exact ⟨st, o, hrun, hresult, of_decide_eq_true hcompleted,
    completed_genuine hrun hresult (of_decide_eq_true hcompleted)⟩

/-- A command that times out, is completed by an empty command, and is followed by a key. -/
def keyRun : List (Label Truncated) :=
  [.execute { command := "sleep 9".toList, timeout := some (.whole 5) } .alive .check,
    .wake false .hardTimeout, .execute { command := [] } .alive .check,
    .output (echo false "sleep 9".toList ++ samplePrompt 0), .wake true .check,
    .execute { command := "C-c".toList } .alive .check]

/-- The key is reported as completed, and nothing has arrived. -/
theorem not_completed_genuine_key :
    ∃ st o, run (step sampleShell) (start "/") keyRun = some st ∧ st.result = some (.ok o) ∧
      o.IsCompleted ∧ o.exitCode? = some 0 ∧ st.session.outputBuffer = [] ∧
      ¬ ∃ metadata, lastPrompt sampleShell.interpreter st.session.outputBuffer = some metadata ∧
        o.exitCode? = some metadata.exitCode := by
  have hsome : ((run (step sampleShell) (start "/") keyRun).bind fun st =>
      (st.observation?.filter fun o => o.IsCompleted ∧ o.exitCode? = some 0 ∧
        st.session.outputBuffer = [])).isSome := by
    delta keyRun echo wrapCommand wrapperHead wrapperTail
    repeat rw [String.toList_append]
    repeat rw [String.toList_ofList]
    decide +kernel
  obtain ⟨o, ho⟩ := Option.isSome_iff_exists.mp hsome
  obtain ⟨st, hrun, ho⟩ := Option.bind_eq_some_iff.mp ho
  obtain ⟨ho, hfacts⟩ := Option.filter_eq_some_iff.mp ho
  obtain ⟨hcompleted, hcode, hempty⟩ := of_decide_eq_true hfacts
  refine ⟨st, o, hrun, State.result_of_observation ho, hcompleted, hcode, hempty, ?_⟩
  rintro ⟨metadata, hlast, -⟩
  rw [hempty] at hlast
  cases hlast

end ProRLAgent.Bash
