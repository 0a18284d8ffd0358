import ProRLAgent.Bash.Methods
import ProRLAgent.Lib.Machine

set_option relaxedAutoImplicit false
set_option autoImplicit false

/-!
# Commands that are refused

A new command is refused while one is in progress. A command is in progress until a wait sees its
prompt: a prompt that arrives when no call waits is noticed by the next empty command only, and a
wait that gives up does not look for one.

A refused command changes nothing that is read later.

## Main definitions

* `ProRLAgent.Bash.Noticed` — steps that leave no prompt unnoticed.

## Main results

* `ProRLAgent.Bash.refused_while_running` — a command is refused only if no prompt is in the buffer.
-/

namespace ProRLAgent.Bash

open FnCall (Text)
open Markers PyText Machine

variable {ν : Type} (cfg : Shell ν)

/-! ## The invariant -/

/-- No prompt is in the buffer. -/
def NoPrompt (buffer : Text) : Prop := matchesPs1Metadata cfg.interpreter buffer = .ok []

instance decidableNoPrompt (buffer : Text) : Decidable (NoPrompt cfg buffer) :=
  inferInstanceAs (Decidable (_ = _))

/-- No text between two markers is too much for `json.loads`. -/
def Searchable (buffer : Text) : Prop := (matchesPs1Metadata cfg.interpreter buffer).isOk = true

instance decidableSearchable (buffer : Text) : Decidable (Searchable cfg buffer) :=
  inferInstanceAs (Decidable (_ = _))

/-- **The invariant**: when no call waits, a command in progress has no prompt in the buffer. -/
structure Kept (st : State ν) : Prop where
  noPrompt : st.phase = .idle → st.session.commandInProgress = true →
    NoPrompt cfg st.session.outputBuffer

/-- No command was refused. -/
def Unrefused (result : Except PyError Observation) : Prop := ∀ o, result = .ok o → ¬ o.IsRefused

/-- The invariant, with a result that is no refusal. -/
structure Accepted (st : State ν) : Prop where
  kept : Kept cfg st
  unrefused : ∀ result ∈ st.result, Unrefused result

variable {cfg}

section Accepted

variable {s s' : Session ν} {r : Session ν × Except PyError Observation}

/-- The end of a call. -/
lemma accepted_done (hresult : Unrefused r.2)
    (h : r.1.commandInProgress = true → NoPrompt cfg r.1.outputBuffer) :
    Accepted cfg (State.done r) :=
  ⟨⟨fun _ => h⟩, fun result hmem => by
    obtain rfl := Option.some.inj hmem
    exact hresult⟩

/-- The end of a call that ends the command. -/
lemma accepted_ended (hresult : Unrefused r.2) (h : r.1.commandInProgress = false) :
    Accepted cfg (State.done r) :=
  accepted_done hresult fun hrun => absurd (h.symm.trans hrun) nofun

/-- A wait. -/
lemma accepted_wait {phase : Phase ν} (h : phase ≠ .idle) : Accepted cfg ⟨s, phase, none⟩ :=
  ⟨⟨fun hidle => absurd hidle h⟩, nofun⟩

/-- An error is no refusal. -/
lemma unrefused_error (content : Text) : Unrefused (.ok (.error content)) := fun _ ho =>
  Except.ok.inj ho ▸ (not_reported_error _).1

/-- An exception in `_send_input` is no refusal. -/
lemma unrefused_caught {text : Text} {result : Except PyError Observation} (h : Unrefused result) :
    Unrefused (caught cfg text result) := fun o ho => by
  rcases caught_ok ho with ho | ⟨content, rfl⟩
  · exact h o ho
  · exact (not_reported_error _).1

/-- **The wait for completion.** -/
lemma accepted_completion {command : Text} {timeout : Option ν} {canNoChange blocking : Bool}
    {tick : Tick} {lastOutput : Text} {round : Session ν × Option Waited}
    (hgiveUp : tick = .hardTimeout ∨ tick = .noChange → NoPrompt cfg s.outputBuffer)
    (h : poll cfg canNoChange timeout s tick = some round) :
    Accepted cfg (afterPoll (waitForCompletion cfg command timeout)
      (.completion command timeout blocking lastOutput) round) := by
  have hgaveUp {waited : Waited} (hwaited : waited ≠ .completed)
      (hnone : waited ≠ .interrupted → NoPrompt cfg s.outputBuffer) :
      Accepted cfg (State.done (waitForCompletion cfg command timeout s waited)) := by
    obtain ⟨hframe, hresult⟩ := waitForCompletion_gaveUp cfg command timeout s hwaited
    refine accepted_done (fun o ho => (hresult o ho).1) fun hrun => ?_
    rcases hframe with ⟨hne, hagrees⟩ | ⟨hended, -⟩
    · rw [hagrees.buffer]
      exact hnone hne
    · exact absurd (hended.symm.trans hrun) nofun
  rcases poll_cases h with ⟨-, rfl⟩ | ⟨htick, rfl⟩ | ⟨htick, rfl⟩ | ⟨-, s', -, rfl⟩ | ⟨-, s', -, rfl⟩
  · exact hgaveUp nofun fun hne => absurd rfl hne
  · exact hgaveUp nofun fun _ => hgiveUp (Or.inl htick)
  · exact hgaveUp nofun fun _ => hgiveUp (Or.inr htick)
  · obtain ⟨hended, -, hresult⟩ := waitForCompletion_completed cfg command timeout s'
    exact accepted_ended (fun o ho => (hresult o ho).1) hended
  · exact accepted_wait nofun

/-- **An empty command** behind its wait. -/
lemma accepted_getIncrementalOutput {completed hardTimeoutReached : Bool}
    (hsearch : Searchable cfg s.outputBuffer) (hread : completed = false →
      NoPrompt cfg s.outputBuffer ∨ (isCommandComplete cfg s).1 = true) :
    Accepted cfg (State.done (getIncrementalOutput cfg s completed hardTimeoutReached)) := by
  rw [getIncrementalOutput]
  rw [Searchable] at hsearch
  rcases hms : matchesPs1Metadata cfg.interpreter s.outputBuffer with e | ms
  · rw [hms] at hsearch
    cases hsearch
  cases completed with
  | true =>
    obtain ⟨hended, -, hresult⟩ := completeIncremental_spec hms
    exact accepted_ended (fun o ho => (hresult o ho).1) hended
  | false =>
    have hbuffer := (isCommandComplete_frame cfg s).1
    have hread := hread rfl
    rcases hcomplete : isCommandComplete cfg s with ⟨_ | _, s'⟩
    · rw [hcomplete] at hbuffer hread
      obtain ⟨hagrees, hresult⟩ := continueIncremental_spec cfg s' ms hardTimeoutReached
      simp only [hcomplete, Bool.false_eq_true, if_false]
      refine accepted_done (fun o ho => (hresult o ho).1) fun _ => ?_
      rw [hagrees.buffer, hbuffer]
      exact hread.resolve_right Bool.false_ne_true
    · rw [hcomplete] at hbuffer
      rw [← hbuffer] at hms
      obtain ⟨hended, -, hresult⟩ := completeIncremental_spec hms
      simp only [hcomplete, Bool.false_eq_true, if_false, if_true]
      exact accepted_ended (fun o ho => (hresult o ho).1) hended

/-- **The wait of an empty command.** -/
lemma accepted_incremental {timeout : Option ν} {tick : Tick} {round : Session ν × Option Waited}
    (hsearch : Searchable cfg s.outputBuffer) (hread : tick ≠ .check →
      NoPrompt cfg s.outputBuffer ∨ (isCommandComplete cfg s).1 = true)
    (h : poll cfg false timeout s tick = some round) :
    Accepted cfg (afterPoll (afterIncremental cfg) (.incremental timeout) round) := by
  have hbuffer := (isCommandComplete_frame cfg s).1
  rcases poll_cases h with ⟨rfl, rfl⟩ | ⟨rfl, rfl⟩ | ⟨rfl, rfl⟩ | ⟨-, s', hcomplete, rfl⟩ |
    ⟨-, s', -, rfl⟩
  · exact accepted_getIncrementalOutput hsearch fun _ => hread nofun
  · exact accepted_getIncrementalOutput hsearch fun _ => hread nofun
  · exact accepted_getIncrementalOutput hsearch fun _ => hread nofun
  · rw [hcomplete] at hbuffer
    rw [← hbuffer] at hsearch
    exact accepted_getIncrementalOutput hsearch nofun
  · exact accepted_wait nofun

/-- An output event behind an input. -/
lemma accepted_inputEvent {text : Text} (hsearch : Searchable cfg s.outputBuffer) :
    Accepted cfg (inputEvent cfg s text) := by
  rw [Searchable] at hsearch
  rw [inputEvent]
  split
  · next e he =>
    rw [he] at hsearch
    cases hsearch
  · exact accepted_wait fun hidle => by cases hidle
  · dsimp only
    obtain ⟨hended, -, hresult⟩ := handleCompletedCommand_spec cfg { s with usingWrapper := false }
      (if s.currentCommand ≠ [] then s.currentCommand else text)
    exact accepted_ended (unrefused_caught fun o ho => (hresult o ho).1) hended

/-- An output event behind a key. -/
lemma accepted_interruptEvent {key : Text} (hsearch : Searchable cfg s.outputBuffer) :
    Accepted cfg (interruptEvent cfg s key) := by
  rw [Searchable] at hsearch
  rw [interruptEvent]
  split
  · next e he =>
    rw [he] at hsearch
    cases hsearch
  · split
    · exact accepted_wait fun hidle => by cases hidle
    · exact accepted_ended (unrefused_caught fun o ho => (interruptedOutput_ok ho).1) rfl

/-- The output so far. -/
lemma accepted_currentOutputDone {text : Text} (h : NoPrompt cfg s.outputBuffer) :
    Accepted cfg (currentOutputDone cfg s text) :=
  accepted_done (unrefused_caught fun _ ho => (getCurrentOutput_ok ho).1) fun _ => h

/-- An input or a key. -/
lemma accepted_sendInput {text : Text} {pty : Pty}
    (h : s.commandInProgress = true → NoPrompt cfg s.outputBuffer) :
    Accepted cfg (sendInput s text pty) := by
  have hwait : Accepted cfg (if text ∈ interruptKeys then ⟨s, .interrupt text, none⟩
      else ⟨s, .input text, none⟩ : State ν) := by
    split_ifs <;> exact accepted_wait nofun
  cases pty with
  | unwritable message => exact accepted_done (unrefused_error _) h
  | _ => exact hwait

/-- **A new command.** -/
lemma accepted_executeNewCommand {command : Text} {action : CmdRunAction ν} {pty : Pty} {tick : Tick}
    {st : State ν} (hidle : s.commandInProgress = false)
    (h : executeNewCommand cfg s command action pty tick = some st) : Accepted cfg st := by
  have hfailed (t : Session ν) (message : Text) : Accepted cfg (executeFailed t message) :=
    accepted_ended (unrefused_error _) rfl
  simp only [executeNewCommand, hidle, Bool.false_eq_true, if_false, Bool.false_and] at h
  cases pty with
  | dead => exact Option.some.inj h ▸ hfailed _ _
  | dies => exact Option.some.inj h ▸ hfailed _ _
  | unwritable message => exact Option.some.inj h ▸ hfailed _ _
  | alive =>
    obtain ⟨round, hround, rfl⟩ := Option.map_eq_some_iff.mp h
    have hempty : (written (prepared s command) command).outputBuffer = [] := by
      rw [written]
      split_ifs <;> rfl
    exact accepted_completion (fun _ => by rw [hempty]; rfl) hround

end Accepted

/-! ## Runs -/

variable (cfg)

/-- **Steps that leave no prompt unnoticed**: none arrives for a command in progress while no call
waits, none is in the buffer when a wait gives up without looking for one, and what a wait looks for
can be read. -/
def Noticed (st : State ν) : Label ν → Prop
  | .execute .. => True
  | .output chunk =>
    match st.phase with
    | .idle => st.session.commandInProgress = true → NoPrompt cfg (st.session.outputBuffer ++ chunk)
    | _ => True
  | .wake _ tick =>
    match st.phase with
    | .completion .. =>
      tick = .hardTimeout ∨ tick = .noChange → NoPrompt cfg st.session.outputBuffer
    | .incremental _ => Searchable cfg st.session.outputBuffer ∧ (tick ≠ .check →
      NoPrompt cfg st.session.outputBuffer ∨ (isCommandComplete cfg st.session).1 = true)
    | _ => True
  | .event =>
    match st.phase with
    | .input _ | .interrupt _ => Searchable cfg st.session.outputBuffer
    | .currentOutput _ => NoPrompt cfg st.session.outputBuffer
    | _ => True
  | .deadline =>
    match st.phase with
    | .currentOutput _ => NoPrompt cfg st.session.outputBuffer
    | _ => True

instance decidableNoticed (st : State ν) (label : Label ν) : Decidable (Noticed cfg st label) := by
  rcases st with ⟨s, phase, result⟩
  cases label <;> cases phase <;> dsimp only [Noticed] <;> infer_instance

variable {cfg}

section Step

variable {s : Session ν} {st st' : State ν}

/-- **A call** is refused only while a command is in progress, and changes nothing then. -/
lemma refused_or_accepted {action : CmdRunAction ν} {pty : Pty} {tick : Tick}
    (hkept : s.commandInProgress = true → NoPrompt cfg s.outputBuffer)
    (h : execute cfg s action pty tick = some st') :
    Accepted cfg st' ∨ (s.commandInProgress = true ∧ ∃ s' o,
      (s' = s ∨ s' = (isCommandComplete cfg s).2) ∧ st' = .done (s', .ok o)) := by
  rcases execute_cases h with ⟨result, rfl, hquiet⟩ | ⟨hrun, round, hround, rfl⟩ |
    ⟨-, -, -, rfl⟩ | ⟨hrun, s', hsame, rfl⟩ | ⟨-, hidle, h⟩
  · exact Or.inl (accepted_done (fun o ho => (hquiet o ho).1) hkept)
  · refine Or.inl (accepted_incremental ?_ (fun _ => Or.inl (hkept hrun)) hround)
    have hnone : matchesPs1Metadata cfg.interpreter s.outputBuffer = .ok [] := hkept hrun
    rw [Searchable, hnone]
    rfl
  · exact Or.inl (accepted_sendInput hkept)
  · exact Or.inr ⟨hrun, s', _, hsame, rfl⟩
  · exact Or.inl (accepted_executeNewCommand hidle h)

/-- **A step** from the invariant: the invariant holds again, and what is refused changes nothing
that is read later. -/
lemma accepted_step {label : Label ν} (hkept : Kept cfg st) (hnoticed : Noticed cfg st label)
    (h : step cfg st label = some st') :
    Accepted cfg st' ∨ (NoPrompt cfg st.session.outputBuffer ∧ ∃ s' o,
      (s' = st.session ∨ s' = (isCommandComplete cfg st.session).2) ∧ st' = .done (s', .ok o)) := by
  obtain ⟨s, phase, result⟩ := st
  cases label with
  | execute action pty tick =>
    cases phase with
    | idle => exact (refused_or_accepted (hkept.noPrompt rfl) h).imp_right fun ⟨hrun, hsame⟩ =>
        ⟨hkept.noPrompt rfl hrun, hsame⟩
    | _ => cases h
  | output chunk =>
    obtain rfl := Option.some.inj h
    obtain ⟨hbuffer, hstill, -⟩ := isCommandComplete_frame cfg
      { s with outputBuffer := s.outputBuffer ++ chunk, outputReady := true }
    refine Or.inl ⟨⟨fun hidle hrun => ?_⟩, nofun⟩
    dsimp only at hidle hrun ⊢
    subst hidle
    rw [receive] at hrun ⊢
    rw [hbuffer]
    exact hnoticed (hstill.symm.trans hrun)
  | wake event tick =>
    obtain ⟨t, htake, h⟩ := Option.bind_eq_some_iff.mp h
    have hagrees := takeEvent_agrees htake
    cases phase with
    | completion command timeout blocking lastOutput =>
      obtain ⟨round, hround, h⟩ := Option.bind_eq_some_iff.mp h
      obtain rfl := Option.some.inj h
      refine Or.inl (accepted_completion (fun htick => ?_) hround)
      rw [hagrees.buffer]
      exact hnoticed htick
    | incremental timeout =>
      obtain ⟨round, hround, h⟩ := Option.bind_eq_some_iff.mp h
      obtain rfl := Option.some.inj h
      obtain ⟨hsearch, hread⟩ := hnoticed
      refine Or.inl (accepted_incremental (by rw [hagrees.buffer]; exact hsearch) (fun htick => ?_)
        hround)
      rw [hagrees.buffer, hagrees.isCommandComplete]
      exact hread htick
    | _ => cases h
  | event =>
    obtain ⟨t, htake, h⟩ := Option.bind_eq_some_iff.mp h
    have hagrees := takeEvent_agrees htake
    cases phase with
    | input text =>
      obtain rfl := Option.some.inj h
      exact Or.inl (accepted_inputEvent (by rw [hagrees.buffer]; exact hnoticed))
    | interrupt key =>
      obtain rfl := Option.some.inj h
      exact Or.inl (accepted_interruptEvent (by rw [hagrees.buffer]; exact hnoticed))
    | currentOutput text =>
      obtain rfl := Option.some.inj h
      exact Or.inl (accepted_currentOutputDone (by rw [hagrees.buffer]; exact hnoticed))
    | _ => cases h
  | deadline =>
    cases phase with
    | input text =>
      obtain rfl := Option.some.inj h
      exact Or.inl (accepted_wait nofun)
    | interrupt key =>
      obtain rfl := Option.some.inj h
      refine Or.inl (accepted_ended (fun o ho => ?_) rfl)
      obtain rfl := Except.ok.inj ho
      exact (not_reported_interrupt rfl).1
    | currentOutput text =>
      obtain rfl := Option.some.inj h
      exact Or.inl (accepted_currentOutputDone hnoticed)
    | _ => cases h

/-- The invariant is kept. -/
lemma Kept.step {label : Label ν} (hkept : Kept cfg st) (hnoticed : Noticed cfg st label)
    (h : step cfg st label = some st') : Kept cfg st' := by
  rcases accepted_step hkept hnoticed h with haccepted | ⟨hnone, s', o, hsame, rfl⟩
  · exact haccepted.kept
  · refine ⟨fun _ _ => ?_⟩
    rcases hsame with rfl | rfl
    · exact hnone
    · dsimp only [State.done]
      rw [(isCommandComplete_frame cfg st.session).1]
      exact hnone

end Step

/-- **A command is refused only while another one runs**, in every run of steps that leave no prompt
unnoticed, and a refused command changes none of the fields that later reads depend on. -/
theorem refused_while_running {cwd : String} {labels : List (Label ν)} {label : Label ν}
    {st st' : State ν}
    (hrun : run (guarded (step cfg) (Noticed cfg)) (start cwd) labels = some st)
    (hstep : guarded (step cfg) (Noticed cfg) st label = some st') {o : Observation}
    (hresult : st'.result = some (.ok o)) (hrefused : o.IsRefused) :
    NoPrompt cfg st.session.outputBuffer ∧
      st'.session.outputBuffer = st.session.outputBuffer ∧
      st'.session.lastOutputPosition = st.session.lastOutputPosition ∧
      st'.session.commandInProgress = st.session.commandInProgress ∧
      st'.session.prevStatus = st.session.prevStatus := by
  have hstart : Kept cfg (start cwd) := ⟨fun _ _ => rfl⟩
  have hkept : Kept cfg st := by
    refine run_invariant (Kept cfg) (fun s a s' hs hstep => ?_) hstart hrun
    obtain ⟨hnoticed, hstep⟩ := guarded_eq_some.mp hstep
    exact hs.step hnoticed hstep
  obtain ⟨hnoticed, hstep⟩ := guarded_eq_some.mp hstep
  rcases accepted_step hkept hnoticed hstep with haccepted | ⟨hnone, s', o', hsame, rfl⟩
  · exact absurd hrefused (haccepted.unrefused _ hresult o rfl)
  · refine ⟨hnone, ?_⟩
    rcases hsame with rfl | rfl
    · exact ⟨rfl, rfl, rfl, rfl⟩
    · obtain ⟨hbuffer, hstill, hposition, hstatus⟩ := isCommandComplete_frame cfg st.session
      exact ⟨hbuffer, hposition, hstill, hstatus⟩

/-- The answer to a refused command is a refusal. -/
lemma isRefused_refuse (s : Session ν) (command : Text) : (refuse s command).IsRefused := by
  rw [refuse, Observation.IsRefused]
  dsimp only
  rw [Observation.suffix, String.toList_ofList, refusedSuffix]
  exact List.prefix_append _ _

/-- **A single command is refused** while another one is in progress, whatever has arrived. -/
theorem refused_of_inProgress {s : Session ν} (action : CmdRunAction ν) (tick : Tick)
    {commands : List Text} (hrun : s.commandInProgress = true) (hinput : action.isInput = false)
    (hne : strip action.command ≠ [])
    (hsingle : splitBashCommands cfg.parse (strip action.command) = .ok commands)
    (hlength : commands.length ≤ 1) :
    ∃ st o, execute cfg s action .alive tick = some st ∧ st.result = some (.ok o) ∧ o.IsRefused := by
  have hstill : (commandStillRunning cfg s).1 = true := (commandStillRunning_spec cfg s).1.trans hrun
  refine ⟨.done ((commandStillRunning cfg s).2,
    .ok (refuse (commandStillRunning cfg s).2 (strip action.command))), _, ?_, rfl,
    isRefused_refuse _ _⟩
  have halive : execute cfg s action .alive tick = executeAlive cfg s action .alive tick := rfl
  rw [halive, executeAlive]
  dsimp only
  rw [if_neg hne, if_neg (by rw [hinput]; exact Bool.false_ne_true), hsingle]
  dsimp only
  rw [if_neg (not_lt.mpr hlength), if_pos hstill]

/-- A command that times out before another one is sent. -/
def timeoutRun : List (Label Truncated) :=
  [.execute { command := "sleep 9".toList, timeout := some (.whole 5) } .alive .check,
    .wake false .hardTimeout]

/-- The next command. -/
def nextAction : CmdRunAction Truncated := { command := "echo hi".toList }

/-- No call waits for the command in progress. -/
def State.isStuck (st : State ν) : Bool :=
  match st.phase with
  | .idle => st.session.commandInProgress
  | _ => false

/-- The next command is refused while no call waits for the one in progress. -/
lemma refused_nextAction {st : State Truncated} (h : st.isStuck = true) :
    ∃ st' o, step sampleShell st (.execute nextAction .alive .check) = some st' ∧
      st'.result = some (.ok o) ∧ o.IsRefused := by
  obtain ⟨s, phase, result⟩ := st
  cases phase with
  | idle =>
    have hsingle : splitBashCommands sampleShell.parse (strip nextAction.command) =
        .ok ["echo hi".toList] := rfl
    exact refused_of_inProgress nextAction .check h rfl (by decide) hsingle le_rfl
  | _ => cases h

/-- While the command sleeps, the next one is refused. -/
theorem refused_while_sleeping :
    ∃ st st' o, run (guarded (step sampleShell) (Noticed sampleShell)) (start "/") timeoutRun =
        some st ∧
      guarded (step sampleShell) (Noticed sampleShell) st (.execute nextAction .alive .check) =
        some st' ∧
      st'.result = some (.ok o) ∧ o.IsRefused ∧ NoPrompt sampleShell st.session.outputBuffer ∧
      st'.session.outputBuffer = st.session.outputBuffer ∧
      st'.session.lastOutputPosition = st.session.lastOutputPosition ∧
      st'.session.commandInProgress = st.session.commandInProgress ∧
      st'.session.prevStatus = st.session.prevStatus := by
  have hsome : ((run (guarded (step sampleShell) (Noticed sampleShell)) (start "/")
      timeoutRun).filter State.isStuck).isSome := by decide +kernel
  obtain ⟨st, hst⟩ := Option.isSome_iff_exists.mp hsome
  obtain ⟨hrun, hstuck⟩ := Option.filter_eq_some_iff.mp hst
  obtain ⟨st', o, hstep, hresult, hrefused⟩ := refused_nextAction hstuck
  have hstep : guarded (step sampleShell) (Noticed sampleShell) st
      (.execute nextAction .alive .check) = some st' := guarded_eq_some.mpr ⟨trivial, hstep⟩
  exact ⟨st, st', o, hrun, hstep, hresult, hrefused,
    refused_while_running hrun hstep hresult hrefused⟩

/-- When the command has ended, the next one is refused as well. -/
theorem refused_behind_prompt :
    ∃ st st' o, run (step sampleShell) (start "/") (timeoutRun ++ [.output (samplePrompt 0)]) =
        some st ∧
      step sampleShell st (.execute nextAction .alive .check) = some st' ∧
      st'.result = some (.ok o) ∧ o.IsRefused ∧
      ¬ NoPrompt sampleShell st.session.outputBuffer := by
  have hsome : ((run (step sampleShell) (start "/")
      (timeoutRun ++ [Label.output (samplePrompt 0)])).filter fun st =>
        st.isStuck ∧ ¬ NoPrompt sampleShell st.session.outputBuffer).isSome := by decide +kernel
  obtain ⟨st, hst⟩ := Option.isSome_iff_exists.mp hsome
  obtain ⟨hrun, hfacts⟩ := Option.filter_eq_some_iff.mp hst
  obtain ⟨hstuck, hprompt⟩ := of_decide_eq_true hfacts
  obtain ⟨st', o, hstep, hresult, hrefused⟩ := refused_nextAction hstuck
  exact ⟨st, st', o, hrun, hstep, hresult, hrefused, hprompt⟩

end ProRLAgent.Bash
