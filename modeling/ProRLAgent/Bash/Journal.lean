import ProRLAgent.Bash.Methods

set_option relaxedAutoImplicit false
set_option autoImplicit false

/-!
# What a session returns of the output of a command

A timeout returns the output of a command so far, and every empty command behind it what came since.
`contents` says what these reads return. This module shows that the session does so in every run:
whatever else is sent to it, however the output arrives, and wherever a wait ends.

A journal beside the session has the buffer as it was cut by the reads, and what they returned. A read
that raises an exception can skip output, so nothing is claimed behind one.

## Main definitions

* `ProRLAgent.Bash.Journal` — what was read since the last command was sent.
* `ProRLAgent.Bash.Journal.record` — how a step is recorded.
* `ProRLAgent.Bash.Journaled` — the invariant.

## Main results

* `ProRLAgent.Bash.getIncrementalOutput_reads` — what an empty command returns.
* `ProRLAgent.Bash.contents_journal` — the session refines `contents`.
-/

namespace ProRLAgent.Bash

open FnCall (Text)
open Machine Markers PyText

variable {ν : Type}

/-! ## The journal -/

/-- **What was read** of the output of the last command that was sent. -/
structure Journal where
  command : Text := []
  /-- The buffer when it was last read. -/
  buffer : Text := []
  parts : List Text := []
  contents : List Text := []
  /-- A read raised an exception. -/
  raised : Bool := false

/-- Whether a step can read output: an empty command, or a command that times out. -/
def isRead (st : State ν) (label : Label ν) (st' : State ν) : Bool :=
  match label with
  | .execute _ .dead _ => false
  | .execute action _ _ =>
    if st.session.commandInProgress then strip action.command = [] else st'.session.commandInProgress
  | .wake _ tick =>
    match st.phase with
    | .completion .. => tick = .hardTimeout || tick = .noChange
    | .incremental _ => true
    | _ => false
  | _ => false

/-- A read of the buffer from a position. -/
def Journal.read (j : Journal) (position : ℕ) (buffer : Text) :
    Option (Except PyError Observation) → Journal
  | some (.ok (.cmdOutput content _ _)) =>
    { j with buffer, parts := j.parts ++ [buffer.drop position], contents := j.contents ++ [content] }
  | some (.error _) => { j with raised := true }
  | _ => j

/-- **The record of a step.** A command that was sent begins a new journal. -/
def Journal.record (st : State ν) (label : Label ν) (st' : State ν) (j : Journal) : Journal :=
  let j := if !st.session.commandInProgress && st'.session.commandInProgress then
      { command := st'.session.currentCommand } else j
  if isRead st label st' then
    j.read st.session.lastOutputPosition st'.session.outputBuffer st'.result
  else j

/-! ## What the methods read -/

section Reading

variable {cfg : Shell ν} {s s' : Session ν}

/-- The fields that a read depends on are the same. -/
structure Session.SameReads (s t : Session ν) : Prop where
  buffer : t.outputBuffer = s.outputBuffer
  position : t.lastOutputPosition = s.lastOutputPosition
  wrapper : t.usingWrapper = s.usingWrapper
  inProgress : t.commandInProgress = s.commandInProgress
  command : t.currentCommand = s.currentCommand

/-- The buffer was read up to its end. -/
structure Session.ReadUpTo (s t : Session ν) : Prop where
  buffer : t.outputBuffer = s.outputBuffer
  position : t.lastOutputPosition = s.outputBuffer.length
  wrapper : t.usingWrapper = s.usingWrapper
  inProgress : t.commandInProgress = s.commandInProgress
  command : t.currentCommand = s.currentCommand

/-- The position is one of the buffer. -/
def Session.Bounded (s : Session ν) : Prop := s.lastOutputPosition ≤ s.outputBuffer.length

/-- A change of the directory changes nothing that is read. -/
lemma sameReads_changeDir (s : Session ν) (metadata : CmdOutputMetadata) :
    s.SameReads (s.changeDir metadata) := by
  rw [Session.changeDir]
  split
  · split_ifs <;> exact ⟨rfl, rfl, rfl, rfl, rfl⟩
  · exact ⟨rfl, rfl, rfl, rfl, rfl⟩

/-- Looking for a prompt changes nothing that is read. -/
lemma sameReads_isCommandComplete (cfg : Shell ν) (s : Session ν) :
    s.SameReads (isCommandComplete cfg s).2 := by
  rcases isCommandComplete_cases cfg s with ⟨h, -⟩ | ⟨metadata, h, -⟩ | ⟨h, -⟩ <;>
    rw [h] <;> exact ⟨rfl, rfl, rfl, rfl, rfl⟩

/-- Taking an event changes nothing that is read. -/
lemma sameReads_takeEvent {event : Bool} (h : takeEvent event s = some s') : s.SameReads s' := by
  rw [takeEvent] at h
  split_ifs at h
  · obtain rfl := Option.some.inj h
    exact ⟨rfl, rfl, rfl, rfl, rfl⟩
  · obtain rfl := Option.some.inj h
    exact ⟨rfl, rfl, rfl, rfl, rfl⟩

/-- The position stays one of the buffer. -/
lemma Session.SameReads.bounded (h : s.SameReads s') (hs : s.Bounded) : s'.Bounded := by
  rw [Session.Bounded, h.position, h.buffer]
  exact hs

/-- A completed command keeps the position. -/
lemma bounded_handleCompletedCommand (hs : s.Bounded) (command : Text) :
    (handleCompletedCommand cfg s command).1.Bounded := by
  rw [handleCompletedCommand]
  dsimp only
  split
  · exact hs
  · next metadata hmetadata =>
    dsimp only
    split_ifs
    · exact (sameReads_changeDir _ metadata).bounded hs
    · exact hs

/-- An exception in a wait keeps the position. -/
lemma bounded_completionCaught {r : Session ν × Except PyError Observation} (h : r.1.Bounded) :
    (completionCaught cfg r).1.Bounded := by
  rcases r with ⟨t, e | o⟩ <;> exact h

/-- **A timeout** reads the buffer up to its end, or ends the command with an error. -/
lemma waitForCompletion_timedOut (cfg : Shell ν) (command : Text) (timeout : Option ν)
    {waited : Waited} (h : waited = .hardTimeout ∨ waited = .noChange) (hs : s.Bounded) :
    (∃ metadata, (waitForCompletion cfg command timeout s waited).2 =
        .ok (.cmdOutput (commandOutput s.usingWrapper s.outputBuffer command).1 command metadata) ∧
      s.ReadUpTo (waitForCompletion cfg command timeout s waited).1) ∨
    (waitForCompletion cfg command timeout s waited).1.commandInProgress = false ∧
      (waitForCompletion cfg command timeout s waited).1.Bounded ∧
      ∃ content, (waitForCompletion cfg command timeout s waited).2 = .ok (.error content) := by
  have htimeout (noChange : Bool) (value : Option ν) :
      (∃ metadata, (completionCaught cfg (handleTimeoutCommand cfg s command noChange value)).2 =
        .ok (.cmdOutput (commandOutput s.usingWrapper s.outputBuffer command).1 command metadata) ∧
      s.ReadUpTo (completionCaught cfg (handleTimeoutCommand cfg s command noChange value)).1) ∨
      (completionCaught cfg
          (handleTimeoutCommand cfg s command noChange value)).1.commandInProgress = false ∧
        (completionCaught cfg (handleTimeoutCommand cfg s command noChange value)).1.Bounded ∧
        ∃ content, (completionCaught cfg
          (handleTimeoutCommand cfg s command noChange value)).2 = .ok (.error content) := by
    rw [handleTimeoutCommand]
    dsimp only
    split
    · exact Or.inr ⟨rfl, hs, _, rfl⟩
    · next metadata hmetadata =>
      have hdir := sameReads_changeDir { s with
        lastTimeoutValue := value
        prevStatus := some (if noChange then .noChangeTimeout else .hardTimeout) } metadata
      exact Or.inl ⟨metadata, rfl, hdir.buffer, rfl, hdir.wrapper, hdir.inProgress, hdir.command⟩
  rcases h with rfl | rfl
  · exact htimeout false timeout
  · exact htimeout true none

/-- A wait that does not time out ends the command. -/
lemma waitForCompletion_ended (cfg : Shell ν) (command : Text) (timeout : Option ν)
    {waited : Waited} (h : waited = .completed ∨ waited = .interrupted) (hs : s.Bounded) :
    (waitForCompletion cfg command timeout s waited).1.commandInProgress = false ∧
      (waitForCompletion cfg command timeout s waited).1.Bounded := by
  rcases h with rfl | rfl
  · exact ⟨(waitForCompletion_completed cfg command timeout s).1,
      bounded_completionCaught (bounded_handleCompletedCommand hs command)⟩
  · exact ⟨rfl, hs⟩

/-- The output since the last read is what an empty command returns. -/
lemma incrementalContent_eq {ms : List (Found Char)} {content : Text} {wasTruncated : Bool}
    (hms : matchesPs1Metadata cfg.interpreter s.outputBuffer = .ok ms)
    (h : outputSince cfg s ms = .ok (content, wasTruncated)) :
    incrementalContent cfg.interpreter s.outputBuffer s.lastOutputPosition = .ok content := by
  rw [outputSince] at h
  rw [incrementalContent, hms, Except.ok_bind]
  split_ifs at h ⊢ with hlt
  · obtain ⟨text, htext, h⟩ := Except.bind_eq_ok.mp h
    rw [htext, Except.ok_bind]
    exact congrArg (Except.ok ∘ Prod.fst) (Except.ok.inj h)
  · exact congrArg (Except.ok ∘ Prod.fst) (Except.ok.inj h)

/-- An empty command that completes the command returns the output since the last read. -/
lemma completeIncremental_reads (cfg : Shell ν) {ms : List (Found Char)} (hs : s.Bounded)
    (hms : matchesPs1Metadata cfg.interpreter s.outputBuffer = .ok ms) :
    (completeIncremental cfg s ms).1.commandInProgress = false ∧
    (completeIncremental cfg s ms).1.Bounded ∧
    ∀ o, (completeIncremental cfg s ms).2 = .ok o → ∃ content metadata,
      o = .cmdOutput content [] metadata ∧
        incrementalContent cfg.interpreter s.outputBuffer s.lastOutputPosition = .ok content := by
  refine ⟨(completeIncremental_spec hms).1, ?_⟩
  rw [completeIncremental]
  dsimp only
  split
  · exact ⟨hs, fun o ho => by cases ho⟩
  · next exitCode content metadata hsince =>
    rw [completedSince, Except.bind_eq_ok] at hsince
    obtain ⟨⟨text, wasTruncated⟩, htext, hsince⟩ := hsince
    obtain ⟨code, -, hsince⟩ := Except.bind_eq_ok.mp hsince
    obtain ⟨metadata', -, hsince⟩ := Except.bind_eq_ok.mp hsince
    obtain ⟨rfl, rfl, rfl⟩ : code = exitCode ∧ text = content ∧ metadata' = metadata := by
      simpa using Except.ok.inj hsince
    refine ⟨Nat.zero_le _, fun o ho => ⟨text, metadata', (Except.ok.inj ho).symm, ?_⟩⟩
    exact incrementalContent_eq (s := { s with
      commandInProgress := false, prevStatus := some .completed }) hms htext

/-- An empty command that finds the command running returns the output since the last read. -/
lemma continueIncremental_reads (hardTimeoutReached : Bool) {ms : List (Found Char)} (hs : s.Bounded)
    (hms : matchesPs1Metadata cfg.interpreter s.outputBuffer = .ok ms) :
    (continueIncremental cfg s ms hardTimeoutReached).1.Bounded ∧
    ∀ o, (continueIncremental cfg s ms hardTimeoutReached).2 = .ok o →
      s.ReadUpTo (continueIncremental cfg s ms hardTimeoutReached).1 ∧ ∃ content metadata,
        o = .cmdOutput content [] metadata ∧
          incrementalContent cfg.interpreter s.outputBuffer s.lastOutputPosition = .ok content := by
  have hmax : max s.lastOutputPosition s.outputBuffer.length = s.outputBuffer.length :=
    max_eq_right hs
  rw [continueIncremental]
  split
  · exact ⟨hs, fun o ho => by cases ho⟩
  · next content wasTruncated hsince =>
    refine ⟨hmax.le, fun o ho => ⟨⟨rfl, hmax, rfl, rfl, rfl⟩, ?_⟩⟩
    obtain ⟨metadata, -, ho⟩ := Except.bind_eq_ok.mp ho
    exact ⟨content, metadata, (Except.ok.inj ho).symm, incrementalContent_eq hms hsince⟩

/-- **An empty command** behind its wait returns the output since the last read, and the command is
complete or no prompt is there. Or it raises an exception. -/
lemma getIncrementalOutput_reads (cfg : Shell ν) (completed hardTimeoutReached : Bool)
    (hs : s.Bounded) :
    (getIncrementalOutput cfg s completed hardTimeoutReached).1.Bounded ∧
    ∀ o, (getIncrementalOutput cfg s completed hardTimeoutReached).2 = .ok o →
      (∃ content metadata, o = .cmdOutput content [] metadata ∧
        incrementalContent cfg.interpreter s.outputBuffer s.lastOutputPosition = .ok content) ∧
      ((getIncrementalOutput cfg s completed hardTimeoutReached).1.commandInProgress = false ∨
        lastPrompt cfg.interpreter s.outputBuffer = none ∧
          s.ReadUpTo (getIncrementalOutput cfg s completed hardTimeoutReached).1) := by
  rw [getIncrementalOutput]
  rcases hms : matchesPs1Metadata cfg.interpreter s.outputBuffer with e | ms
  · exact ⟨hs, fun o ho => by cases ho⟩
  have hcompletes {t : Session ν} (hsame : s.SameReads t) :
      (completeIncremental cfg t ms).1.Bounded ∧
      ∀ o, (completeIncremental cfg t ms).2 = .ok o →
        (∃ content metadata, o = .cmdOutput content [] metadata ∧
          incrementalContent cfg.interpreter s.outputBuffer s.lastOutputPosition = .ok content) ∧
        ((completeIncremental cfg t ms).1.commandInProgress = false ∨
          lastPrompt cfg.interpreter s.outputBuffer = none ∧
            s.ReadUpTo (completeIncremental cfg t ms).1) := by
    have hread := completeIncremental_reads cfg (hsame.bounded hs) (by rwa [hsame.buffer])
    rw [hsame.buffer, hsame.position] at hread
    exact ⟨hread.2.1, fun o ho => ⟨hread.2.2 o ho, Or.inl hread.1⟩⟩
  cases completed with
  | true => exact hcompletes ⟨rfl, rfl, rfl, rfl, rfl⟩
  | false =>
    have hsame := sameReads_isCommandComplete cfg s
    rcases isCommandComplete_cases cfg s with ⟨h, -⟩ | ⟨metadata, h, -⟩ | ⟨h, -, -, hnone⟩
    · simp only [h, Bool.false_eq_true, if_false, if_true]
      exact hcompletes ⟨rfl, rfl, rfl, rfl, rfl⟩
    · simp only [h, Bool.false_eq_true, if_false, if_true]
      rw [h] at hsame
      exact hcompletes hsame
    · simp only [h, Bool.false_eq_true, if_false]
      have hread := continueIncremental_reads hardTimeoutReached hs hms
      exact ⟨hread.1, fun o ho => ⟨(hread.2 o ho).2, Or.inr ⟨hnone, (hread.2 o ho).1⟩⟩⟩

end Reading

/-! ## The invariant -/

/-- One more read, behind others that found no prompt. -/
lemma reads_concat {I : Interpreter ν} {buffer part content : Text} {parts cs : List Text}
    (h : reads I buffer parts = .ok cs)
    (hnone : ∀ ps, ps <+: parts → ps ≠ [] → lastPrompt I (buffer ++ ps.flatten) = none)
    (hcontent : incrementalContent I (buffer ++ parts.flatten ++ part)
      (buffer ++ parts.flatten).length = .ok content) :
    reads I buffer (parts ++ [part]) = .ok (cs ++ [content]) := by
  induction parts generalizing buffer cs with
  | nil =>
    obtain rfl := Except.ok.inj h
    rw [List.flatten_nil, List.append_nil] at hcontent
    rw [List.nil_append, reads, hcontent, Except.ok_bind]
    split_ifs <;> rfl
  | cons p parts ih =>
    rw [reads, Except.bind_eq_ok] at h
    obtain ⟨c, hc, h⟩ := h
    have hfirst : lastPrompt I (buffer ++ p) = none := by
      simpa using hnone [p] (by simp) (by simp)
    simp only [hfirst, Option.isSome_none, Bool.false_eq_true, if_false] at h
    obtain ⟨rest, hrest, h⟩ := Except.bind_eq_ok.mp h
    obtain rfl := Except.ok.inj h
    have hlater := ih hrest (fun ps hps hne => by
      simpa using hnone (p :: ps) (by simpa using hps) (by simp)) (by simpa using hcontent)
    rw [List.cons_append, reads, hc, Except.ok_bind]
    simp only [hfirst, Option.isSome_none, Bool.false_eq_true, if_false]
    rw [hlater]
    rfl

section Invariant

variable (cfg : Shell ν)

/-- The journal of a command that was sent. -/
structure Journal.Sent (command : Text) (s : Session ν) (j : Journal) : Prop where
  journal : j = { command }
  position : s.lastOutputPosition = 0
  wrapped : isSpecialKey command = false → s.usingWrapper = true

/-- The journal of a command that is running behind a timeout: the reads went up to the position, and
none behind the timeout found a prompt. -/
structure Journal.Open (s : Session ν) (j : Journal) : Prop where
  read : j.buffer = s.outputBuffer.take s.lastOutputPosition
  wrapped : isSpecialKey j.command = false → s.usingWrapper = true
  unfinished : ∃ first rest, j.parts = first :: rest ∧ ∀ parts, parts <+: rest → parts ≠ [] →
    lastPrompt cfg.interpreter (first ++ parts.flatten) = none

/-- **The journal is what `contents` says**: the parts are the buffer, and what was returned are its
contents. -/
structure Journal.Faithful (j : Journal) : Prop where
  buffer : j.parts.flatten = j.buffer
  contents : isSpecialKey j.command = false → ∀ first rest, j.parts = first :: rest →
    Bash.contents cfg.interpreter j.command first rest = .ok j.contents

/-- **The invariant.** -/
structure Journaled (st : State ν) (j : Journal) : Prop where
  bounded : st.session.Bounded
  inProgress : st.phase ≠ .idle → st.session.commandInProgress = true
  faithful : j.raised = false → j.Faithful cfg
  stage : match st.phase with
    | .completion command .. => j.Sent command st.session
    | _ => st.session.commandInProgress = true → j.raised = false → j.Open cfg st.session

variable {cfg} {s t : Session ν} {j : Journal} {command : Text}

/-- The beginning of a journal. -/
lemma faithful_sent : ({ command } : Journal).Faithful cfg :=
  ⟨rfl, fun _ _ _ h => by cases h⟩

lemma Journal.Sent.sameReads (h : j.Sent command s) (hsame : s.SameReads t) : j.Sent command t :=
  ⟨h.journal, hsame.position.trans h.position, fun hkey => hsame.wrapper.trans (h.wrapped hkey)⟩

lemma Journal.Open.sameReads (h : j.Open cfg s) (hsame : s.SameReads t) : j.Open cfg t := by
  refine ⟨?_, fun hkey => hsame.wrapper.trans (h.wrapped hkey), h.unfinished⟩
  rw [hsame.buffer, hsame.position]
  exact h.read

/-- The end of a command. -/
lemma journaled_ended {result : Option (Except PyError Observation)} (hbounded : t.Bounded)
    (hended : t.commandInProgress = false) (hj : j.raised = false → j.Faithful cfg) :
    Journaled cfg ⟨t, .idle, result⟩ j :=
  ⟨hbounded, fun h => absurd rfl h, hj, fun h => absurd (hended.symm.trans h) Bool.false_ne_true⟩

/-- A wait that is none for completion, or the end of a call that read nothing. -/
lemma journaled_quiet {phase : Phase ν} {result : Option (Except PyError Observation)}
    (hbounded : t.Bounded) (hphase : phase ≠ .idle → t.commandInProgress = true)
    (hj : j.raised = false → j.Faithful cfg)
    (hopen : t.commandInProgress = true → j.raised = false → j.Open cfg t)
    (hwait : ∀ command timeout blocking last, phase ≠ .completion command timeout blocking last) :
    Journaled cfg ⟨t, phase, result⟩ j := by
  refine ⟨hbounded, hphase, hj, ?_⟩
  cases phase with
  | completion command timeout blocking last => exact absurd rfl (hwait command timeout blocking last)
  | _ => exact hopen

/-- **The first read**, of a command that times out. -/
lemma Journal.Sent.journaled_read {metadata : CmdOutputMetadata} {position : ℕ} (h : j.Sent command s)
    (hread : s.ReadUpTo t) (hdrop : t.outputBuffer.drop position = s.outputBuffer) :
    Journaled cfg ⟨t, .idle, some (.ok
        (.cmdOutput (commandOutput s.usingWrapper s.outputBuffer command).1 command metadata))⟩
      (j.read position t.outputBuffer (some (.ok
        (.cmdOutput (commandOutput s.usingWrapper s.outputBuffer command).1 command metadata)))) := by
  obtain rfl := h.journal
  have hbounded : t.Bounded := by
    rw [Session.Bounded, hread.position, hread.buffer]
  refine ⟨hbounded, fun hne => absurd rfl hne, fun _ => ⟨?_, fun hkey first rest hparts => ?_⟩,
    fun _ _ => ⟨?_, fun hkey => hread.wrapper.trans (h.wrapped hkey), t.outputBuffer.drop position, [],
      rfl, fun parts hparts hne => absurd (List.prefix_nil.mp hparts) hne⟩⟩
  · show (t.outputBuffer.drop position) ++ [] = t.outputBuffer
    rw [hdrop, List.append_nil, hread.buffer]
  · obtain ⟨rfl, rfl⟩ := List.cons.inj (hparts.symm.trans rfl)
    rw [hdrop, h.wrapped hkey]
    rfl
  · show t.outputBuffer = t.outputBuffer.take t.lastOutputPosition
    rw [hread.position, ← hread.buffer, List.take_length]

/-- A read behind the first one keeps the journal faithful. -/
lemma Journal.Faithful.read {content c : Text} {metadata : CmdOutputMetadata} (hj : j.Faithful cfg)
    (hopen : j.Open cfg s) (hs : s.Bounded)
    (hcontent : incrementalContent cfg.interpreter s.outputBuffer s.lastOutputPosition = .ok content) :
    (j.read s.lastOutputPosition s.outputBuffer
      (some (.ok (.cmdOutput content c metadata)))).Faithful cfg := by
  have htake : j.parts.flatten = s.outputBuffer.take s.lastOutputPosition := hj.buffer.trans hopen.read
  constructor
  · show (j.parts ++ [s.outputBuffer.drop s.lastOutputPosition]).flatten = s.outputBuffer
    simp [htake]
  · intro hkey first rest hparts
    obtain ⟨first', rest', hold, hnone⟩ := hopen.unfinished
    have hnew : first = first' ∧ rest = rest' ++ [s.outputBuffer.drop s.lastOutputPosition] := by
      have heq : j.parts ++ [s.outputBuffer.drop s.lastOutputPosition] = first :: rest := hparts
      rw [hold, List.cons_append] at heq
      obtain ⟨h1, h2⟩ := List.cons.inj heq
      exact ⟨h1.symm, h2.symm⟩
    obtain ⟨rfl, rfl⟩ := hnew
    have hcontents := hj.contents hkey first rest' hold
    rw [Bash.contents, Except.bind_eq_ok] at hcontents
    obtain ⟨cs, hcs, hcontents⟩ := hcontents
    have hflat : first ++ rest'.flatten = s.outputBuffer.take s.lastOutputPosition := by
      rw [← htake, hold, List.flatten_cons]
    have hlast : reads cfg.interpreter first (rest' ++ [s.outputBuffer.drop s.lastOutputPosition]) =
        .ok (cs ++ [content]) := by
      apply reads_concat hcs hnone
      rw [hflat, List.take_append_drop, List.length_take, min_eq_left hs]
      exact hcontent
    show Bash.contents cfg.interpreter j.command first _ = .ok (j.contents ++ [content])
    rw [Bash.contents, hlast, ← Except.ok.inj hcontents]
    rfl

/-- **A read behind the first one.** -/
lemma journaled_incrementalDone (completed hardTimeoutReached : Bool) (hs : s.Bounded)
    (hj : j.raised = false → j.Faithful cfg) (hopen : j.raised = false → j.Open cfg s) :
    Journaled cfg (State.done (getIncrementalOutput cfg s completed hardTimeoutReached))
      (j.read s.lastOutputPosition
        (State.done (getIncrementalOutput cfg s completed hardTimeoutReached)).session.outputBuffer
        (some (getIncrementalOutput cfg s completed hardTimeoutReached).2)) := by
  obtain ⟨hbounded, hread⟩ := getIncrementalOutput_reads cfg completed hardTimeoutReached hs
  have hbuffer : (getIncrementalOutput cfg s completed hardTimeoutReached).1.outputBuffer =
      s.outputBuffer := getIncrementalOutput_buffer s completed hardTimeoutReached
  rw [State.done]
  rcases hresult : (getIncrementalOutput cfg s completed hardTimeoutReached).2 with e | o
  · refine journaled_quiet hbounded (fun h => absurd rfl h) (fun h => ?_) (fun _ h => ?_) (fun _ _ _ _ h => ?_)
    · cases h
    · cases h
    · cases h
  · obtain ⟨⟨content, metadata, rfl, hcontent⟩, hrunning⟩ := hread o hresult
    dsimp only
    rw [hbuffer]
    refine ⟨hbounded, fun h => absurd rfl h,
      fun hraised => (hj hraised).read (hopen hraised) hs hcontent, fun hrun hraised => ?_⟩
    obtain hended | ⟨hnone, hupto⟩ := hrunning
    · exact absurd (hended.symm.trans hrun) Bool.false_ne_true
    have hopened := hopen hraised
    obtain ⟨first, rest, hparts, hunfinished⟩ := hopened.unfinished
    refine ⟨?_, fun hkey => hupto.wrapper.trans (hopened.wrapped hkey), first,
      rest ++ [s.outputBuffer.drop s.lastOutputPosition], ?_, fun parts hprefix hne => ?_⟩
    · show s.outputBuffer = _
      rw [hupto.position, hupto.buffer, List.take_length]
    · show j.parts ++ [s.outputBuffer.drop s.lastOutputPosition] = _
      rw [hparts, List.cons_append]
    · rcases List.prefix_concat_iff.mp hprefix with rfl | hprefix
      · have hflat : first ++ rest.flatten = s.outputBuffer.take s.lastOutputPosition := by
          rw [← hopened.read, ← (hj hraised).buffer, hparts, List.flatten_cons]
        rw [List.flatten_append, List.flatten_singleton, ← List.append_assoc, hflat,
          List.take_append_drop]
        exact hnone
      · exact hunfinished parts hprefix hne

/-! ## Steps -/

/-- **How a round of the wait for completion ends**: the command has ended, or it timed out and its
output was read, or the wait goes on. -/
inductive CompletionRound (s : Session ν) (command : Text) (wait : Phase ν) (tick : Tick) :
    State ν → Prop
  | ended {t : Session ν} {result : Except PyError Observation}
      (hended : t.commandInProgress = false) (hbounded : t.Bounded)
      (herror : tick = .hardTimeout ∨ tick = .noChange → ∃ content, result = .ok (.error content)) :
      CompletionRound s command wait tick (.done (t, result))
  | timedOut {t : Session ν} {metadata : CmdOutputMetadata}
      (htick : tick = .hardTimeout ∨ tick = .noChange) (hread : s.ReadUpTo t) :
      CompletionRound s command wait tick (.done (t, .ok
        (.cmdOutput (commandOutput s.usingWrapper s.outputBuffer command).1 command metadata)))
  | waiting (htick : tick = .check) : CompletionRound s command wait tick ⟨s, wait, none⟩

/-- A round of the wait for completion. -/
lemma completionRound (command : Text) (wait : Phase ν) {timeout : Option ν} {canNoChange : Bool}
    {tick : Tick} {round : Session ν × Option Waited} (hs : s.Bounded)
    (h : poll cfg canNoChange timeout s tick = some round) :
    CompletionRound s command wait tick
      (afterPoll (waitForCompletion cfg command timeout) wait round) := by
  have htimedOut {waited : Waited} (hwaited : waited = .hardTimeout ∨ waited = .noChange)
      (htick : tick = .hardTimeout ∨ tick = .noChange) : CompletionRound s command wait tick
        (.done (waitForCompletion cfg command timeout s waited)) := by
    rcases waitForCompletion_timedOut cfg command timeout hwaited hs with ⟨metadata, hresult, hread⟩ | ⟨hended, hbounded, herror⟩
    · rw [State.done, hresult]
      exact .timedOut htick hread
    · exact .ended hended hbounded fun _ => herror
  have hended {t : Session ν} {waited : Waited} (hwaited : waited = .completed ∨ waited = .interrupted)
      (ht : t.Bounded) (htick : ¬ (tick = .hardTimeout ∨ tick = .noChange)) :
      CompletionRound s command wait tick (.done (waitForCompletion cfg command timeout t waited)) := by
    obtain ⟨hended, hbounded⟩ := waitForCompletion_ended cfg command timeout hwaited ht
    exact .ended hended hbounded fun h => absurd h htick
  rcases poll_cases h with ⟨htick, rfl⟩ | ⟨htick, rfl⟩ | ⟨htick, rfl⟩ | ⟨htick, t, hcomplete, rfl⟩ |
    ⟨htick, t, hcomplete, rfl⟩
  · exact hended (Or.inr rfl) hs (by simp [htick])
  · exact htimedOut (Or.inl rfl) (Or.inl htick)
  · exact htimedOut (Or.inr rfl) (Or.inr htick)
  · have hsame := sameReads_isCommandComplete cfg s
    rw [hcomplete] at hsame
    exact hended (Or.inl rfl) (hsame.bounded hs) (by simp [htick])
  · obtain rfl : t = s := by
      rcases isCommandComplete_cases cfg s with ⟨h, -⟩ | ⟨metadata, h, -⟩ | ⟨h, -⟩ <;>
        simp [h] at hcomplete
      exact hcomplete.symm
    exact .waiting htick

/-- **The wait for completion** of a command that was sent. -/
lemma journaled_completion (cfg : Shell ν) {timeout : Option ν} {blocking : Bool} {seen : Text}
    {tick : Tick} {st : State ν} (h : CompletionRound s command (.completion command timeout blocking seen) tick st)
    (hrun : s.commandInProgress = true) (hs : s.Bounded) (hsent : j.Sent command s) :
    Journaled cfg st (if tick = .hardTimeout || tick = .noChange then
      j.read s.lastOutputPosition st.session.outputBuffer st.result else j) := by
  have hj : j.raised = false → j.Faithful cfg := by
    rw [hsent.journal]
    exact fun _ => faithful_sent
  cases h with
  | ended hended hbounded herror =>
    apply journaled_ended hbounded hended
    split_ifs with htick
    · obtain ⟨content, rfl⟩ := herror (by simpa using htick)
      exact hj
    · exact hj
  | timedOut htick hread =>
    rw [if_pos (by simpa using htick)]
    apply hsent.journaled_read hread
    rw [hsent.position, List.drop_zero, hread.buffer]
  | waiting htick =>
    rw [if_neg (by simp [htick])]
    exact ⟨hs, fun _ => hrun, hj, hsent⟩

/-- **The wait of an empty command.** -/
lemma journaled_incremental (waitTimeout : Option ν) {timeout : Option ν} {tick : Tick}
    {round : Session ν × Option Waited} (h : poll cfg false timeout s tick = some round)
    (hrun : s.commandInProgress = true) (hs : s.Bounded) (hj : j.raised = false → j.Faithful cfg)
    (hopen : j.raised = false → j.Open cfg s) :
    Journaled cfg (afterPoll (afterIncremental cfg) (.incremental waitTimeout) round)
      (j.read s.lastOutputPosition
        (afterPoll (afterIncremental cfg) (.incremental waitTimeout) round).session.outputBuffer
        (afterPoll (afterIncremental cfg) (.incremental waitTimeout) round).result) := by
  have hsame := sameReads_isCommandComplete cfg s
  rcases poll_cases h with ⟨-, rfl⟩ | ⟨-, rfl⟩ | ⟨-, rfl⟩ | ⟨-, t, hcomplete, rfl⟩ |
    ⟨-, t, hcomplete, rfl⟩
  · exact journaled_incrementalDone false false hs hj hopen
  · exact journaled_incrementalDone false true hs hj hopen
  · exact journaled_incrementalDone false false hs hj hopen
  · rw [hcomplete] at hsame
    rw [← hsame.position]
    exact journaled_incrementalDone true false (hsame.bounded hs) hj
      fun hraised => (hopen hraised).sameReads hsame
  · rw [hcomplete] at hsame
    exact journaled_quiet (hsame.bounded hs) (fun _ => hsame.inProgress.trans hrun) hj
      (fun _ hraised => (hopen hraised).sameReads hsame) (fun _ _ _ _ h => by cases h)

/-- A call while a command is running that is no empty command: it ends at once, or sends an input or
a key. -/
lemma execute_other {action : CmdRunAction ν} {pty : Pty} {tick : Tick} {st : State ν}
    (hrun : s.commandInProgress = true) (hother : pty = .dead ∨ strip action.command ≠ [])
    (h : execute cfg s action pty tick = some st) :
    (∃ t r, s.SameReads t ∧ st = .done (t, r)) ∨ st = sendInput s (strip action.command) pty := by
  have hself : s.SameReads s := ⟨rfl, rfl, rfl, rfl, rfl⟩
  by_cases hdead : pty = .dead
  · subst hdead
    exact Or.inl ⟨s, _, hself, (Option.some.inj h).symm⟩
  have hne := hother.resolve_left hdead
  have halive : execute cfg s action pty tick = executeAlive cfg s action pty tick := by
    rw [execute]
    exact hdead
  obtain ⟨hrunning, hsame, -⟩ := commandStillRunning_spec cfg s
  rw [halive, executeAlive] at h
  dsimp only at h
  rw [if_neg hne] at h
  by_cases hinput : action.isInput = true
  · rw [if_pos hinput, if_pos hrun] at h
    exact Or.inr (Option.some.inj h).symm
  rw [if_neg hinput] at h
  split at h
  · exact Or.inl ⟨s, _, hself, (Option.some.inj h).symm⟩
  rw [if_pos (hrunning.trans hrun)] at h
  split_ifs at h with hmany
  · exact Or.inl ⟨s, _, hself, (Option.some.inj h).symm⟩
  · refine Or.inl ⟨_, _, ?_, (Option.some.inj h).symm⟩
    rcases hsame with hsame | hsame
    · rw [hsame]
      exact hself
    · rw [hsame]
      exact sameReads_isCommandComplete cfg s

/-- **A new command** begins a journal. -/
lemma journaled_executeNewCommand {action : CmdRunAction ν} {pty : Pty} {tick : Tick} {st : State ν}
    {phase : Phase ν} {result : Option (Except PyError Observation)}
    (hidle : s.commandInProgress = false) (hj : j.raised = false → j.Faithful cfg)
    (h : executeNewCommand cfg s command action pty tick = some st) :
    Journaled cfg st (Journal.record ⟨s, phase, result⟩ (.execute action pty tick) st j) := by
  have hfailed (t : Session ν) (message : Text) (ht : t.Bounded)
      (hst : executeFailed t message = st) :
      Journaled cfg st (Journal.record ⟨s, phase, result⟩ (.execute action pty tick) st j) := by
    subst hst
    have hrecord : Journal.record ⟨s, phase, result⟩ (.execute action pty tick)
        (executeFailed t message) j = j := by
      cases pty <;> simp [Journal.record, isRead, hidle, executeFailed, State.done]
    rw [hrecord]
    exact journaled_ended ht rfl hj
  have hbounded : (prepared s command).Bounded := Nat.zero_le _
  simp only [executeNewCommand, hidle, Bool.false_eq_true, if_false, Bool.false_and] at h
  cases pty with
  | dead => exact hfailed _ _ hbounded (Option.some.inj h)
  | dies => exact hfailed _ _ hbounded (Option.some.inj h)
  | unwritable message =>
    refine hfailed _ message ?_ (Option.some.inj h)
    rw [written]
    split_ifs <;> exact hbounded
  | alive =>
    obtain ⟨round, hround, hst⟩ := Option.map_eq_some_iff.mp h
    obtain ⟨t, ht⟩ : ∃ t, t = written (prepared s command) command := ⟨_, rfl⟩
    have hsent : ({ command } : Journal).Sent command t ∧ t.Bounded ∧ t.commandInProgress = true ∧
        t.outputBuffer = [] ∧ t.currentCommand = command := by
      rw [ht, written]
      split_ifs with hkey
      · exact ⟨⟨rfl, rfl, fun h => by rw [hkey] at h; cases h⟩, hbounded, rfl, rfl, rfl⟩
      · exact ⟨⟨rfl, rfl, fun _ => rfl⟩, hbounded, rfl, rfl, rfl⟩
    obtain ⟨hsent, hbounded, hrun, hempty, hcommand⟩ := hsent
    rw [← ht] at hround
    have hend := completionRound command
      (.completion command action.timeout action.blocking []) hbounded hround
    rw [hst] at hend
    cases hend with
    | @ended u r hended hbounded' herror =>
      have hrecord : Journal.record ⟨s, phase, result⟩ (.execute action .alive tick)
          (.done (u, r)) j = j := by
        simp [Journal.record, isRead, hidle, State.done, hended]
      rw [hrecord]
      exact journaled_ended hbounded' hended hj
    | @timedOut u metadata htick hread =>
      have hrun' := hread.inProgress.trans hrun
      have hcommand' := hread.command.trans hcommand
      simp only [Journal.record, isRead, State.done, hidle, hrun', hcommand', Bool.not_false,
        Bool.and_true, Bool.false_eq_true, if_false, if_true]
      apply hsent.journaled_read hread
      rw [hread.buffer, hempty, List.drop_nil]
    | waiting htick =>
      simp only [Journal.record, isRead, hidle, hrun, hcommand, Bool.not_false, Bool.and_true,
        Bool.false_eq_true, if_false, if_true]
      exact ⟨hbounded, fun _ => hrun, fun _ => faithful_sent, hsent⟩

/-- A wait behind an input or a key, or the end of one that reads nothing. -/
lemma journaled_wait {phase : Phase ν} {result : Option (Except PyError Observation)}
    (hs : s.Bounded) (hrun : s.commandInProgress = true) (hj : j.raised = false → j.Faithful cfg)
    (hopen : j.raised = false → j.Open cfg s)
    (hwait : ∀ command timeout blocking last, phase ≠ .completion command timeout blocking last) :
    Journaled cfg ⟨s, phase, result⟩ j :=
  journaled_quiet hs (fun _ => hrun) hj (fun _ => hopen) hwait

/-- **A call.** -/
lemma journaled_execute {action : CmdRunAction ν} {pty : Pty} {tick : Tick} {st : State ν}
    {result : Option (Except PyError Observation)} (hjournaled : Journaled cfg ⟨s, .idle, result⟩ j)
    (h : execute cfg s action pty tick = some st) :
    Journaled cfg st (Journal.record ⟨s, .idle, result⟩ (.execute action pty tick) st j) := by
  have hs : s.Bounded := hjournaled.bounded
  have hopen : s.commandInProgress = true → j.raised = false → j.Open cfg s := hjournaled.stage
  rcases hrun : s.commandInProgress with _ | _
  · have hquiet {t : Session ν} (hidle : t.commandInProgress = false) (r) :
        Journal.record ⟨s, .idle, result⟩ (.execute action pty tick) (State.done (t, r)) j = j := by
      cases pty <;> simp [Journal.record, isRead, hrun, State.done, hidle]
    rcases execute_cases h with ⟨r, rfl, -⟩ | ⟨hrun', -⟩ | ⟨-, -, hrun', -⟩ | ⟨hrun', -⟩ | ⟨-, -, h⟩
    · rw [hquiet hrun]
      exact journaled_ended hs hrun hjournaled.faithful
    · exact absurd (hrun.symm.trans hrun') Bool.false_ne_true
    · exact absurd (hrun.symm.trans hrun') Bool.false_ne_true
    · exact absurd (hrun.symm.trans hrun') Bool.false_ne_true
    · exact journaled_executeNewCommand hrun hjournaled.faithful h
  · by_cases hother : pty = .dead ∨ strip action.command ≠ []
    · have hquiet : Journal.record ⟨s, .idle, result⟩ (.execute action pty tick) st j = j := by
        rcases hother with rfl | hne
        · simp [Journal.record, isRead, hrun]
        · cases pty <;> simp [Journal.record, isRead, hrun, hne]
      rw [hquiet]
      rcases execute_other hrun hother h with ⟨t, r, hsame, rfl⟩ | rfl
      · exact journaled_wait (hsame.bounded hs) (hsame.inProgress.trans hrun) hjournaled.faithful
          (fun hraised => (hopen hrun hraised).sameReads hsame) (fun _ _ _ _ h => by cases h)
      · have hwait (text : Text) : Journaled cfg (if text ∈ interruptKeys then ⟨s, .interrupt text, none⟩
            else ⟨s, .input text, none⟩ : State ν) j := by
          split_ifs
          · exact journaled_wait hs hrun hjournaled.faithful (hopen hrun) (fun _ _ _ _ h => by cases h)
          · exact journaled_wait hs hrun hjournaled.faithful (hopen hrun) (fun _ _ _ _ h => by cases h)
        cases pty with
        | unwritable message =>
          exact journaled_wait hs hrun hjournaled.faithful (hopen hrun) (fun _ _ _ _ h => by cases h)
        | _ => exact hwait _
    · obtain ⟨halive, hempty⟩ := not_or.mp hother
      rw [not_not] at hempty
      have hexecute : execute cfg s action pty tick = executeAlive cfg s action pty tick := by
        rw [execute]
        exact halive
      rw [hexecute, executeAlive] at h
      dsimp only at h
      rw [if_pos hempty, if_pos hrun] at h
      obtain ⟨round, hround, rfl⟩ := Option.map_eq_some_iff.mp h
      have hread := journaled_incremental action.timeout hround hrun hs hjournaled.faithful
        (hopen hrun)
      cases pty with
      | dead => exact absurd rfl halive
      | _ => simpa [Journal.record, isRead, hrun, hempty] using hread

/-- **Output that arrives** is no read. -/
lemma journaled_receive {phase : Phase ν} {result : Option (Except PyError Observation)} {chunk : Text}
    (hjournaled : Journaled cfg ⟨s, phase, result⟩ j) :
    Journaled cfg ⟨receive cfg s chunk, phase, none⟩ (Journal.record ⟨s, phase, result⟩ (.output chunk)
      ⟨receive cfg s chunk, phase, none⟩ j) := by
  obtain ⟨u, hu⟩ : ∃ u, u = { s with
    outputBuffer := s.outputBuffer ++ chunk, outputReady := true } := ⟨_, rfl⟩
  have hsame : u.SameReads (receive cfg s chunk) := by
    rw [receive, ← hu]
    exact sameReads_isCommandComplete cfg u
  have hs : s.Bounded := hjournaled.bounded
  have hbounded : (receive cfg s chunk).Bounded := by
    apply hsame.bounded
    rw [hu]
    show s.lastOutputPosition ≤ (s.outputBuffer ++ chunk).length
    rw [List.length_append]
    exact hs.trans (Nat.le_add_right _ _)
  have hrun : (receive cfg s chunk).commandInProgress = s.commandInProgress := by
    rw [hsame.inProgress, hu]
  have hquiet : Journal.record ⟨s, phase, result⟩ (.output chunk)
      ⟨receive cfg s chunk, phase, none⟩ j = j := by
    simp [Journal.record, isRead, hrun]
  rw [hquiet]
  refine ⟨hbounded, fun hphase => hrun.trans (hjournaled.inProgress hphase), hjournaled.faithful, ?_⟩
  have hopen (h : s.commandInProgress = true → j.raised = false → j.Open cfg s) :
      (receive cfg s chunk).commandInProgress = true → j.raised = false →
        j.Open cfg (receive cfg s chunk) := by
    intro hrun' hraised
    have hopened := h (hrun.symm.trans hrun') hraised
    have hlater : j.Open cfg u := by
      rw [hu]
      refine ⟨?_, hopened.wrapped, hopened.unfinished⟩
      rw [hopened.read, List.take_append_of_le_length hs]
    exact hlater.sameReads hsame
  have hstage := hjournaled.stage
  cases phase with
  | completion command timeout blocking last =>
    have hlater : j.Sent command u := by
      rw [hu]
      exact ⟨hstage.journal, hstage.position, hstage.wrapped⟩
    exact hlater.sameReads hsame
  | _ => exact hopen hstage

/-- An output event behind an input. -/
lemma journaled_inputEvent {text : Text} (hs : s.Bounded) (hrun : s.commandInProgress = true)
    (hj : j.raised = false → j.Faithful cfg) (hopen : j.raised = false → j.Open cfg s) :
    Journaled cfg (inputEvent cfg s text) j := by
  rw [inputEvent]
  split
  · exact journaled_wait hs hrun hj hopen (fun _ _ _ _ h => by cases h)
  · exact journaled_wait hs hrun hj hopen (fun _ _ _ _ h => by cases h)
  · dsimp only
    obtain ⟨command, hcommand⟩ :
        ∃ command, command = if s.currentCommand ≠ [] then s.currentCommand else text := ⟨_, rfl⟩
    rw [← hcommand]
    have hbounded : ({ s with usingWrapper := false } : Session ν).Bounded := hs
    exact journaled_ended (bounded_handleCompletedCommand hbounded command)
      (handleCompletedCommand_spec cfg { s with usingWrapper := false } command).1 hj

/-- An output event behind a key. -/
lemma journaled_interruptEvent {key : Text} (hs : s.Bounded) (hrun : s.commandInProgress = true)
    (hj : j.raised = false → j.Faithful cfg) (hopen : j.raised = false → j.Open cfg s) :
    Journaled cfg (interruptEvent cfg s key) j := by
  rw [interruptEvent]
  split
  · exact journaled_wait hs hrun hj hopen (fun _ _ _ _ h => by cases h)
  · split
    · exact journaled_wait hs hrun hj hopen (fun _ _ _ _ h => by cases h)
    · exact journaled_ended hs rfl hj

/-- **A step keeps the invariant.** -/
theorem journaled_step {label : Label ν} {st st' : State ν} (hjournaled : Journaled cfg st j)
    (h : step cfg st label = some st') : Journaled cfg st' (Journal.record st label st' j) := by
  obtain ⟨s, phase, result⟩ := st
  have hs : s.Bounded := hjournaled.bounded
  have hj := hjournaled.faithful
  cases label with
  | execute action pty tick =>
    cases phase with
    | idle => exact journaled_execute hjournaled h
    | _ => cases h
  | output chunk =>
    obtain rfl := Option.some.inj h
    exact journaled_receive hjournaled
  | wake event tick =>
    obtain ⟨t, htake, h⟩ := Option.bind_eq_some_iff.mp h
    have hsame := sameReads_takeEvent htake
    cases phase with
    | completion command timeout blocking lastOutput =>
      obtain ⟨round, hround, h⟩ := Option.bind_eq_some_iff.mp h
      obtain rfl := Option.some.inj h
      have hrun : s.commandInProgress = true := hjournaled.inProgress (by simp)
      have hsent : j.Sent command s := hjournaled.stage
      have hend := completionRound command (.completion command timeout blocking
        (if event then t.outputBuffer else lastOutput)) (hsame.bounded hs) hround
      have hread := journaled_completion cfg hend (hsame.inProgress.trans hrun) (hsame.bounded hs)
        (hsent.sameReads hsame)
      rw [hsame.position] at hread
      simpa [Journal.record, isRead, hrun] using hread
    | incremental timeout =>
      obtain ⟨round, hround, h⟩ := Option.bind_eq_some_iff.mp h
      obtain rfl := Option.some.inj h
      have hrun : s.commandInProgress = true := hjournaled.inProgress (by simp)
      have hopen : s.commandInProgress = true → j.raised = false → j.Open cfg s := hjournaled.stage
      have hread := journaled_incremental timeout hround (hsame.inProgress.trans hrun)
        (hsame.bounded hs) hj fun hraised => (hopen hrun hraised).sameReads hsame
      rw [hsame.position] at hread
      simpa [Journal.record, isRead, hrun] using hread
    | _ => cases h
  | event =>
    obtain ⟨t, htake, h⟩ := Option.bind_eq_some_iff.mp h
    have hsame := sameReads_takeEvent htake
    have hbounded := hsame.bounded hs
    have hbounded := hsame.bounded hs
    have hphase (hne : phase ≠ .idle) : s.commandInProgress = true ∧ t.commandInProgress = true ∧
        Journal.record ⟨s, phase, result⟩ .event st' j = j := by
      have hrun : s.commandInProgress = true := hjournaled.inProgress hne
      exact ⟨hrun, hsame.inProgress.trans hrun, by simp [Journal.record, isRead, hrun]⟩
    have hstage := hjournaled.stage
    cases phase with
    | input text =>
      obtain ⟨hrun, hrun', hrecord⟩ := hphase (by simp)
      obtain rfl := Option.some.inj h
      rw [hrecord]
      exact journaled_inputEvent hbounded hrun' hj fun hraised => (hstage hrun hraised).sameReads hsame
    | interrupt key =>
      obtain ⟨hrun, hrun', hrecord⟩ := hphase (by simp)
      obtain rfl := Option.some.inj h
      rw [hrecord]
      exact journaled_interruptEvent hbounded hrun' hj fun hraised => (hstage hrun hraised).sameReads hsame
    | currentOutput text =>
      obtain ⟨hrun, hrun', hrecord⟩ := hphase (by simp)
      obtain rfl := Option.some.inj h
      rw [hrecord]
      exact journaled_wait hbounded hrun' hj (fun hraised => (hstage hrun hraised).sameReads hsame)
        (fun _ _ _ _ h => by cases h)
    | _ => cases h
  | deadline =>
    have hphase (hne : phase ≠ .idle) : s.commandInProgress = true ∧
        Journal.record ⟨s, phase, result⟩ .deadline st' j = j := by
      have hrun : s.commandInProgress = true := hjournaled.inProgress hne
      exact ⟨hrun, by simp [Journal.record, isRead, hrun]⟩
    have hstage := hjournaled.stage
    cases phase with
    | input text =>
      obtain ⟨hrun, hrecord⟩ := hphase (by simp)
      obtain rfl := Option.some.inj h
      rw [hrecord]
      exact journaled_wait hs hrun hj (hstage hrun) (fun _ _ _ _ h => by cases h)
    | interrupt key =>
      obtain ⟨hrun, hrecord⟩ := hphase (by simp)
      obtain rfl := Option.some.inj h
      rw [hrecord]
      exact journaled_ended hs rfl hj
    | currentOutput text =>
      obtain ⟨hrun, hrecord⟩ := hphase (by simp)
      obtain rfl := Option.some.inj h
      rw [hrecord]
      exact journaled_wait hs hrun hj (hstage hrun) (fun _ _ _ _ h => by cases h)
    | _ => cases h

end Invariant

/-! ## Runs -/

variable {cfg : Shell ν}

/-- **The session refines `contents`**: in every run, what the timeout and the empty commands behind
the last command returned are the contents of the parts into which they cut the buffer, and while the
command is running the parts are the buffer up to the position. A command that is a key is excepted,
and a read that raised an exception. -/
theorem contents_journal {cwd : String} {labels : List (Label ν)} {st : State ν}
    (hrun : run (step cfg) (start cwd) labels = some st) :
    ∃ j, run (recorded Journal.record (step cfg)) (start cwd, {}) labels = some (st, j) ∧
      (j.raised = false → isSpecialKey j.command = false → ∀ first parts, j.parts = first :: parts →
        contents cfg.interpreter j.command first parts = .ok j.contents ∧
        (st.phase = .idle → st.session.commandInProgress = true →
          first ++ parts.flatten = st.session.outputBuffer.take st.session.lastOutputPosition)) := by
  obtain ⟨j, hrecorded⟩ := run_recorded_iff.mpr hrun
  have hstart : Journaled cfg (start cwd) ({} : Journal) :=
    journaled_ended (Nat.le_refl 0) rfl fun _ => faithful_sent
  have hjournaled : Journaled cfg st j := by
    refine run_invariant (fun q : State ν × Journal => Journaled cfg q.1 q.2) (fun q label q' hq hstep => ?_)
      hstart hrecorded
    obtain ⟨hstep, hrecord⟩ := recorded_eq_some.mp hstep
    rw [hrecord]
    exact journaled_step hq hstep
  refine ⟨j, hrecorded, fun hraised hkey first parts hparts => ?_⟩
  have hj := hjournaled.faithful hraised
  refine ⟨hj.contents hkey first parts hparts, fun hphase hprogress => ?_⟩
  have hstage := hjournaled.stage
  rw [hphase] at hstage
  rw [← (hstage hprogress hraised).read, ← hj.buffer, hparts, List.flatten_cons]

/-- A terminal without echo: a command times out behind its first line, and an empty command sees the
second. -/
def seqRun : List (Label Truncated) :=
  [.execute { command := "seq 2".toList, timeout := some (.whole 5) } .alive .check,
    .output "1\n".toList, .wake false .hardTimeout,
    .output "2\n".toList, .execute { command := [], timeout := some (.whole 5) } .alive .hardTimeout]

/-- The two lines are the contents of the two parts. -/
theorem contents_journal_seq :
    ∃ st j first parts, run (step sampleShell) (start "/") seqRun = some st ∧
      run (recorded Journal.record (step sampleShell)) (start "/", {}) seqRun = some (st, j) ∧
      j.contents = ["1".toList, "2".toList] ∧ j.parts = first :: parts ∧
      contents sampleShell.interpreter j.command first parts = .ok j.contents := by
  have hfacts : (run (recorded Journal.record (step sampleShell)) (start "/", {}) seqRun).map
      (fun q => (q.2.raised, isSpecialKey q.2.command, q.2.parts.length, q.2.contents)) =
        some (false, false, 2, ["1".toList, "2".toList]) := rfl
  obtain ⟨⟨st, j⟩, hrecorded, hq⟩ := Option.map_eq_some_iff.mp hfacts
  obtain ⟨hraised, hkey, hlength, hcontents⟩ := by simpa only [Prod.mk.injEq] using hq
  have hrun := run_recorded_iff.mp ⟨j, hrecorded⟩
  obtain ⟨j', hrecorded', hmain⟩ := contents_journal hrun
  obtain rfl : j = j' := congrArg Prod.snd (Option.some.inj (hrecorded.symm.trans hrecorded'))
  obtain ⟨first, parts, hparts⟩ := List.exists_cons_of_length_pos (l := j.parts) (by omega)
  exact ⟨st, j, first, parts, hrun, hrecorded, hcontents, hparts,
    (hmain hraised hkey first parts hparts).1⟩

end ProRLAgent.Bash
