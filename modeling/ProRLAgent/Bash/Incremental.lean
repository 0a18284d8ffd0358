import ProRLAgent.Bash.Extraction

set_option relaxedAutoImplicit false
set_option autoImplicit false

/-!
# Reading the output of a command in parts

A command that times out returns the output so far, and every empty command behind it returns what
came since, until the prompt of the command is there. The first part is taken from behind the
wrapper; the parts behind it are cut out of the buffer as they are, up to a prompt that begins in
them.

A part that ends inside the echo or inside a prompt is returned with what it has of them, and so is
the part behind it.

## Main definitions

* `ProRLAgent.Bash.extractOutputContent` — the output behind a position.
* `ProRLAgent.Bash.contents` — what the timeout and the empty commands return.
* `ProRLAgent.Bash.CutApart` — parts that end outside the echo and the prompt.

## Main results

* `ProRLAgent.Bash.matchesPs1Metadata_append` — the prompts in the beginning of a buffer.
* `ProRLAgent.Bash.ink_contents` — the parts are the output.
-/

namespace ProRLAgent.Bash

open FnCall (Text)
open Markers PyText Search

variable {ν : Type} (I : Interpreter ν)

/-! ## Reading -/

/-- **`_extract_output_content`.** -/
def extractOutputContent (buffer : Text) (ps1Matches : List (Found Char)) (incrementalStart : ℕ) :
    Except PyError Text :=
  if ps1Matches = [] then .ok (buffer.drop incrementalStart)
  else if 0 < incrementalStart then do
    let newPs1Matches ← matchesPs1Metadata I (buffer.drop incrementalStart)
    match newPs1Matches.getLast? with
    | some last => return (buffer.drop incrementalStart).take last.start
    | none => return buffer.drop incrementalStart
  else
    match ps1Matches.reverse with
    | [] => .ok buffer
    | [last] => .ok (buffer.take last.start)
    | last :: previous :: _ => .ok ((buffer.take last.start).drop (previous.stop + 1))

/-- The prompt that `_is_command_complete` reads: the last one of the buffer. An exception counts as
no prompt. -/
def lastPrompt (buffer : Text) : Option CmdOutputMetadata :=
  match matchesPs1Metadata I buffer with
  | .error _ => none
  | .ok ps1Matches =>
    match ps1Matches.getLast? with
    | none => none
    | some last => (fromPs1Match I last).toOption

/-- The content that an empty command returns, with the position up to which the buffer was read. -/
def incrementalContent (buffer : Text) (lastOutputPosition : ℕ) : Except PyError Text := do
  let ps1Matches ← matchesPs1Metadata I buffer
  let content ← if lastOutputPosition < buffer.length then
      extractOutputContent I buffer ps1Matches lastOutputPosition
    else .ok []
  return (processOutput content [] true).1

/-- The contents that empty commands return, one for each part that arrives, until the command is
complete. -/
def reads : Text → List Text → Except PyError (List Text)
  | _, [] => .ok []
  | buffer, part :: parts => do
    let content ← incrementalContent I (buffer ++ part) buffer.length
    if (lastPrompt I (buffer ++ part)).isSome then return [content]
    let rest ← reads (buffer ++ part) parts
    return content :: rest

/-- **What the timeout and the empty commands return**, if the timeout sees the first part. -/
def contents (command first : Text) (parts : List Text) : Except PyError (List Text) := do
  let rest ← reads I first parts
  return (commandOutput true first command).1 :: rest

/-! ## Prompts in parts of a buffer -/

variable {I}

/-- **The prompts in the beginning of a buffer** are those of the buffer that end in it. -/
theorem matchesPs1Metadata_append {x y : Text} {ms : List (Found Char)}
    (h : matchesPs1Metadata I (x ++ y) = .ok ms) :
    matchesPs1Metadata I x = .ok (ms.filter fun f => f.stop ≤ x.length) := by
  obtain ⟨hlimit, rfl⟩ := (keepJson_eq_ok_iff I).mp h
  have hfind : find ps1Marks x = (find ps1Marks (x ++ y)).filter fun f => f.stop ≤ x.length := by
    rw [find, find, findFrom_eq_filter inline_ps1Marks x y]
    simp only [Nat.zero_add]
  refine (keepJson_eq_ok_iff I).mpr ⟨fun m hm => hlimit m ?_, ?_⟩
  · rw [hfind] at hm
    exact List.mem_of_mem_filter hm
  · rw [hfind, List.filter_filter, List.filter_filter]
    exact List.filter_congr fun m _ => Bool.and_comm _ _

/-- The only prompt behind a text without markers. -/
lemma matchesPs1Metadata_block {body : Text} (hbody : HoldsObject I body) {x rest : Text}
    (hopen : ¬ ps1Marks.opening <:+: x) (hclose : ¬ ps1Marks.closing <:+: x)
    (hline : lineStart ps1Marks true x = true) (hrest : ¬ ps1Marks.closing <:+: rest) :
    matchesPs1Metadata I
        (x ++ (ps1Marks.opening ++ (body ++ (ps1Marks.closing ++ rest)))) =
      .ok [.block x.length ps1Marks body] := by
  obtain ⟨f, hf, hcond⟩ := findFrom_append_block inline_ps1Marks hbody.enclosed hline 0 rest
  rw [if_pos (closed_of_no_opening hopen true), Nat.zero_add] at hcond
  rw [findFrom_eq_nil hclose, findFrom_eq_nil hrest, List.nil_append, hcond] at hf
  obtain ⟨entries, hentries⟩ := hbody.object
  rw [matchesPs1Metadata, find, hf, keepJson]
  simp only [Found.block, hentries]
  rfl

/-! ## The parts of the arriving text -/

section Parts

variable {crlf : Bool} {command output json : Text}

/-- The echo without the line end behind its brace. -/
def echoBody (crlf : Bool) (command : Text) : Text := terminal crlf (wrapCommand command)

/-- The output with the line ends around it. -/
def outputLines (crlf : Bool) (output : Text) : Text := eol crlf ++ (output ++ eol crlf)

/-- What a prompt block has between its markers. -/
def promptBody (crlf : Bool) (json : Text) : Text := eol crlf ++ (terminal crlf json ++ eol crlf)

/-- A prompt block without the line ends around it. -/
def promptText (crlf : Bool) (json : Text) : Text :=
  ps1Begin ++ (promptBody crlf json ++ ps1End)

/-- **The buffer of a completed command** in its parts. -/
lemma completedBuffer_eq : completedBuffer crlf command output json =
    echoBody crlf command ++ (outputLines crlf output ++ (promptText crlf json ++ eol crlf)) := by
  obtain ⟨tail, hblock, rfl⟩ := promptBlock_eq crlf json
  rw [completedBuffer, hblock, echo, terminal_append]
  simp only [echoBody, outputLines, promptText, promptBody, eol, List.append_assoc]

/-- The echo begins with a brace. -/
lemma exists_echoBody_cons (crlf : Bool) (command : Text) :
    ∃ rest, echoBody crlf command = '\x7b' :: rest := by
  obtain ⟨head, hhead⟩ : ∃ head, wrapperHead = '\x7b' :: head := by
    delta wrapperHead
    rw [String.toList_ofList]
    exact ⟨_, rfl⟩
  rw [echoBody, wrapCommand, hhead, List.cons_append]
  cases crlf with
  | false => exact ⟨_, rfl⟩
  | true => exact ⟨_, terminal_cons (by decide) _⟩

/-- A text between white space has no marker that it does not have. -/
lemma not_infix_outputLines {c : Char} {w : Text} (hspace : ∀ d ∈ c :: w, isSpace d = false)
    (h : ¬ c :: w <:+: output) : ¬ c :: w <:+: outputLines crlf output := by
  have hnotMem : ∀ d ∈ eol crlf, d ∉ c :: w := fun d hd hmem => by
    have hd' := isSpace_of_mem_eol d hd
    rw [hspace d hmem] at hd'
    cases hd'
  intro hocc
  have hfirst : c ∉ eol crlf := fun hmem => hnotMem c hmem List.mem_cons_self
  rw [outputLines, infix_append_iff_of_notMem hfirst] at hocc
  exact h (infix_of_append_of_forall (List.cons_ne_nil c w) hnotMem hocc)

/-- Line ends have no ink. -/
@[simp] lemma ink_eol : ink (eol crlf) = [] := ink_eq_nil_iff.mpr isSpace_of_mem_eol

/-- The line ends around the output have no ink. -/
@[simp] lemma ink_outputLines : ink (outputLines crlf output) = ink output := by
  rw [outputLines, ink_append, ink_append, ink_eol, List.append_nil, List.nil_append]

/-- A line begins behind every part at the end of the output. -/
lemma lineStart_of_suffix {x : Text} (h : x <:+ outputLines crlf output) :
    lineStart ps1Marks true x = true := by
  rcases List.eq_nil_or_concat x with rfl | ⟨init, d, rfl⟩
  · rfl
  · obtain ⟨before, hbefore⟩ := h
    have hlast : (outputLines crlf output).getLast? = some '\n' := by
      have hne : eol crlf ≠ [] := by cases crlf <;> decide
      have hend : (eol crlf).getLast? = some '\n' := by cases crlf <;> rfl
      rw [outputLines, ← List.append_assoc, List.getLast?_append_of_ne_nil _ hne, hend]
    rw [← hbefore, List.concat_eq_append, ← List.append_assoc, List.getLast?_concat,
      Option.some.injEq] at hlast
    rw [List.concat_eq_append, lineStart, List.getLast?_concat, hlast]
    rfl

/-- A stripped part of the output with its line ends is not longer than the output. -/
lemma length_strip_le_output {x : Text} (h : x <:+: outputLines crlf output) :
    (strip x).length ≤ output.length := by
  have hedge {d : Char} (hd : isSpace d = false) : d ∉ eol crlf := fun hmem => by
    rw [isSpace_of_mem_eol d hmem] at hd
    cases hd
  have hstrip : strip x <:+: x := by
    obtain ⟨before, after, hparts, -⟩ := exists_strip x
    exact ⟨before, after, by rw [List.append_assoc]; exact hparts.symm⟩
  rcases rstrip_cases (lstrip x) with hnil | ⟨init, d, hlast, hd⟩
  · rw [strip, hnil]
    exact Nat.zero_le _
  · have hocc := hstrip.trans h
    rw [outputLines, ← List.append_assoc, strip, hlast] at hocc
    have hbefore := infix_of_append_of_last (hedge hd) hocc
    -- The first letter is no white space either.
    obtain ⟨c, w, hcons⟩ := List.exists_cons_of_ne_nil (List.concat_ne_nil d init)
    have hbegin : c :: w <+: lstrip x := by
      rw [← hcons, ← hlast]
      exact List.rdropWhile_prefix _ _
    obtain ⟨rest, hrest⟩ := hbegin
    have hfirst := List.head?_dropWhile_not isSpace x
    rw [← lstrip, ← hrest] at hfirst
    have hc : isSpace c = false := hfirst
    rw [hcons, infix_append_iff_of_notMem (hedge hc)] at hbefore
    rw [strip, hlast, hcons]
    exact hbefore.length_le

end Parts

/-! ## One part -/

section Read

variable (I) in
/-- **The prompt of a command**: it holds a JSON object that is read, and it is the only one in the
buffer. -/
structure OnlyPrompt (crlf : Bool) (command output json : Text) : Prop where
  holds : HoldsObject I (promptBody crlf json)
  readable : ∃ metadata, fromPs1Match I (.block
    (echoBody crlf command ++ outputLines crlf output).length ps1Marks (promptBody crlf json)) =
      .ok metadata
  only : matchesPs1Metadata I (completedBuffer crlf command output json) =
    .ok [.block (echoBody crlf command ++ outputLines crlf output).length ps1Marks
      (promptBody crlf json)]

variable {crlf : Bool} {command output json : Text} (hprompt : OnlyPrompt I crlf command output json)

include hprompt

/-- Before the prompt is there, nothing is found. -/
lemma matches_before {q : Text} (hq : q <+: outputLines crlf output) :
    matchesPs1Metadata I (echoBody crlf command ++ q) = .ok [] := by
  obtain ⟨x, hx⟩ := hq
  have honly := hprompt.only
  rw [completedBuffer_eq, ← hx, List.append_assoc, ← List.append_assoc] at honly
  rw [matchesPs1Metadata_append honly]
  have hlength : 0 < ps1Marks.closing.length := by decide
  have hlong := congrArg List.length hx
  rw [List.length_append] at hlong
  rw [List.filter_cons_of_neg]
  · rfl
  · simp only [Found.block, List.length_append, decide_eq_true_eq]
    omega

/-- When the prompt is there, it is found. -/
lemma matches_behind {r : Text} (hr : r <+: eol crlf) :
    matchesPs1Metadata I
        (echoBody crlf command ++ (outputLines crlf output ++ (promptText crlf json ++ r))) =
      .ok [.block (echoBody crlf command ++ outputLines crlf output).length ps1Marks
        (promptBody crlf json)] := by
  obtain ⟨x, hx⟩ := hr
  have honly := hprompt.only
  have hparts : completedBuffer crlf command output json =
      echoBody crlf command ++ (outputLines crlf output ++ (promptText crlf json ++ r)) ++ x := by
    rw [completedBuffer_eq, ← hx]
    simp only [List.append_assoc]
  rw [hparts] at honly
  rw [matchesPs1Metadata_append honly, List.filter_cons_of_pos]
  · rfl
  · have hopening : ps1Marks.opening.length = ps1Begin.length := rfl
    have hclosing : ps1Marks.closing.length = ps1End.length := rfl
    simp only [Found.block, promptText, List.length_append, decide_eq_true_eq, hopening, hclosing]
    omega

omit hprompt in
/-- What an empty command makes of a part. -/
lemma ink_processOutput {x : Text} (hx : (strip x).length ≤ historyLimit) :
    ink (processOutput x [] true).1 = ink x := by
  have hlength : (strip (lineFeeds x)).length ≤ historyLimit := by
    rw [strip_lineFeeds]
    exact (length_lineFeeds_le _).trans hx
  rw [processOutput, if_pos rfl, if_pos rfl, truncateOutputIfNeeded_fst hlength, ink_strip,
    ink_lineFeeds]

/-- **A part before the prompt** is returned as it is. -/
lemma incrementalContent_before {q part : Text} (hq : q ++ part <+: outputLines crlf output) :
    incrementalContent I (echoBody crlf command ++ (q ++ part)) (echoBody crlf command ++ q).length =
      .ok (processOutput part [] true).1 := by
  rw [incrementalContent, matches_before hprompt hq, Except.ok_bind]
  have hdrop : (echoBody crlf command ++ (q ++ part)).drop (echoBody crlf command ++ q).length =
      part := by
    rw [← List.append_assoc, List.drop_left]
  rcases List.eq_nil_or_concat part with rfl | ⟨init, d, hpart⟩
  · rw [List.append_nil, if_neg (lt_irrefl _)]
    rfl
  · have hlt : (echoBody crlf command ++ q).length <
        (echoBody crlf command ++ (q ++ part)).length := by
      rw [hpart]
      simp only [List.length_append, List.concat_eq_append, List.length_singleton]
      omega
    rw [if_pos hlt, extractOutputContent, if_pos rfl, hdrop]
    rfl

/-- **The part with the prompt** is returned up to the prompt. -/
lemma incrementalContent_prompt (hopen : ¬ ps1Begin <:+: output) (hclose : ¬ ps1End <:+: output)
    {q x r : Text} (hx : q ++ x = outputLines crlf output) (hr : r <+: eol crlf) :
    incrementalContent I
        (echoBody crlf command ++ (outputLines crlf output ++ (promptText crlf json ++ r)))
        (echoBody crlf command ++ q).length = .ok (processOutput x [] true).1 := by
  have hsuffix : x <:+ outputLines crlf output := ⟨q, hx⟩
  have hno {c : Char} {w : Text} (hspace : ∀ d ∈ c :: w, isSpace d = false)
      (h : ¬ c :: w <:+: output) : ¬ c :: w <:+: x := fun hocc =>
    not_infix_outputLines hspace h (hocc.trans hsuffix.isInfix)
  have hbuffer : echoBody crlf command ++ (outputLines crlf output ++ (promptText crlf json ++ r)) =
      echoBody crlf command ++ q ++ (x ++ (ps1Marks.opening ++
        (promptBody crlf json ++ (ps1Marks.closing ++ r)))) := by
    rw [← hx, promptText]
    simp only [List.append_assoc]
    rfl
  have hspace : ¬ ps1Marks.closing <:+: r := fun hocc => by
    have hmem : '#' ∈ eol crlf := hr.subset (hocc.subset (by decide))
    exact absurd (isSpace_of_mem_eol _ hmem) (by decide)
  rw [incrementalContent, matches_behind hprompt hr, Except.ok_bind, hbuffer, if_pos,
    extractOutputContent, if_neg (List.cons_ne_nil _ _), if_pos, List.drop_left,
    matchesPs1Metadata_block hprompt.holds (hno (forall_of_all (by decide)) hopen)
      (hno (forall_of_all (by decide)) hclose)
      (lineStart_of_suffix hsuffix) hspace]
  · simp only [Except.ok_bind, List.getLast?_singleton, Found.block, List.take_left]
    rfl
  · obtain ⟨rest, hrest⟩ := exists_echoBody_cons crlf command
    rw [hrest]
    exact Nat.succ_pos _
  · have hpos : 0 < ps1Marks.opening.length := by decide
    simp only [List.length_append]
    omega

/-- **Behind the prompt** nothing more is returned. -/
lemma incrementalContent_behind {r part : Text} (hr : r ++ part <+: eol crlf) :
    incrementalContent I
        (echoBody crlf command ++ (outputLines crlf output ++ (promptText crlf json ++ (r ++ part))))
        (echoBody crlf command ++ (outputLines crlf output ++ (promptText crlf json ++ r))).length =
      .ok (processOutput part [] true).1 := by
  have hspace : ¬ ps1Marks.closing <:+: part := fun hocc => by
    have hmem : '#' ∈ eol crlf :=
      hr.subset (List.mem_append_right r (hocc.subset (by decide)))
    exact absurd (isSpace_of_mem_eol _ hmem) (by decide)
  have hnone : matchesPs1Metadata I part = .ok [] := by
    rw [matchesPs1Metadata, find, findFrom_eq_nil hspace]
    rfl
  have hbuffer : echoBody crlf command ++
      (outputLines crlf output ++ (promptText crlf json ++ (r ++ part))) =
        echoBody crlf command ++ (outputLines crlf output ++ (promptText crlf json ++ r)) ++ part := by
    simp only [List.append_assoc]
  rw [incrementalContent, matches_behind hprompt hr, Except.ok_bind, hbuffer]
  rcases part with _ | ⟨c, part⟩
  · rw [List.append_nil, if_neg (lt_irrefl _)]
    rfl
  · obtain ⟨rest, hrest⟩ := exists_echoBody_cons crlf command
    rw [if_pos, extractOutputContent, if_neg (List.cons_ne_nil _ _), if_pos, List.drop_left, hnone]
    · rfl
    · rw [hrest]
      exact Nat.succ_pos _
    · simp only [List.length_append, List.length_cons]
      omega

/-- Before the prompt is there, the command is not complete. -/
lemma lastPrompt_before {q : Text} (hq : q <+: outputLines crlf output) :
    lastPrompt I (echoBody crlf command ++ q) = none := by
  rw [lastPrompt, matches_before hprompt hq]
  rfl

/-- When the prompt is there, the command is complete. -/
lemma lastPrompt_behind {r : Text} (hr : r <+: eol crlf) :
    (lastPrompt I (echoBody crlf command ++
      (outputLines crlf output ++ (promptText crlf json ++ r)))).isSome = true := by
  obtain ⟨metadata, hmetadata⟩ := hprompt.readable
  rw [lastPrompt, matches_behind hprompt hr]
  simp only [List.getLast?_singleton, hmetadata]
  rfl

end Read

/-! ## All parts -/

/-- Where parts end that begin at a position. -/
def cutsFrom : ℕ → List Text → List ℕ
  | _, [] => []
  | pos, part :: parts => (pos + part.length) :: cutsFrom (pos + part.length) parts

section Reads

variable {crlf : Bool} {command output json : Text}

/-- **A cut outside the prompt.** -/
def OutsidePrompt (crlf : Bool) (command output json : Text) (cut : ℕ) : Prop :=
  cut ≤ (echoBody crlf command ++ outputLines crlf output).length ∨
    (echoBody crlf command ++ (outputLines crlf output ++ promptText crlf json)).length ≤ cut

instance decidableOutsidePrompt (cut : ℕ) :
    Decidable (OutsidePrompt crlf command output json cut) :=
  inferInstanceAs (Decidable (_ ∨ _))

/-- A cut outside the prompt leaves a beginning of the output, or all of it with the prompt. -/
lemma prefix_or_of_outsidePrompt {q y : Text}
    (hq : q ++ y = outputLines crlf output ++ (promptText crlf json ++ eol crlf))
    (hcut : OutsidePrompt crlf command output json (echoBody crlf command ++ q).length) :
    q <+: outputLines crlf output ∨
      ∃ r, r ++ y = eol crlf ∧ q = outputLines crlf output ++ (promptText crlf json ++ r) := by
  have hbegin : q <+: outputLines crlf output ++ (promptText crlf json ++ eol crlf) := ⟨y, hq⟩
  rcases hcut with hcut | hcut
  · left
    rw [List.length_append, List.length_append] at hcut
    exact List.prefix_of_prefix_length_le hbegin (List.prefix_append _ _) (by omega)
  · right
    rw [← List.append_assoc] at hq hbegin
    have hle : (outputLines crlf output ++ promptText crlf json).length ≤ q.length := by
      simp only [List.length_append] at hcut ⊢
      omega
    obtain ⟨r, rfl⟩ : outputLines crlf output ++ promptText crlf json <+: q :=
      List.prefix_of_prefix_length_le (List.prefix_append _ _) hbegin hle
    refine ⟨r, ?_, List.append_assoc _ _ _⟩
    rw [List.append_assoc] at hq
    exact List.append_cancel_left hq

variable (hprompt : OnlyPrompt I crlf command output json)

include hprompt

/-- The parts behind the prompt. -/
lemma reads_behind {r : Text} {parts : List Text} (hr : r ++ parts.flatten = eol crlf) :
    ∃ cs, reads I (echoBody crlf command ++
        (outputLines crlf output ++ (promptText crlf json ++ r))) parts = .ok cs ∧
      ink cs.flatten = [] := by
  cases parts with
  | nil => exact ⟨[], rfl, rfl⟩
  | cons part parts =>
    rw [List.flatten_cons, ← List.append_assoc] at hr
    have hbegin : r ++ part <+: eol crlf := ⟨_, hr⟩
    have hbuffer : echoBody crlf command ++
        (outputLines crlf output ++ (promptText crlf json ++ r)) ++ part =
          echoBody crlf command ++
            (outputLines crlf output ++ (promptText crlf json ++ (r ++ part))) := by
      simp only [List.append_assoc]
    have hspace : ∀ c ∈ part, isSpace c := fun c hc =>
      isSpace_of_mem_eol c (hbegin.subset (List.mem_append_right r hc))
    refine ⟨[(processOutput part [] true).1], ?_, ?_⟩
    · rw [reads, hbuffer, incrementalContent_behind hprompt hbegin, Except.ok_bind,
        lastPrompt_behind hprompt hbegin]
      rfl
    · rw [List.flatten_cons, List.flatten_nil, List.append_nil, ink_processOutput,
        ink_eq_nil_iff.mpr hspace]
      rw [strip_eq_nil_iff.mpr (ink_eq_nil_iff.mpr hspace)]
      exact Nat.zero_le _

/-- **The parts behind a beginning of the output** are the rest of it. -/
theorem reads_before (hopen : ¬ ps1Begin <:+: output) (hclose : ¬ ps1End <:+: output)
    (hshort : output.length < historyLimit) {q : Text} {parts : List Text}
    (hbefore : q <+: outputLines crlf output)
    (hq : q ++ parts.flatten = outputLines crlf output ++ (promptText crlf json ++ eol crlf))
    (hcuts : ∀ cut ∈ cutsFrom (echoBody crlf command ++ q).length parts,
      OutsidePrompt crlf command output json cut) :
    ∃ cs, reads I (echoBody crlf command ++ q) parts = .ok cs ∧
      ink q ++ ink cs.flatten = ink output := by
  induction parts generalizing q with
  | nil =>
    have hlength := congrArg List.length hq
    have hle := hbefore.length_le
    have hpos : 0 < ps1Begin.length := by decide
    simp only [List.flatten_nil, List.append_nil, List.length_append, promptText] at hlength
    omega
  | cons part parts ih =>
    rw [List.flatten_cons, ← List.append_assoc] at hq
    obtain ⟨hcut, hcuts⟩ := List.forall_mem_cons.mp hcuts
    have hbuffer : echoBody crlf command ++ q ++ part = echoBody crlf command ++ (q ++ part) :=
      List.append_assoc _ _ _
    have hpos : (echoBody crlf command ++ q).length + part.length =
        (echoBody crlf command ++ (q ++ part)).length := by
      rw [← hbuffer]
      exact List.length_append.symm
    rw [hpos] at hcut hcuts
    rw [reads, hbuffer]
    rcases prefix_or_of_outsidePrompt hq hcut with hnext | ⟨r, hr, heq⟩
    · -- The prompt is not there.
      obtain ⟨cs, hcs, hink⟩ := ih hnext hq hcuts
      have hpart : part <:+: outputLines crlf output :=
        (List.suffix_append q part).isInfix.trans hnext.isInfix
      refine ⟨(processOutput part [] true).1 :: cs, ?_, ?_⟩
      · rw [incrementalContent_before hprompt hnext, Except.ok_bind, lastPrompt_before hprompt hnext,
          hcs]
        rfl
      rw [List.flatten_cons, ink_append, ink_processOutput, ← List.append_assoc, ← ink_append, hink]
      exact (length_strip_le_output hpart).trans hshort.le
    · -- The prompt ends the command.
      obtain ⟨x, hx⟩ := hbefore
      have hbegin : r <+: eol crlf := ⟨_, hr⟩
      have hpart : x <:+: outputLines crlf output := ⟨q, [], by rw [List.append_nil]; exact hx⟩
      refine ⟨[(processOutput x [] true).1], ?_, ?_⟩
      · rw [heq, incrementalContent_prompt hprompt hopen hclose hx hbegin, Except.ok_bind,
          lastPrompt_behind hprompt hbegin]
        rfl
      rw [List.flatten_cons, List.flatten_nil, List.append_nil, ink_processOutput, ← ink_append, hx,
        ink_outputLines]
      exact (length_strip_le_output hpart).trans hshort.le

end Reads

/-! ## The first part -/

section First

variable {crlf : Bool} {command output json : Text}

/-- The first line of a text is not that of the command. -/
def FirstLineDiffers (command text : Text) : Prop :=
  ∀ line ∈ (splitlines (strip (lineFeeds text))).head?, ∀ first ∈ (commandLines command).head?,
    strip line ≠ strip first

instance decidableFirstLineDiffers (command text : Text) :
    Decidable (FirstLineDiffers command text) :=
  inferInstanceAs (Decidable (∀ line ∈ _, ∀ first ∈ _, _))

/-- White space at the end does not change the first line. -/
lemma FirstLineDiffers.append {text space : Text} (h : FirstLineDiffers command text)
    (hspace : ∀ c ∈ space, isSpace c) : FirstLineDiffers command (text ++ space) := by
  rw [FirstLineDiffers, strip_lineFeeds, strip_append hspace, ← strip_lineFeeds]
  exact h

/-- **What the timeout returns** of a text that is extracted. -/
lemma ink_commandOutput {buffer y : Text} (hextract : extractCleanOutput true buffer = strip y)
    (hlength : (strip y).length ≤ historyLimit) (hecho : FirstLineDiffers command y) :
    ink (commandOutput true buffer command).1 = ink y := by
  have hshort : (strip (lineFeeds y)).length ≤ historyLimit := by
    rw [strip_lineFeeds]
    exact (length_lineFeeds_le _).trans hlength
  have hink : ink (withoutEcho (strip (lineFeeds y)) command) = ink y := by
    rw [withoutEcho]
    split_ifs
    · rw [ink_strip, ink_lineFeeds]
    · rw [removeCommandEcho_eq, echoedLines_eq_zero_iff.mpr hecho, List.drop_zero, ink_joinLines,
        ink_flatten_splitlines, ink_strip, ink_lineFeeds]
  rw [commandOutput_of_extract hextract, truncateOutputIfNeeded_fst, hink]
  exact (length_withoutEcho_le _ _).trans hshort

/-- Without a brace at the end of a line nothing of the wrapper is left. -/
lemma extract_behind_echo (hbrace : ¬ braceFeed <:+: command ++ ['\n']) {x : Text}
    (hbreaks : crlf = true → ¬ braceFeed <:+: x) :
    extractCleanOutput true (echo crlf command ++ x) = strip (removePs1Metadata x) := by
  have hterminal : terminal crlf [] = [] := by cases crlf <;> rfl
  rw [extractCleanOutput_echo_append hbreaks, wrapperRest_eq_nil_iff.mpr hbrace, hterminal,
    List.nil_append]

/-- A text without markers is not cut off. -/
lemma removePs1Metadata_of_no_marker {x : Text} (hopen : ¬ ps1Begin <:+: x)
    (hclose : ¬ ps1End <:+: x) : removePs1Metadata x = x := by
  rw [removePs1Metadata, splitFirst_eq_none hopen]
  exact beforeFirst_eq_self hclose

/-- The echo and the line end behind its brace. -/
lemma echo_eq : echo crlf command = echoBody crlf command ++ eol crlf := terminal_append _ _

/-- **The first part ends in the output.** -/
lemma ink_first_output (hbrace : ¬ braceFeed <:+: command ++ ['\n'])
    (hbreaks : crlf = true → ¬ braceFeed <:+: output) (hopen : ¬ ps1Begin <:+: output)
    (hclose : ¬ ps1End <:+: output) (hshort : output.length < historyLimit) {x : Text}
    (hx : x <+: output ++ eol crlf) (hecho : FirstLineDiffers command (output.take x.length)) :
    ink (commandOutput true (echo crlf command ++ x) command).1 = ink x := by
  have hsub : x <:+: outputLines crlf output :=
    hx.isInfix.trans (List.suffix_append (eol crlf) _).isInfix
  have hno : crlf = true → ¬ braceFeed <:+: x := by
    rintro rfl hocc
    rcases braceFeed_infix_append (hocc.trans hx.isInfix) with h | h | ⟨-, h⟩
    · exact hbreaks rfl h
    · exact absurd h (by decide)
    · exact absurd h (by decide)
  have hmarker : removePs1Metadata x = x := removePs1Metadata_of_no_marker
    (fun h => not_infix_outputLines (forall_of_all (by decide)) hopen (h.trans hsub))
    (fun h => not_infix_outputLines (forall_of_all (by decide)) hclose (h.trans hsub))
  refine ink_commandOutput (by rw [extract_behind_echo hbrace hno, hmarker])
    ((length_strip_le_output hsub).trans hshort.le) ?_
  -- Behind the output there are line ends only.
  obtain ⟨space, hspace, hparts⟩ : ∃ space, (∀ c ∈ space, isSpace c) ∧
      x = output.take x.length ++ space := by
    rcases List.prefix_or_prefix_of_prefix hx (List.prefix_append output _) with h | ⟨space, h⟩
    · exact ⟨[], by simp, by rw [List.append_nil]; exact List.prefix_iff_eq_take.mp h⟩
    · refine ⟨space, fun c hc => ?_, ?_⟩
      · rw [← h, List.prefix_append_right_inj] at hx
        exact isSpace_of_mem_eol c (hx.subset hc)
      · rw [← h, List.take_of_length_le (by simp)]
  rw [hparts]
  exact hecho.append hspace

/-- **The first part holds the prompt.** -/
lemma ink_first_prompt (hbrace : ¬ braceFeed <:+: command ++ ['\n'])
    (hbreaks : crlf = true → ¬ braceFeed <:+: output) (hopen : ¬ ps1Begin <:+: output)
    (hshort : output.length < historyLimit) {r : Text} (hr : r <+: eol crlf)
    (hecho : FirstLineDiffers command output) :
    ink (commandOutput true (echo crlf command ++
      (output ++ (eol crlf ++ (promptText crlf json ++ r)))) command).1 = ink output := by
  obtain ⟨rest, hrest⟩ := hr
  have hno : crlf = true → ¬ braceFeed <:+:
      output ++ (eol crlf ++ (promptText crlf json ++ r)) := by
    rintro rfl hocc
    obtain ⟨tail, hblock, rfl⟩ := promptBlock_eq true json
    have hlong : braceFeed <:+: output ++ promptBlock true json := hocc.trans ⟨[], rest, by
      rw [hblock, promptText, promptBody, List.nil_append]
      simp only [List.append_assoc, hrest]⟩
    exact hbreaks rfl (infix_append_promptBlock hlong)
  have hcut : removePs1Metadata (output ++ (eol crlf ++ (promptText crlf json ++ r))) =
      output ++ eol crlf := by
    rw [removePs1Metadata, promptText, List.append_assoc, splitFirst_ps1Begin hopen]
  have hlength : (strip (output ++ eol crlf)).length ≤ historyLimit := by
    rw [strip_append isSpace_of_mem_eol]
    exact (length_strip_le output).trans hshort.le
  rw [ink_commandOutput (by rw [extract_behind_echo hbrace hno, hcut]) hlength
    (hecho.append isSpace_of_mem_eol), ink_append, ink_eol, List.append_nil]

end First

/-! ## A cut behind the brace of the wrapper -/

section Brace

variable {crlf : Bool} {command : Text}

/-- No line of a text is a brace. -/
def NoBraceLine (text : Text) : Prop := ∀ line ∈ text.splitOn '\n', strip line ≠ ['\x7d']

/-- The lines of two texts with a line feed between them. -/
lemma NoBraceLine.append_cons {x y : Text} (hx : NoBraceLine x) (hy : NoBraceLine y) :
    NoBraceLine (x ++ '\n' :: y) := by
  intro line hline
  rw [List.splitOn_append_cons_self, List.mem_append] at hline
  exact hline.elim (hx line) (hy line)

/-- A text without braces. -/
lemma noBraceLine_of_notMem {x : Text} (h : '\x7d' ∉ x) : NoBraceLine x := by
  have hmem (y : Text) : ∀ line ∈ y.splitOn '\n', ∀ c ∈ line, c ∈ y := by
    induction y with
    | nil =>
      intro line hline c hc
      rw [List.splitOn_nil, List.mem_singleton] at hline
      rw [hline] at hc
      cases hc
    | cons d y ih =>
      intro line hline c hc
      obtain ⟨first, rest, hlines⟩ := List.exists_cons_of_ne_nil (List.splitOn_ne_nil '\n' y)
      rw [List.splitOn_cons_eq_if_modifyHead, hlines] at hline
      rw [hlines] at ih
      split_ifs at hline
      · rcases List.mem_cons.mp hline with rfl | hline
        · cases hc
        · exact List.mem_cons_of_mem d (ih line hline c hc)
      · rcases List.mem_cons.mp hline with rfl | hline
        · exact (List.mem_cons.mp hc).elim (fun h => h ▸ List.mem_cons_self) fun hc =>
            List.mem_cons_of_mem d (ih first List.mem_cons_self c hc)
        · exact List.mem_cons_of_mem d (ih line (List.mem_cons_of_mem first hline) c hc)
  intro line hline hstrip
  refine h (hmem x line hline _ ?_)
  obtain ⟨before, after, hparts, -⟩ := exists_strip line
  rw [hparts, hstrip]
  simp

/-- Blanks before a text do not make a line a brace. -/
lemma NoBraceLine.blanks {x : Text} (h : NoBraceLine x) {blanks : Text}
    (hblanks : ∀ c ∈ blanks, isSpace c ∧ c ≠ '\n') : NoBraceLine (blanks ++ x) := by
  induction blanks with
  | nil => exact h
  | cons b blanks ih =>
    obtain ⟨hb, hblanks⟩ := List.forall_mem_cons.mp hblanks
    have hrest := ih hblanks
    obtain ⟨first, rest, hlines⟩ := List.exists_cons_of_ne_nil (List.splitOn_ne_nil '\n' (blanks ++ x))
    rw [NoBraceLine, hlines, List.forall_mem_cons] at hrest
    rw [NoBraceLine, List.cons_append, List.splitOn_cons_eq_if_modifyHead, hlines,
      if_neg (by simpa using hb.2), List.modifyHead_cons, List.forall_mem_cons]
    refine ⟨?_, hrest.2⟩
    have hspace : ∀ c ∈ [b], isSpace c := by simpa using hb.1
    rw [← List.singleton_append, strip_append_left hspace]
    exact hrest.1

/-- On the terminal lines may have a carriage return at their end. -/
lemma forall₂_splitOn_terminal {after : Text} (hafter : after = [] ∨ after = ['\r']) (x : Text) :
    List.Forall₂ (fun line line' => line = line' ∨ line = line' ++ ['\r'])
      ((terminal true x ++ after).splitOn '\n') (x.splitOn '\n') := by
  induction x with
  | nil =>
    have hnotMem : '\n' ∉ after := by rcases hafter with rfl | rfl <;> decide
    have hempty : terminal true [] = [] := rfl
    rw [hempty, List.nil_append, List.splitOn_eq_singleton hnotMem, List.splitOn_nil]
    exact .cons (hafter.imp id id) .nil
  | cons c x ih =>
    by_cases hc : c = '\n'
    · subst hc
      rw [terminal_newline]
      have hleft : ('\r' :: '\n' :: terminal true x ++ after).splitOn '\n' =
          ['\r'] :: (terminal true x ++ after).splitOn '\n' :=
        List.splitOn_append_cons_self ['\r'] (terminal true x ++ after)
      have hright : ('\n' :: x).splitOn '\n' = [] :: x.splitOn '\n' :=
        List.splitOn_append_cons_self [] x
      rw [hleft, hright]
      exact .cons (Or.inr rfl) ih
    · rw [terminal_cons hc, List.cons_append, List.splitOn_cons_eq_if_modifyHead,
        List.splitOn_cons_eq_if_modifyHead, if_neg (by simpa using hc), if_neg (by simpa using hc)]
      generalize (terminal true x ++ after).splitOn '\n' = lines at ih ⊢
      generalize x.splitOn '\n' = lines' at ih ⊢
      cases ih with
      | nil => exact .nil
      | cons hline hrest =>
        refine .cons ?_ hrest
        rcases hline with rfl | rfl
        · exact Or.inl rfl
        · exact Or.inr rfl

/-- A carriage return at its end does not make a line a brace. -/
lemma NoBraceLine.terminal {x : Text} (h : NoBraceLine x) :
    NoBraceLine (terminal true x ++ ['\r']) := by
  have hspace : ∀ c ∈ ['\r'], isSpace c := forall_of_all (by decide)
  have hlines : ((Bash.terminal true x ++ ['\r']).splitOn '\n').map strip =
      (x.splitOn '\n').map strip := by
    rw [← List.forall₂_eq_eq_eq, List.forall₂_map_left_iff, List.forall₂_map_right_iff]
    refine (forall₂_splitOn_terminal (Or.inr rfl) x).imp fun line line' heq => ?_
    rcases heq with rfl | rfl
    · rfl
    · exact strip_append hspace line'
  intro line hline hbrace
  have hmem := List.mem_map_of_mem (f := strip) hline
  rw [hlines] at hmem
  obtain ⟨line', hline', heq⟩ := List.mem_map.mp hmem
  exact h line' hline' (heq.trans hbrace)

/-- Behind a brace at the end of a text there is nothing. -/
lemma behindBraceLine_append {x space : Text} (hx : NoBraceLine x) (hspace : ∀ c ∈ space, isSpace c)
    (hline : '\n' ∉ space) : behindBraceLine (x ++ '\n' :: '\x7d' :: space) = [] := by
  have hlast : ('\x7d' :: space).splitOn '\n' = ['\x7d' :: space] :=
    List.splitOn_eq_singleton (by simpa using hline)
  have hstrip : strip ('\x7d' :: space) = ['\x7d'] := by
    rw [← List.singleton_append, strip_append hspace]
    rfl
  have hskip : ∀ line ∈ x.splitOn '\n', decide (strip line ≠ ['\x7d']) = true := fun line hmem =>
    decide_eq_true (hx line hmem)
  rw [behindBraceLine, List.splitOn_append_cons_self, hlast, List.dropWhile_append_of_pos hskip,
    List.dropWhile_cons_of_neg (by simp [hstrip])]
  rfl

/-- The lines of the wrapper: the last one is a brace, and no other one is, if none of the command
is. -/
lemma exists_wrapperLines (command : Text) : ∃ above tail, '\x7d' ∉ tail ++ ['\n'] ∧
    (NoBraceLine command → NoBraceLine above) ∧
    wrapCommand command = above ++ '\n' :: ['\x7d'] ∧
    wrapCommand command = wrapperHead ++ (command ++ '\n' :: (tail ++ ['\n'] ++ ['\x7d'])) := by
  obtain ⟨head, hhead, hheadBrace⟩ : ∃ head, wrapperHead = head ++ '\n' :: "    ".toList ∧
      '\x7d' ∉ head := by
    refine ⟨wrapperHead.take 83, ?_, fun h => notMem_wrapperHead (List.mem_of_mem_take h)⟩
    delta wrapperHead
    rw [String.toList_ofList]
    decide
  obtain ⟨tail, htailBrace, htail⟩ := exists_wrapperTail_eq
  have hblanks : ∀ c ∈ "    ".toList, isSpace c ∧ c ≠ '\n' := forall_of_all (by decide)
  have htailLine : '\x7d' ∉ tail := fun h => htailBrace (List.mem_append_left _ h)
  refine ⟨head ++ '\n' :: (("    ".toList ++ command) ++ '\n' :: tail), tail, htailBrace,
    fun hcommand => ?_, ?_, ?_⟩
  · exact (noBraceLine_of_notMem hheadBrace).append_cons
      ((hcommand.blanks hblanks).append_cons (noBraceLine_of_notMem htailLine))
  · rw [wrapCommand, hhead, htail]
    simp only [List.append_assoc, List.cons_append, List.nil_append]
  · rw [wrapCommand, htail]

/-- What the cut behind the brace needs of the command. -/
structure NoEarlyBrace (crlf : Bool) (command : Text) : Prop where
  feed : ¬ braceFeed <:+: command ++ ['\n']
  returnFeed : crlf = false → ¬ braceReturnFeed <:+: command ++ ['\n']
  line : NoBraceLine command

/-- The brace of the wrapper has no line feed behind it yet. -/
lemma not_infix_wrapCommand (h : ¬ braceFeed <:+: command ++ ['\n']) :
    ¬ braceFeed <:+: wrapCommand command := by
  rintro ⟨b, a, hocc⟩
  obtain ⟨before, hbefore⟩ := splitFirst_wrapCommand command
  have hspec := congrArg List.length (splitFirst_spec hbefore)
  rw [wrapperRest_eq_nil_iff.mpr h] at hbefore hspec
  have hle := splitFirst_le hbefore
    (show _ = b ++ (braceFeed ++ (a ++ ['\n'])) by rw [← hocc]; simp only [List.append_assoc])
  have hlength := congrArg List.length hocc
  have hpos : braceFeed.length = 2 := rfl
  simp only [List.length_append, List.length_nil, List.length_singleton] at hspec hlength
  omega

/-- The beginnings of a line end. -/
lemma eq_of_prefix_eol {e : Text} (he : e <+: eol crlf) (hne : e ≠ eol crlf) :
    e = [] ∨ crlf = true ∧ e = ['\r'] := by
  cases crlf with
  | false =>
    have heol : eol false = ['\n'] := rfl
    rw [heol] at he hne
    rcases List.prefix_cons_iff.mp he with rfl | ⟨tail, rfl, htail⟩
    · exact Or.inl rfl
    · rw [List.prefix_nil.mp htail] at hne
      exact absurd rfl hne
  | true =>
    have heol : eol true = ['\r', '\n'] := rfl
    rw [heol] at he hne
    rcases List.prefix_cons_iff.mp he with rfl | ⟨tail, rfl, htail⟩
    · exact Or.inl rfl
    · rcases List.prefix_cons_iff.mp htail with rfl | ⟨rest, rfl, hrest⟩
      · exact Or.inr ⟨rfl, rfl⟩
      · rw [List.prefix_nil.mp hrest] at hne
        exact absurd rfl hne

/-- **A part that ends behind the brace of the wrapper** has nothing behind it. -/
lemma behindWrapper_echoBody (h : NoEarlyBrace crlf command) {e : Text} (he : e <+: eol crlf)
    (hne : e ≠ eol crlf) : behindWrapper (echoBody crlf command ++ e) = [] := by
  obtain ⟨above, tail, htail, habove, hlines, hparts⟩ := exists_wrapperLines command
  have hspace : ∀ c ∈ e, isSpace c := fun c hc => isSpace_of_mem_eol c (he.subset hc)
  have hempty := eq_of_prefix_eol he hne
  have hline : '\n' ∉ e := by rcases hempty with rfl | ⟨-, rfl⟩ <;> decide
  have hno := not_infix_wrapCommand h.feed
  have hfeed : ¬ braceFeed <:+: echoBody crlf command ++ e := fun hocc => by
    have hbody := infix_of_append_of_last (w := ['\x7d']) hline hocc
    cases crlf with
    | false => exact hno hbody
    | true => exact not_infix_terminal _ hbody
  have hreturn : splitFirst braceReturnFeed (echoBody crlf command ++ e) = none := by
    refine splitFirst_eq_none fun hocc => ?_
    have hbody := infix_of_append_of_last (w := ['\x7d', '\r']) hline hocc
    cases crlf with
    | false =>
      have hhead := notMem_wrapperHead
      have hwrapper : braceReturnFeed <:+: wrapCommand command := hbody
      rw [hparts, braceReturnFeed, infix_append_iff_of_notMem hhead] at hwrapper
      rcases infix_or_infix_of_last (w := ['\x7d', '\r']) (by decide) hwrapper with hocc | hocc
      · exact h.returnFeed rfl hocc
      · rw [List.cons_append, infix_append_iff_of_notMem htail] at hocc
        exact absurd hocc (by decide)
    | true =>
      have hnone : splitFirst braceReturnFeed (terminal true (wrapCommand command)) = none := by
        rw [splitFirst_terminal, splitFirst_eq_none hno]
        rfl
      obtain ⟨before, after, hfound⟩ := exists_splitFirst (by decide) hbody
      exact absurd (hfound.symm.trans hnone) (Option.some_ne_none _)
  have hbody : ∃ x, NoBraceLine x ∧ echoBody crlf command ++ e = x ++ '\n' :: '\x7d' :: e := by
    cases crlf with
    | false =>
      refine ⟨above, habove h.line, ?_⟩
      have hecho : echoBody false command = wrapCommand command := rfl
      rw [hecho, hlines, List.append_assoc]
      rfl
    | true =>
      refine ⟨terminal true above ++ ['\r'], (habove h.line).terminal, ?_⟩
      rw [echoBody, hlines, terminal_append, terminal_newline]
      simp only [List.append_assoc, List.cons_append, List.nil_append]
      rfl
  obtain ⟨x, hx, heq⟩ := hbody
  rw [behindWrapper, splitFirst_eq_none hfeed, hreturn, heq]
  exact behindBraceLine_append hx hspace hline

/-- **The first part ends behind the brace of the wrapper.** -/
lemma ink_first_brace (h : NoEarlyBrace crlf command) {e : Text} (he : e <+: eol crlf)
    (hne : e ≠ eol crlf) :
    ink (commandOutput true (echoBody crlf command ++ e) command).1 = [] := by
  have hextract : extractCleanOutput true (echoBody crlf command ++ e) = strip [] := by
    rw [extractCleanOutput, if_pos rfl, behindWrapper_echoBody h he hne]
    rfl
  have hnone : FirstLineDiffers command [] := fun _ hline =>
    absurd hline (Option.not_mem_none _)
  exact ink_commandOutput hextract (Nat.zero_le _) hnone

end Brace

/-! ## All contents -/

section Contents

variable {crlf : Bool} {command output json first : Text} {parts : List Text}

/-- **Parts that end outside the echo and the prompt**, of a command of which no line ends with a
brace and whose first line is not the first one of the first part. -/
structure CutApart (crlf : Bool) (command output json first : Text) (parts : List Text) : Prop where
  brace : ¬ braceFeed <:+: command ++ ['\n']
  echo : (echo crlf command).length ≤ first.length ∨
    (echoBody crlf command).length ≤ first.length ∧ NoEarlyBrace crlf command
  prompt : ∀ cut ∈ first.length :: cutsFrom first.length parts,
    OutsidePrompt crlf command output json cut
  line : FirstLineDiffers command (output.take (first.length - (Bash.echo crlf command).length))

/-- **The contents of all parts are the output**, up to white space. -/
theorem ink_contents (hprompt : OnlyPrompt I crlf command output json)
    (hopen : ¬ ps1Begin <:+: output) (hclose : ¬ ps1End <:+: output)
    (hbreaks : crlf = true → ¬ braceFeed <:+: output) (hshort : output.length < historyLimit)
    (hparts : first ++ parts.flatten = completedBuffer crlf command output json)
    (hcut : CutApart crlf command output json first parts) :
    ∃ cs, contents I command first parts = .ok cs ∧ ink cs.flatten = ink output := by
  obtain ⟨hhere, hcuts⟩ := List.forall_mem_cons.mp hcut.prompt
  have hlength : (echo crlf command).length = (echoBody crlf command).length + (eol crlf).length := by
    rw [echo_eq, List.length_append]
  have hbody : (echoBody crlf command).length ≤ first.length := by
    rcases hcut.echo with h | h
    · omega
    · exact h.1
  rw [completedBuffer_eq] at hparts
  obtain ⟨q, rfl⟩ : echoBody crlf command <+: first :=
    List.prefix_of_prefix_length_le (List.prefix_append _ _) ⟨_, hparts⟩ hbody
  rw [List.append_assoc] at hparts
  have hq := List.append_cancel_left hparts
  have hline := hcut.line
  rcases prefix_or_of_outsidePrompt hq hhere with hbefore | ⟨r, hr, rfl⟩
  · obtain ⟨cs, hcs, hink⟩ := reads_before hprompt hopen hclose hshort hbefore hq hcuts
    refine ⟨(commandOutput true (echoBody crlf command ++ q) command).1 :: cs, ?_, ?_⟩
    · rw [contents, hcs]
      rfl
    rw [List.flatten_cons, ink_append, ← hink]
    refine congrArg (· ++ ink cs.flatten) ?_
    by_cases hecho : eol crlf <+: q
    · obtain ⟨x, rfl⟩ := hecho
      have hx : x <+: output ++ eol crlf := by
        rwa [outputLines, List.prefix_append_right_inj] at hbefore
      have hpos : (echoBody crlf command ++ (eol crlf ++ x)).length - (echo crlf command).length =
          x.length := by
        simp only [List.length_append, hlength]
        omega
      rw [hpos] at hline
      have hfirst := ink_first_output hcut.brace hbreaks hopen hclose hshort hx hline
      rw [echo_eq, List.append_assoc] at hfirst
      rw [hfirst, ink_append, ink_eol, List.nil_append]
    · -- The part ends behind the brace.
      have he : q <+: eol crlf :=
        (List.prefix_or_prefix_of_prefix hbefore (List.prefix_append (eol crlf) _)).resolve_right hecho
      have hne : q ≠ eol crlf := fun h => hecho (h ▸ List.prefix_rfl)
      have hshorter : q.length < (eol crlf).length :=
        lt_of_le_of_ne he.length_le fun h => hne (he.eq_of_length h)
      rcases hcut.echo with h | ⟨-, h⟩
      · rw [hlength, List.length_append] at h
        omega
      · rw [ink_first_brace h he hne,
          ink_eq_nil_iff.mpr fun c hc => isSpace_of_mem_eol c (he.subset hc)]
  · obtain ⟨cs, hcs, hink⟩ := reads_behind hprompt hr
    refine ⟨(commandOutput true (echoBody crlf command ++
      (outputLines crlf output ++ (promptText crlf json ++ r))) command).1 :: cs, ?_, ?_⟩
    · rw [contents, hcs]
      rfl
    have hlong : output.length ≤ (echoBody crlf command ++
        (outputLines crlf output ++ (promptText crlf json ++ r))).length -
          (echo crlf command).length := by
      simp only [List.length_append, hlength, outputLines]
      omega
    rw [List.take_of_length_le hlong] at hline
    have hfirst : ink (commandOutput true (echo crlf command ++
        (output ++ (eol crlf ++ (promptText crlf json ++ r)))) command).1 = ink output :=
      ink_first_prompt hcut.brace hbreaks hopen hshort ⟨_, hr⟩ hline
    have hbuffer : echo crlf command ++ (output ++ (eol crlf ++ (promptText crlf json ++ r))) =
        echoBody crlf command ++ (outputLines crlf output ++ (promptText crlf json ++ r)) := by
      rw [echo_eq, outputLines]
      simp only [List.append_assoc]
    rw [List.flatten_cons, ink_append, hink, List.append_nil, ← hbuffer, hfirst]

set_option maxRecDepth 2000 in
/-- The prompt of the command `echo hi`. -/
lemma onlyPrompt_echo :
    OnlyPrompt wholeNumbers true "echo hi".toList "hi".toList "\x7b\x7d".toList :=
  ⟨⟨⟨[], rfl⟩, by decide, by decide⟩, ⟨_, rfl⟩, by
    delta completedBuffer echo echoBody wrapCommand wrapperHead wrapperTail
    repeat rw [String.toList_append]
    repeat rw [String.toList_ofList]
    decide⟩

/-- The command `echo hi`, with a timeout behind the echo. -/
theorem ink_contents_echo :
    ∃ cs, contents wholeNumbers "echo hi".toList (echo true "echo hi".toList)
        ["hi\r\n".toList, (promptBlock true "\x7b\x7d".toList).drop 2] = .ok cs ∧
      ink cs.flatten = ink "hi".toList := by
  have heol : (eol true).length = 2 := rfl
  have hlines : (outputLines true "hi".toList).length = 6 := by decide
  have hprompt : (promptText true "\x7b\x7d".toList).length = 31 := by decide
  have hpart : "hi\r\n".toList.length = 4 := by decide
  have hrest : ((promptBlock true "\x7b\x7d".toList).drop 2).length = 33 := by decide
  refine ink_contents onlyPrompt_echo (by decide) (by decide) (fun _ => by decide) (by decide) ?_
    ⟨by decide, Or.inl le_rfl, ?_, ?_⟩
  · rw [completedBuffer]
    exact congrArg (echo true _ ++ ·) (by decide)
  · -- The cuts are behind the first line end, behind the output and behind the prompt.
    simp only [cutsFrom, List.forall_mem_cons, List.not_mem_nil, false_imp_iff, implies_true,
      and_true, OutsidePrompt, echo_eq, List.length_append, heol, hlines, hprompt, hpart, hrest]
    omega
  · rw [Nat.sub_self]
    decide

set_option maxRecDepth 2000 in
/-- A timeout inside the prompt of the same command. -/
theorem not_ink_contents_inside_prompt :
    OnlyPrompt wholeNumbers true "echo hi".toList "hi".toList "\x7b\x7d".toList ∧
      ∃ first rest, first ++ rest =
          completedBuffer true "echo hi".toList "hi".toList "\x7b\x7d".toList ∧
        contents wholeNumbers "echo hi".toList first [rest] =
          .ok ["hi\n###PS1".toList, "JSON###\n\x7b\x7d\n###PS1END###".toList] ∧
        ¬ ∃ cs, contents wholeNumbers "echo hi".toList first [rest] = .ok cs ∧
          ink cs.flatten = ink "hi".toList := by
  have hcontents : contents wholeNumbers "echo hi".toList
      ((completedBuffer true "echo hi".toList "hi".toList "\x7b\x7d".toList).take
        ((echo true "echo hi".toList).length + 10))
      [(completedBuffer true "echo hi".toList "hi".toList "\x7b\x7d".toList).drop
        ((echo true "echo hi".toList).length + 10)] =
      .ok ["hi\n###PS1".toList, "JSON###\n\x7b\x7d\n###PS1END###".toList] := by
    delta completedBuffer echo wrapCommand wrapperHead wrapperTail
    repeat rw [String.toList_append]
    repeat rw [String.toList_ofList]
    decide
  refine ⟨onlyPrompt_echo, _, _, List.take_append_drop _ _, hcontents, ?_⟩
  rintro ⟨cs, hcs, hink⟩
  obtain rfl := Except.ok.inj (hcs.symm.trans hcontents)
  exact absurd hink (by decide)

end Contents

end ProRLAgent.Bash
