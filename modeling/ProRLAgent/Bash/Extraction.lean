import ProRLAgent.Bash.Prompt
import ProRLAgent.Bash.Truncation

set_option relaxedAutoImplicit false
set_option autoImplicit false

/-!
# The output of a wrapped command

The session of `openhands/runtime/utils/efficient_bash.py` sends a command inside braces, between
lines that turn the echo of the terminal off and on again. What comes back is the echo of these
lines, the output of the program, and a prompt block. The output is what stands behind the first
brace at the end of a line, up to the prompt. Lines at its beginning that are those of the command
are taken for an echo, too.

A terminal writes line feeds as they are, or with a carriage return before each.

## Main definitions

* `ProRLAgent.Bash.wrapCommand` — the text that is sent.
* `ProRLAgent.Bash.extractCleanOutput`, `ProRLAgent.Bash.processOutput` — the output in a buffer.
* `ProRLAgent.Bash.completedBuffer` — a buffer with the echo, the output and the prompt.
* `ProRLAgent.Bash.Extractable` — output that is found as it is.

## Main results

* `ProRLAgent.Bash.extractCleanOutput_completedBuffer` — what stands behind the first brace.
* `ProRLAgent.Bash.completedOutput_iff` — when the output is found as it is.
-/

namespace ProRLAgent.Bash

open FnCall (Text)
open PyText Search

/-! ## The wrapper -/

/-- What is sent before a command. -/
def wrapperHead : Text :=
  "\x7b\n    _original_stty=$(stty -g)\n    trap 'stty $_original_stty' EXIT\n    stty -echo\n    ".toList

/-- What is sent behind a command. -/
def wrapperTail : Text :=
  ("\n    _exit_code=$?\n    stty $_original_stty\n    trap - EXIT\n" ++
    "    (exit $_exit_code)\n\x7d").toList

/-- The text of `_wrap_command_with_completion_marker`. -/
def wrapCommand (command : Text) : Text := wrapperHead ++ (command ++ wrapperTail)

/-! ## Extracting -/

/-- `'}\n'`. -/
def braceFeed : Text := ['\x7d', '\n']

/-- `'}\r\n'`. -/
def braceReturnFeed : Text := ['\x7d', '\r', '\n']

/-- The marker that begins a prompt. -/
def ps1Begin : Text := "###PS1JSON###".toList

/-- The marker that ends a prompt. -/
def ps1End : Text := "###PS1END###".toList

/-- `_remove_ps1_metadata`. -/
def removePs1Metadata (content : Text) : Text :=
  match splitFirst ps1Begin content with
  | some (before, _) => before
  | none => beforeFirst ps1End content

/-- The lines behind the first line that is a brace, or all of the buffer. -/
def behindBraceLine (buffer : Text) : Text :=
  match (buffer.splitOn '\n').dropWhile fun line => strip line ≠ ['\x7d'] with
  | [] => buffer
  | _ :: lines => joinLines lines

/-- `raw_output` of a wrapped command. -/
def behindWrapper (buffer : Text) : Text :=
  match splitFirst braceFeed buffer with
  | some (_, after) => after
  | none =>
    match splitFirst braceReturnFeed buffer with
    | some (_, after) => '\n' :: after
    | none => behindBraceLine buffer

/-- **`_extract_clean_output`** of all of a buffer. -/
def extractCleanOutput (usingWrapper : Bool) (buffer : Text) : Text :=
  strip (removePs1Metadata (if usingWrapper then behindWrapper buffer else buffer))

/-! ## Processing -/

/-- How many lines at the beginning are those of the command. -/
def echoedLines : List Text → List Text → ℕ
  | line :: lines, commandLine :: commandLines =>
    if strip line = strip commandLine then echoedLines lines commandLines + 1 else 0
  | _, _ => 0

/-- The lines of a command. -/
def commandLines (command : Text) : List Text := splitlines (lineFeeds (strip command))

/-- `_remove_command_echo`. -/
def removeCommandEcho (output command : Text) : Text :=
  let lines := splitlines output
  if lines = [] then output else joinLines (lines.drop (echoedLines lines (commandLines command)))

/-- **`_process_output`.** An empty command counts as none. -/
def processOutput (output command : Text) (applyTruncation : Bool) : Text × Bool :=
  let output := strip (lineFeeds output)
  let output := if command = [] then output else removeCommandEcho output command
  if applyTruncation then truncateOutputIfNeeded output else (output, false)

/-- The content that `_handle_completed_command` and `_handle_timeout_command` return, and whether it
is truncated. -/
def commandOutput (usingWrapper : Bool) (buffer command : Text) : Text × Bool :=
  processOutput (extractCleanOutput usingWrapper buffer) command true

/-! ## What the terminal shows -/

/-- What a terminal writes for a text. -/
def terminal (crlf : Bool) (text : Text) : Text :=
  if crlf then text.flatMap fun c => if c = '\n' then ['\r', '\n'] else [c] else text

/-- The echo of a wrapped command. -/
def echo (crlf : Bool) (command : Text) : Text := terminal crlf (wrapCommand command ++ ['\n'])

/-- A prompt block with some JSON. -/
def promptBlock (crlf : Bool) (json : Text) : Text :=
  terminal crlf ('\n' :: (ps1Begin ++ '\n' :: (json ++ '\n' :: (ps1End ++ ['\n']))))

/-- **The buffer of a completed command**: the echo, the output and a prompt block. -/
def completedBuffer (crlf : Bool) (command output json : Text) : Text :=
  echo crlf command ++ (output ++ promptBlock crlf json)

/-! ## The terminal -/

section Terminal

variable {crlf : Bool}

@[simp] lemma terminal_append (x y : Text) :
    terminal crlf (x ++ y) = terminal crlf x ++ terminal crlf y := by
  cases crlf with
  | false => rfl
  | true => exact List.flatMap_append

/-- The end of a line on the terminal. -/
def eol (crlf : Bool) : Text := terminal crlf ['\n']

/-- A line end is white space. -/
lemma isSpace_of_mem_eol : ∀ c ∈ eol crlf, isSpace c := by
  cases crlf <;> exact forall_of_all (by decide)

/-- Before a letter that is not a line feed. -/
lemma terminal_cons {c : Char} (h : c ≠ '\n') (x : Text) :
    terminal true (c :: x) = c :: terminal true x := by
  simp [terminal, h]

/-- Before a line feed. -/
lemma terminal_newline (x : Text) : terminal true ('\n' :: x) = '\r' :: '\n' :: terminal true x := rfl

/-- A brace before a line end begins what is looked for. -/
lemma braceReturnFeed_prefix_iff {x : Text} :
    braceReturnFeed <+: '\x7d' :: terminal true x ↔ braceFeed <+: '\x7d' :: x := by
  rw [braceReturnFeed, braceFeed, List.cons_prefix_cons, List.cons_prefix_cons]
  rcases x with _ | ⟨c, x⟩
  · decide
  · by_cases hc : c = '\n'
    · subst hc
      simp [terminal_newline]
    · rw [terminal_cons hc]
      have hne : '\n' ≠ c := fun h => hc h.symm
      rcases x with _ | ⟨d, x⟩
      · simp [terminal, hne]
      · by_cases hd : d = '\n'
        · subst hd
          simp [terminal_newline, hne]
        · have hned : '\n' ≠ d := fun h => hd h.symm
          simp [terminal_cons hd, hne, hned]

/-- With carriage returns the brace is found where it stands without. -/
lemma splitFirst_terminal (x : Text) :
    splitFirst braceReturnFeed (terminal true x) =
      (splitFirst braceFeed x).map fun parts => (terminal true parts.1, terminal true parts.2) := by
  induction x with
  | nil => rfl
  | cons c x ih =>
    by_cases hbrace : c = '\x7d'
    · subst hbrace
      rw [terminal_cons (by decide)]
      by_cases hhead : braceFeed <+: '\x7d' :: x
      · have hlong := braceReturnFeed_prefix_iff.2 hhead
        obtain ⟨after, hafter⟩ := hhead
        obtain rfl : '\n' :: after = x := (List.cons.inj hafter).2
        rw [splitFirst, splitFirst, if_pos hlong, if_pos ⟨after, hafter⟩]
        rfl
      · rw [splitFirst_cons_of_not hhead,
          splitFirst_cons_of_not (mt braceReturnFeed_prefix_iff.1 hhead), ih, Option.map_map,
          Option.map_map]
        refine congrFun (congrArg Option.map (funext fun parts => ?_)) _
        simp [terminal_cons (show '\x7d' ≠ '\n' by decide)]
    · have hnot {d : Char} (hd : d ≠ '\x7d') (y : Text) :
          ¬ braceFeed <+: d :: y ∧ ¬ braceReturnFeed <+: d :: y :=
        ⟨fun h => hd (List.cons_prefix_cons.mp h).1.symm,
          fun h => hd (List.cons_prefix_cons.mp h).1.symm⟩
      rw [splitFirst_cons_of_not (hnot hbrace x).1]
      by_cases hc : c = '\n'
      · subst hc
        rw [terminal_newline, splitFirst_cons_of_not (hnot (by decide) _).2,
          splitFirst_cons_of_not (hnot hbrace _).2, ih, Option.map_map, Option.map_map,
          Option.map_map]
        refine congrFun (congrArg Option.map (funext fun parts => ?_)) _
        simp [terminal_newline]
      · rw [terminal_cons hc, splitFirst_cons_of_not (hnot hbrace _).2, ih, Option.map_map,
          Option.map_map]
        refine congrFun (congrArg Option.map (funext fun parts => ?_)) _
        simp [terminal_cons hc]

/-- With carriage returns no line feed stands behind a brace. -/
lemma not_infix_terminal (x : Text) : ¬ braceFeed <:+: terminal true x := by
  induction x with
  | nil => decide
  | cons c x ih =>
    by_cases hc : c = '\n'
    · subst hc
      rw [terminal_newline, List.infix_cons_iff, List.infix_cons_iff]
      rintro (h | h | h)
      · exact absurd (List.cons_prefix_cons.mp h).1 (by decide)
      · exact absurd (List.cons_prefix_cons.mp h).1 (by decide)
      · exact ih h
    · rw [terminal_cons hc, List.infix_cons_iff]
      rintro (h | h)
      · rw [braceFeed, List.cons_prefix_cons] at h
        rcases x with _ | ⟨d, x⟩
        · exact absurd h.2 (by decide)
        · by_cases hd : d = '\n'
          · subst hd
            exact absurd (List.cons_prefix_cons.mp h.2).1 (by decide)
          · rw [terminal_cons hd, List.cons_prefix_cons] at h
            exact hd h.2.1.symm
      · exact ih h

end Terminal

/-! ## What stands behind the first brace -/

/-- The part of the wrapper behind the first brace at the end of a line. It is empty unless a line of
the command ends with a brace. -/
def wrapperRest (command : Text) : Text :=
  ((splitFirst braceFeed (wrapCommand command ++ ['\n'])).map Prod.snd).getD []

/-- A brace before a line feed does not go over other letters. -/
lemma braceFeed_infix_append {x y : Text} (h : braceFeed <:+: x ++ y) :
    braceFeed <:+: x ∨ braceFeed <:+: y ∨ x.getLast? = some '\x7d' ∧ y.head? = some '\n' := by
  induction x with
  | nil => exact Or.inr (Or.inl h)
  | cons c x ih =>
    rw [List.cons_append, List.infix_cons_iff] at h
    rcases h with h | h
    · rcases x with _ | ⟨d, x⟩
      · rw [List.nil_append, braceFeed, List.cons_prefix_cons] at h
        rcases y with _ | ⟨e, y⟩
        · exact absurd h.2 (by decide)
        · rw [List.cons_prefix_cons] at h
          exact Or.inr (Or.inr ⟨by rw [← h.1]; rfl, by rw [← h.2.1]; rfl⟩)
      · rw [List.cons_append, braceFeed, List.cons_prefix_cons, List.cons_prefix_cons] at h
        exact Or.inl ⟨[], x, by rw [← h.1, ← h.2.1]; rfl⟩
    · rcases ih h with hx | hy | ⟨hlast, hhead⟩
      · exact Or.inl (hx.trans (List.suffix_cons c x).isInfix)
      · exact Or.inr (Or.inl hy)
      · refine Or.inr (Or.inr ⟨?_, hhead⟩)
        rcases x with _ | ⟨d, x⟩
        · cases hlast
        · rwa [List.getLast?_cons_cons]

/-- The wrapper has no closing brace before the command. -/
lemma notMem_wrapperHead : '\x7d' ∉ wrapperHead := by
  delta wrapperHead
  rw [String.toList_ofList]
  decide

/-- The wrapper ends with a line that is a brace, and has no other one behind the command. -/
lemma exists_wrapperTail_eq : ∃ tail, '\x7d' ∉ tail ++ ['\n'] ∧
    wrapperTail = '\n' :: (tail ++ ['\n'] ++ ['\x7d']) := by
  refine ⟨(wrapperTail.drop 1).take 81, ?_⟩
  delta wrapperTail
  rw [String.toList_append, String.toList_ofList, String.toList_ofList]
  exact ⟨by decide, by decide⟩

/-- The wrapped command: no brace stands between the command and the last one. -/
lemma exists_wrapperTail : ∃ lines, '\x7d' ∉ '\n' :: lines ∧ ∀ command,
    wrapCommand command ++ ['\n'] = wrapperHead ++ (command ++ '\n' :: lines) ++ braceFeed := by
  obtain ⟨tail, hbrace, htail⟩ := exists_wrapperTail_eq
  refine ⟨tail ++ ['\n'], fun h => ?_, fun command => ?_⟩
  · rcases List.mem_cons.mp h with h | h
    · exact absurd h (by decide)
    · exact hbrace h
  · rw [wrapCommand, htail, braceFeed]
    simp

/-- A text without braces. -/
lemma not_infix_of_notMem_brace {x : Text} (h : '\x7d' ∉ x) : ¬ braceFeed <:+: x :=
  Search.not_infix_of_notMem h

/-- The first brace at the end of a line of the wrapper. -/
lemma splitFirst_wrapCommand (command : Text) :
    ∃ before, splitFirst braceFeed (wrapCommand command ++ ['\n']) =
      some (before, wrapperRest command) := by
  obtain ⟨lines, -, htext⟩ := exists_wrapperTail
  have hocc : braceFeed <:+: wrapCommand command ++ ['\n'] := by
    rw [htext]
    exact (List.suffix_append _ _).isInfix
  obtain ⟨before, after, hparts⟩ := exists_splitFirst (by decide) hocc
  exact ⟨before, by rw [wrapperRest, hparts]; rfl⟩

/-- **Nothing of the wrapper is left** exactly if no line of the command ends with a brace. -/
theorem wrapperRest_eq_nil_iff {command : Text} :
    wrapperRest command = [] ↔ ¬ braceFeed <:+: command ++ ['\n'] := by
  obtain ⟨lines, hbrace, htext⟩ := exists_wrapperTail
  obtain ⟨before, hbefore⟩ := splitFirst_wrapCommand command
  rw [htext] at hbefore
  have hspec := splitFirst_spec hbefore
  constructor
  · rintro hnil ⟨b, a, hocc⟩
    -- A brace at the end of a line of the command is found first.
    rw [hnil, List.append_nil] at hspec
    have hcommand : command ++ '\n' :: lines = b ++ (braceFeed ++ (a ++ lines)) := by
      rw [← List.append_assoc b, ← List.append_assoc (b ++ braceFeed), hocc]
      simp
    have hle := splitFirst_le hbefore (show _ = (wrapperHead ++ b) ++
      (braceFeed ++ (a ++ lines ++ braceFeed)) by rw [hcommand]; simp)
    have hlength := congrArg List.length hspec
    rw [hcommand] at hlength
    simp only [List.length_append] at hle hlength
    have hpos : braceFeed.length = 2 := rfl
    omega
  · intro hno
    have hhead := notMem_wrapperHead
    have hinner : ¬ braceFeed <:+: wrapperHead ++ (command ++ '\n' :: lines) ++ ['\x7d'] := by
      intro hocc
      rcases braceFeed_infix_append hocc with hocc | hocc | ⟨hlast, -⟩
      · rcases braceFeed_infix_append hocc with hocc | hocc | ⟨hlast, -⟩
        · exact not_infix_of_notMem_brace hhead hocc
        · rcases braceFeed_infix_append hocc with hocc | hocc | ⟨hlast, -⟩
          · exact hno (hocc.trans (List.prefix_append command _).isInfix)
          · exact not_infix_of_notMem_brace hbrace hocc
          · obtain ⟨init, rfl⟩ : ∃ init, command = init ++ ['\x7d'] :=
              ⟨command.dropLast, (List.dropLast_append_getLast? _ hlast).symm⟩
            exact hno ⟨init, [], by simp [braceFeed]⟩
        · exact hhead (List.mem_of_getLast? hlast)
      · exact absurd hocc (by decide)
      · have hmem : '\x7d' ∈ '\n' :: lines := by
          have hne : '\n' :: lines ≠ [] := by simp
          rw [← List.append_assoc, List.getLast?_append_of_ne_nil _ hne] at hlast
          exact List.mem_of_getLast? hlast
        exact hbrace hmem
    rcases List.eq_nil_or_concat (wrapperRest command) with hnil | ⟨init, d, hrest⟩
    · exact hnil
    · rw [List.concat_eq_append] at hrest
      refine absurd ⟨before, init, ?_⟩ hinner
      have hsplit : wrapperHead ++ (command ++ '\n' :: lines) ++ ['\x7d'] ++ ['\n'] =
          before ++ braceFeed ++ init ++ [d] := by
        rw [hrest] at hspec
        simpa [braceFeed] using hspec
      exact (List.append_inj' hsplit rfl).1.symm

section Extract

variable {crlf : Bool} {command output json : Text}

/-- The echo with carriage returns ends with a line feed. -/
lemma getLast?_echo : (echo true command).getLast? = some '\n' := by
  rw [echo, terminal_append, List.getLast?_append_of_ne_nil _ (by decide)]
  rfl

/-- A brace before a line feed does not stand in the echo, if the terminal writes carriage
returns. -/
lemma infix_echo_append {x : Text} (h : braceFeed <:+: echo true command ++ x) :
    braceFeed <:+: x := by
  rcases braceFeed_infix_append h with hocc | hocc | ⟨hlast, -⟩
  · exact absurd hocc (not_infix_terminal _)
  · exact hocc
  · rw [getLast?_echo] at hlast
    exact absurd hlast (by decide)

/-- A brace before a line feed does not stand in a prompt either. -/
lemma infix_append_promptBlock (h : braceFeed <:+: output ++ promptBlock true json) :
    braceFeed <:+: output := by
  rcases braceFeed_infix_append h with hocc | hocc | ⟨-, hhead⟩
  · exact hocc
  · exact absurd hocc (not_infix_terminal _)
  · have hreturn : (promptBlock true json).head? = some '\r' := rfl
    rw [hreturn] at hhead
    exact absurd hhead (by decide)

/-- The line feed that stays behind a brace with carriage returns. -/
def leftFeed (crlf : Bool) : Text := if crlf then ['\n'] else []

/-- What stands behind the first brace of the echo, if it is known for the wrapper. -/
lemma behindWrapper_of_splitFirst {x before rest : Text}
    (hbreaks : crlf = true → ¬ braceFeed <:+: x)
    (hbefore : splitFirst braceFeed (wrapCommand command ++ ['\n']) = some (before, rest)) :
    behindWrapper (echo crlf command ++ x) = leftFeed crlf ++ (terminal crlf rest ++ x) := by
  rw [behindWrapper]
  cases crlf with
  | false =>
    have hecho : echo false command = wrapCommand command ++ ['\n'] := rfl
    rw [hecho, splitFirst_append_right hbefore]
    rfl
  | true =>
    have hnone : splitFirst braceFeed (echo true command ++ x) = none :=
      splitFirst_eq_none (mt infix_echo_append (hbreaks rfl))
    have hecho : splitFirst braceReturnFeed (echo true command) =
        some (terminal true before, terminal true rest) := by
      rw [echo, splitFirst_terminal, hbefore, Option.map_some]
    rw [hnone, splitFirst_append_right hecho]
    rfl

/-- **What stands behind the first brace**: the rest of the wrapper, and what stands behind the
echo. -/
theorem behindWrapper_echo_append {x : Text} (hbreaks : crlf = true → ¬ braceFeed <:+: x) :
    behindWrapper (echo crlf command ++ x) =
      leftFeed crlf ++ (terminal crlf (wrapperRest command) ++ x) := by
  obtain ⟨before, hbefore⟩ := splitFirst_wrapCommand command
  exact behindWrapper_of_splitFirst hbreaks hbefore

/-- The line feed that stays is stripped. -/
lemma strip_removePs1Metadata_leftFeed (x : Text) :
    strip (removePs1Metadata (leftFeed crlf ++ x)) = strip (removePs1Metadata x) := by
  cases crlf with
  | false => rfl
  | true =>
    have hbegin : ¬ ps1Begin <+: '\n' :: x := fun h =>
      absurd (List.cons_prefix_cons.mp h).1 (by decide)
    have hend : ¬ ps1End <+: '\n' :: x := fun h =>
      absurd (List.cons_prefix_cons.mp h).1 (by decide)
    have hfeed : ∀ c ∈ ['\n'], isSpace c := forall_of_all (by decide)
    have hcut : removePs1Metadata ('\n' :: x) = ['\n'] ++ removePs1Metadata x := by
      rw [removePs1Metadata, removePs1Metadata, splitFirst_cons_of_not hbegin, beforeFirst,
        splitFirst_cons_of_not hend]
      cases splitFirst ps1Begin x with
      | some parts => rfl
      | none =>
        rw [beforeFirst]
        cases splitFirst ps1End x <;> rfl
    change strip (removePs1Metadata ('\n' :: x)) = _
    rw [hcut, strip_append_left hfeed]

/-- **What is extracted** from the echo and a text behind it. -/
theorem extractCleanOutput_echo_append {x : Text} (hbreaks : crlf = true → ¬ braceFeed <:+: x) :
    extractCleanOutput true (echo crlf command ++ x) =
      strip (removePs1Metadata (terminal crlf (wrapperRest command) ++ x)) := by
  rw [extractCleanOutput, if_pos rfl, behindWrapper_echo_append hbreaks,
    strip_removePs1Metadata_leftFeed]

/-- White space is in no marker. -/
lemma notMem_ps1Begin_of_isSpace {c : Char} (h : isSpace c) : c ∉ ps1Begin := by
  have hall : ∀ d ∈ ps1Begin, isSpace d = false := forall_of_all (by decide)
  intro hmem
  rw [hall c hmem] at h
  cases h

/-- A prompt block begins with a line end and the marker. -/
lemma promptBlock_eq (crlf : Bool) (json : Text) : ∃ tail, promptBlock crlf json =
    eol crlf ++ (ps1Begin ++ (eol crlf ++ (terminal crlf json ++ (eol crlf ++ (ps1End ++ tail))))) ∧
      tail = eol crlf := by
  have hbegin : terminal crlf ps1Begin = ps1Begin := by cases crlf <;> decide
  have hend : terminal crlf ps1End = ps1End := by cases crlf <;> decide
  have hfeed (x : Text) : terminal crlf ('\n' :: x) = eol crlf ++ terminal crlf x := by
    cases crlf <;> rfl
  refine ⟨eol crlf, ?_, rfl⟩
  rw [promptBlock, hfeed, terminal_append, hbegin, hfeed, terminal_append, hfeed, terminal_append,
    hend]
  rfl

/-- The marker is found behind a text without it and a line end. -/
lemma splitFirst_ps1Begin {x : Text} (h : ¬ ps1Begin <:+: x) (tail : Text) :
    splitFirst ps1Begin (x ++ (eol crlf ++ (ps1Begin ++ tail))) = some (x ++ eol crlf, tail) := by
  obtain ⟨init, heol⟩ : ∃ init, eol crlf = init ++ ['\n'] := by
    cases crlf with
    | false => exact ⟨[], rfl⟩
    | true => exact ⟨['\r'], rfl⟩
  have hno : ¬ ps1Begin <:+: (x ++ init) ++ ['\n'] := by
    rw [List.append_assoc, ← heol]
    exact fun hocc => h (infix_of_append_of_forall (by decide)
      (fun d hd => notMem_ps1Begin_of_isSpace (isSpace_of_mem_eol d hd)) hocc)
  have hfound := splitFirst_append_of_last (by decide) (by decide) hno tail
  rw [List.append_assoc x, ← heol] at hfound
  rwa [← List.append_assoc]

/-- **A text before a prompt** is found, up to its line end. -/
theorem strip_removePs1Metadata (x : Text) :
    strip (removePs1Metadata (x ++ promptBlock crlf json)) = strip (beforeFirst ps1Begin x) := by
  rw [removePs1Metadata]
  by_cases hocc : ps1Begin <:+: x
  · obtain ⟨before, after, hparts⟩ := exists_splitFirst (by decide) hocc
    rw [splitFirst_append_right hparts, beforeFirst_of_splitFirst hparts]
  · obtain ⟨tail, hblock, -⟩ := promptBlock_eq crlf json
    rw [hblock, splitFirst_ps1Begin hocc, beforeFirst_eq_self hocc]
    exact strip_append isSpace_of_mem_eol x

end Extract

/-! ## The content of a completed command -/

section Content

variable {crlf : Bool} {command output json : Text}

/-- The text whose lines are compared with the command: the rest of the wrapper and the output. -/
def shown (crlf : Bool) (command output : Text) : Text :=
  strip (lineFeeds (beforeFirst ps1Begin (terminal crlf (wrapperRest command) ++ output)))

/-- Without lines there is no echo. -/
lemma removeCommandEcho_eq (x command : Text) : removeCommandEcho x command =
    joinLines ((splitlines x).drop (echoedLines (splitlines x) (commandLines command))) := by
  rw [removeCommandEcho]
  split_ifs with hlines
  · rw [hlines, splitlines_eq_nil_iff.mp hlines]
    rfl
  · rfl

/-- The text without the lines that are taken for an echo of the command. -/
def withoutEcho (text command : Text) : Text :=
  if command = [] then text else removeCommandEcho text command

/-- What is extracted is changed, stripped and compared with the command. -/
lemma commandOutput_of_extract {buffer y : Text} (h : extractCleanOutput true buffer = strip y) :
    commandOutput true buffer command =
      truncateOutputIfNeeded (withoutEcho (strip (lineFeeds y)) command) := by
  rw [commandOutput, processOutput, if_pos rfl, h, strip_lineFeeds, strip_strip, ← strip_lineFeeds,
    withoutEcho]

/-- **What is extracted** from the buffer of a completed command. -/
theorem extractCleanOutput_completedBuffer (hbreaks : crlf = true → ¬ braceFeed <:+: output) :
    extractCleanOutput true (completedBuffer crlf command output json) =
      strip (beforeFirst ps1Begin (terminal crlf (wrapperRest command) ++ output)) := by
  have hblock : crlf = true → ¬ braceFeed <:+: output ++ promptBlock crlf json := by
    rintro rfl
    exact mt infix_append_promptBlock (hbreaks rfl)
  rw [completedBuffer, extractCleanOutput_echo_append hblock, ← List.append_assoc,
    strip_removePs1Metadata]

/-- **Output that is found as it is.** With carriage returns on the terminal no brace of the output
stands before a bare line feed, and lines end with line feeds only. If no line of the command ends
with a brace, the first line of the output is not that of the command. Else the lines that are taken
for an echo leave the lines of the output. -/
structure Extractable (crlf : Bool) (command output : Text) : Prop where
  breaks : crlf = true → ¬ braceFeed <:+: output
  separators : command ≠ [] → ∀ c ∈ strip (lineFeeds output), isLineEnd c = true → c = '\n'
  echo : ¬ braceFeed <:+: command ++ ['\n'] →
    ∀ line ∈ (splitlines (strip (lineFeeds output))).head?,
      ∀ first ∈ (commandLines command).head?, strip line ≠ strip first
  rest : braceFeed <:+: command ++ ['\n'] →
    (splitlines (shown crlf command output)).drop
        (echoedLines (splitlines (shown crlf command output)) (commandLines command)) =
      splitlines (strip (lineFeeds output))

/-- No line is taken for an echo if the first lines differ. -/
lemma echoedLines_eq_zero_iff {lines commandLines : List Text} :
    echoedLines lines commandLines = 0 ↔
      ∀ line ∈ lines.head?, ∀ first ∈ commandLines.head?, strip line ≠ strip first := by
  rcases lines with _ | ⟨line, lines⟩
  · simp [echoedLines]
  · rcases commandLines with _ | ⟨first, commandLines⟩
    · simp [echoedLines]
    · rw [echoedLines]
      split_ifs with heq <;> simp [heq]

/-- Without a brace at the end of a line the output is what is compared with the command. -/
lemma shown_eq (hno : ¬ braceFeed <:+: command ++ ['\n'])
    (hmarker : ¬ ps1Begin <:+: output) : shown crlf command output = strip (lineFeeds output) := by
  have hterminal : terminal crlf [] = [] := by cases crlf <;> rfl
  rw [shown, wrapperRest_eq_nil_iff.mpr hno, hterminal, List.nil_append,
    beforeFirst_eq_self hmarker]

/-- A stripped text is joined from its lines, if they end with line feeds only. -/
lemma joinLines_splitlines_strip {x : Text}
    (h : ∀ c ∈ strip x, isLineEnd c = true → c = '\n') :
    joinLines (splitlines (strip x)) = strip x := by
  refine joinLines_splitlines h fun hlast => ?_
  rcases rstrip_cases (lstrip x) with hnil | ⟨init, d, heq, hd⟩
  · rw [strip, hnil] at hlast
    cases hlast
  · rw [strip, heq, List.getLast?_concat, Option.some.injEq] at hlast
    rw [hlast] at hd
    exact absurd hd (by decide)

/-- Lines at the end of a stripped text that are joined are split again. -/
lemma splitlines_joinLines_drop (x : Text) (k : ℕ) :
    splitlines (joinLines ((splitlines (strip x)).drop k)) = (splitlines (strip x)).drop k := by
  refine splitlines_joinLines (fun line hline => ?_) fun hlast => ?_
  · exact isLineEnd_of_mem_splitlines (List.mem_of_mem_drop hline)
  · rcases rstrip_cases (lstrip x) with hnil | ⟨init, d, heq, hd⟩
    · rw [strip, hnil] at hlast
      simp [splitlines] at hlast
    · have hend : (strip x).getLast? = some d := by rw [strip, heq, List.getLast?_concat]
      have hline : isLineEnd d = false := by
        rw [Bool.eq_false_iff]
        exact fun h => by rw [isSpace_of_isLineEnd h] at hd; cases hd
      refine getLast?_splitlines_ne hend hline ?_
      rw [List.getLast?_drop] at hlast
      split_ifs at hlast
      exact hlast

/-- The rest of the lines is exactly the output if it is extractable. -/
lemma withoutEcho_eq_iff (hmarker : ¬ ps1Begin <:+: output)
    (hbreaks : crlf = true → ¬ braceFeed <:+: output) :
    withoutEcho (shown crlf command output) command = strip (lineFeeds output) ↔
      Extractable crlf command output := by
  rw [withoutEcho]
  split_ifs with hcommand
  · subst hcommand
    have hno : ¬ braceFeed <:+: ([] : Text) ++ ['\n'] := by decide
    refine iff_of_true (shown_eq hno hmarker) ⟨hbreaks, fun h => absurd rfl h, ?_, ?_⟩
    · rintro - line - first ⟨⟩
    · exact fun h => absurd h hno
  rw [removeCommandEcho_eq]
  constructor
  · intro h
    have hlines := congrArg splitlines h
    rw [shown, splitlines_joinLines_drop, ← shown] at hlines
    refine ⟨hbreaks, fun _ c hc hend => ?_, fun hno => ?_, fun _ => hlines⟩
    · rw [← h] at hc
      rcases mem_joinLines hc with hfeed | ⟨line, hline, hmem⟩
      · exact hfeed
      · rw [isLineEnd_of_mem_splitlines (List.mem_of_mem_drop hline) c hmem] at hend
        cases hend
    · rw [shown_eq hno hmarker] at hlines
      rw [← echoedLines_eq_zero_iff]
      have hlength := congrArg List.length hlines
      rw [List.length_drop] at hlength
      rcases Nat.eq_zero_or_pos (splitlines (strip (lineFeeds output))).length with hzero | hpos
      · rw [List.length_eq_zero_iff.mp hzero]
        rfl
      · omega
  · intro h
    have hjoin := joinLines_splitlines_strip (h.separators hcommand)
    by_cases hno : braceFeed <:+: command ++ ['\n']
    · rw [h.rest hno, hjoin]
    · rw [shown_eq hno hmarker, echoedLines_eq_zero_iff.2 (h.echo hno), List.drop_zero,
        hjoin]

/-- A text without the echo is not longer. -/
lemma length_withoutEcho_le (text command : Text) :
    (withoutEcho text command).length ≤ text.length := by
  rw [withoutEcho]
  split_ifs
  · exact le_rfl
  · rw [removeCommandEcho_eq]
    exact (length_joinLines_drop_le _ _).trans (length_joinLines_splitlines_le text)

/-- A text without the echo has no other ink. -/
lemma ink_withoutEcho_isSuffix (text command : Text) : ink (withoutEcho text command) <:+ ink text := by
  rw [withoutEcho]
  split_ifs
  · exact List.suffix_rfl
  · rw [removeCommandEcho_eq, ink_joinLines, ← ink_flatten_splitlines text]
    have hparts := List.take_append_drop (echoedLines (splitlines text) (commandLines command))
      (splitlines text)
    conv_rhs => rw [← hparts, List.flatten_append, ink_append]
    exact List.suffix_append _ _

/-- With a brace before a bare line feed the output is not found, if the terminal writes carriage
returns. -/
lemma commandOutput_ne_of_braceFeed (hmarker : ¬ ps1Begin <:+: output)
    (hshort : output.length < historyLimit) (hbrace : braceFeed <:+: output) :
    (commandOutput true (completedBuffer true command output json) command).1 ≠
      strip (lineFeeds output) := by
  obtain ⟨before, after, hparts⟩ := exists_splitFirst (by decide) hbrace
  have houtput := splitFirst_spec hparts
  have hfound : splitFirst braceFeed (completedBuffer true command output json) =
      some (echo true command ++ before, after ++ promptBlock true json) := by
    rw [completedBuffer, splitFirst_append_left, splitFirst_append_right hparts]
    · rfl
    · -- No brace of the echo is at the end of a line.
      intro b a heq
      rcases List.append_eq_append_iff.mp heq with ⟨t, rfl, -⟩ | ⟨t, hecho, ht⟩
      · simp
      · rcases t with _ | ⟨c, _ | ⟨d, t⟩⟩
        · simp [hecho]
        · have hlast : (echo true command).getLast? = some '\n' := getLast?_echo
          rw [hecho, List.getLast?_concat, ← (List.cons.inj ht).1] at hlast
          exact absurd hlast (by decide)
        · have hhead := List.cons.inj ht
          refine absurd ⟨b, t, ?_⟩ (not_infix_terminal (wrapCommand command ++ ['\n']))
          rw [← echo, hecho, ← hhead.1, ← (List.cons.inj hhead.2).1, braceFeed, List.append_assoc]
          rfl
  have hrest : ¬ ps1Begin <:+: after := fun h =>
    hmarker (h.trans (houtput ▸ ⟨before ++ braceFeed, [], by simp⟩))
  have hextract : extractCleanOutput true (completedBuffer true command output json) =
      strip after := by
    rw [extractCleanOutput, if_pos rfl, behindWrapper, hfound]
    exact (strip_removePs1Metadata after).trans (congrArg strip (beforeFirst_eq_self hrest))
  rw [commandOutput_of_extract hextract, truncateOutputIfNeeded_fst]
  · intro heq
    have hle := (ink_withoutEcho_isSuffix (strip (lineFeeds after)) command).length_le
    rw [heq, ink_strip, ink_strip, ink_lineFeeds, ink_lineFeeds, houtput, ink_append,
      ink_append, List.length_append, List.length_append] at hle
    have hpos : (ink braceFeed).length = 1 := by decide
    omega
  · have hlength := congrArg List.length houtput
    have h₁ := length_withoutEcho_le (strip (lineFeeds after)) command
    have h₂ := length_strip_le (lineFeeds after)
    have h₃ := length_lineFeeds_le after
    simp only [List.length_append] at hlength
    omega

/-- **A completed command returns its output** if it is extractable, and only then, as long as
nothing is truncated. -/
theorem completedOutput_iff (hmarker : ¬ ps1Begin <:+: output)
    (hshort : output.length < historyLimit) :
    (Extractable crlf command output →
      (commandOutput true (completedBuffer crlf command output json) command).1 =
        strip (lineFeeds output)) ∧
    ((terminal crlf (wrapperRest command) ++ output).length ≤ historyLimit →
      (commandOutput true (completedBuffer crlf command output json) command).1 =
        strip (lineFeeds output) → Extractable crlf command output) := by
  constructor
  · intro h
    have htext := (withoutEcho_eq_iff hmarker h.breaks).mpr h
    rw [commandOutput_of_extract (extractCleanOutput_completedBuffer h.breaks), ← shown, htext]
    refine truncateOutputIfNeeded_fst ?_
    have h₁ := length_strip_le (lineFeeds output)
    have h₂ := length_lineFeeds_le output
    omega
  · intro hlength h
    have hbreaks : crlf = true → ¬ braceFeed <:+: output := by
      rintro rfl hbrace
      exact commandOutput_ne_of_braceFeed hmarker hshort hbrace h
    refine (withoutEcho_eq_iff hmarker hbreaks).mp ?_
    rw [commandOutput_of_extract (extractCleanOutput_completedBuffer hbreaks), ← shown,
      truncateOutputIfNeeded_fst] at h
    · exact h
    · have h₁ := length_withoutEcho_le (shown crlf command output) command
      have h₂ := length_strip_le (lineFeeds (beforeFirst ps1Begin
        (terminal crlf (wrapperRest command) ++ output)))
      have h₃ := length_lineFeeds_le (beforeFirst ps1Begin
        (terminal crlf (wrapperRest command) ++ output))
      have h₄ := (beforeFirst_isPrefix ps1Begin
        (terminal crlf (wrapperRest command) ++ output)).length_le
      rw [← shown] at h₂
      omega

/-- The output of `echo hi`. -/
theorem completedOutput_iff_echo :
    (commandOutput true (completedBuffer true "echo hi".toList "hi".toList "\x7b\x7d".toList)
      "echo hi".toList).1 = "hi".toList := by
  have hno : ¬ braceFeed <:+: "echo hi".toList ++ ['\n'] := by decide
  exact (completedOutput_iff (by decide) (by decide)).1 ⟨fun _ => by decide,
    fun _ => forall_of_all (by decide), fun _ => by decide, fun h => absurd h hno⟩

set_option maxRecDepth 2000 in
/-- The command `echo ${x}` shows a part of the wrapper. -/
theorem completedOutput_brace :
    (commandOutput true (completedBuffer true "echo $\x7bx\x7d".toList "hi".toList
      "\x7b\x7d".toList) "echo $\x7bx\x7d".toList).1 =
      ("_exit_code=$?\n    stty $_original_stty\n    trap - EXIT\n    (exit $_exit_code)\n" ++
        "\x7d\nhi").toList ∧ strip (lineFeeds "hi".toList) = "hi".toList := by
  delta completedBuffer echo wrapCommand wrapperHead wrapperTail
  repeat rw [String.toList_append]
  repeat rw [String.toList_ofList]
  decide

end Content

end ProRLAgent.Bash
