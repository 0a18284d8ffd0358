import ProRLAgent.CodeAct.Actions
import ProRLAgent.Lib.Assoc
import ProRLAgent.Lib.Except

set_option relaxedAutoImplicit false
set_option autoImplicit false

/-!
# Which responses give actions or feedback

A call is refused with one of the declared exceptions, misread with another one, or it becomes an
action. Which of these happens can be seen from the name of the tool and from the arguments. The
first call that is refused or misread decides about the response.

## Main definitions

* `ProRLAgent.CodeAct.Refused`, `ProRLAgent.CodeAct.Misread` — calls that are no actions.
* `ProRLAgent.CodeAct.Answered` — actions for all calls, or a declared exception.

## Main results

* `ProRLAgent.CodeAct.judged_toolAction` — what one call does.
* `ProRLAgent.CodeAct.responseToActions_answered_iff` — when a response gives actions or feedback.
-/

namespace ProRLAgent.CodeAct

open FnCall (Text Library LoadsError jsonLoads)
open Serialization (Json)

variable {ν : Type}

/-! ## Calls that are no actions -/

/-- The keys that a tool needs. The other tools take any arguments. -/
def requiredKeys (name : Text) : Option (List String) :=
  if name = executeBash then some ["command"]
  else if name = executeIpythonCell then some ["code"]
  else if name = finish then some []
  else if name = editFile then some ["path", "content"]
  else if name = strReplaceEditor then some ["command", "path"]
  else if name = think then some []
  else if name = browser then some ["code"]
  else none

/-- Arguments in which a key is not found. -/
def Lacks (keys : List String) (arguments : Json ν) : Prop :=
  ∃ key ∈ keys, contains key arguments = .ok false

/-- Arguments that are no object, where no key is found to be missing. -/
def NoObject (keys : List String) (arguments : Json ν) : Prop :=
  (∀ entries, arguments ≠ .obj entries) ∧ ¬ Lacks keys arguments

section Predicates

variable (I : Interpreter ν) (mcpToolNames : List Text)

/-- Entries that a tool finds fault with: a timeout that is no number, or a key that the editor does
not know. -/
def FaultyEntries (name : Text) (entries : List (String × Json ν)) : Prop :=
  name = executeBash ∧ (∃ value, entries.lookup "timeout" = some value ∧
      I.float value = .error .valueError) ∨
    name = strReplaceEditor ∧ entries.lookup "command" ≠ some (.str "view") ∧
      ∃ e ∈ entries, e.1 ∉ validParams

/-- Entries that make a tool fail: a timeout that `float` does not take. -/
def FailingEntries (name : Text) (entries : List (String × Json ν)) : Prop :=
  name = executeBash ∧ ∃ value, entries.lookup "timeout" = some value ∧
    (I.float value = .error .typeError ∨ I.float value = .error .overflowError)

/-- Arguments that a tool refuses: a key is missing, or it finds fault with the entries. There may be
no such tool at all. -/
def RefusedArguments (name : Text) (arguments : Json ν) : Prop :=
  match requiredKeys name with
  | some keys => Lacks keys arguments ∨ ∃ entries, arguments = .obj entries ∧
      ¬ Lacks keys arguments ∧ FaultyEntries I name entries
  | none => name ≠ delegateToBrowsingAgent ∧ name ∉ mcpToolNames

/-- Arguments that a tool fails to read: they are no object though it needs one, or they have a
timeout that `float` does not take. -/
def MisreadArguments (name : Text) (arguments : Json ν) : Prop :=
  match requiredKeys name with
  | some keys => NoObject keys arguments ∨ ∃ entries, arguments = .obj entries ∧
      ¬ Lacks keys arguments ∧ FailingEntries I name entries
  | none => False

/-- **A refused call**: its arguments are no JSON, or the tool refuses them. -/
def Refused (call : Call) : Prop :=
  match jsonLoads I.library I.exceeds call.arguments with
  | .ok arguments => RefusedArguments I mcpToolNames call.name arguments
  | .error .decode => True
  | .error .limit => False

/-- **A misread call**: the interpreter meets a limit in its arguments, or the tool fails to read
them. -/
def Misread (call : Call) : Prop :=
  match jsonLoads I.library I.exceeds call.arguments with
  | .ok arguments => MisreadArguments I call.name arguments
  | .error .decode => False
  | .error .limit => True

end Predicates

/-! ## What a call does -/

/-- A result with a declared exception if `D`, with another one if `M`, and without one else. -/
structure Judged {β : Type} (x : Except Raised β) (D M : Prop) : Prop where
  declared_iff : (∃ e, x = .error e ∧ e.Declared) ↔ D
  other_iff : (∃ e, x = .error e ∧ ¬ e.Declared) ↔ M

section Judged

variable {β γ : Type} {D M : Prop}

/-- A value. -/
lemma judged_ok {b : β} (hD : ¬ D) (hM : ¬ M) : Judged (.ok b) D M where
  declared_iff := iff_of_false (fun ⟨_, h, _⟩ => by cases h) hD
  other_iff := iff_of_false (fun ⟨_, h, _⟩ => by cases h) hM

/-- A declared exception. -/
lemma judged_declared {e : Raised} (he : e.Declared) (hD : D) (hM : ¬ M) :
    Judged (.error e : Except Raised β) D M where
  declared_iff := iff_of_true ⟨e, rfl, he⟩ hD
  other_iff := iff_of_false (fun ⟨_, h, hnot⟩ => by cases h; exact hnot he) hM

/-- Another exception. -/
lemma judged_other {err : PyError} (hD : ¬ D) (hM : M) :
    Judged (.error (.other err) : Except Raised β) D M where
  declared_iff := iff_of_false (fun ⟨_, h, hdeclared⟩ => by cases h; exact hdeclared) hD
  other_iff := iff_of_true ⟨_, rfl, id⟩ hM

/-- The conditions may be replaced by equivalent ones. -/
lemma Judged.congr {x : Except Raised β} {D' M' : Prop} (h : Judged x D M) (hD : D ↔ D')
    (hM : M ↔ M') : Judged x D' M' where
  declared_iff := h.declared_iff.trans hD
  other_iff := h.other_iff.trans hM

/-- A step that raises nothing. -/
lemma Judged.bind {x : Except Raised β} (h : Judged x D M) {f : β → Except Raised γ}
    (hf : ∀ b, ∃ c, f b = .ok c) : Judged (x >>= f) D M := by
  cases x with
  | error e =>
    have hraised (P : Raised → Prop) :
        (∃ e', (.error e : Except Raised γ) = .error e' ∧ P e') ↔
          ∃ e', (.error e : Except Raised β) = .error e' ∧ P e' := by simp
    exact ⟨(hraised Raised.Declared).trans h.declared_iff,
      (hraised fun e => ¬ e.Declared).trans h.other_iff⟩
  | ok b =>
    obtain ⟨c, hc⟩ := hf b
    rw [Except.ok_bind, hc]
    exact judged_ok (fun hD => by obtain ⟨_, h', _⟩ := h.declared_iff.mpr hD; cases h')
      fun hM => by obtain ⟨_, h', _⟩ := h.other_iff.mpr hM; cases h'

/-- A value comes of a result without exceptions. -/
lemma Judged.exists_ok {x : Except Raised β} (h : Judged x D M) (hD : ¬ D) (hM : ¬ M) :
    ∃ b, x = .ok b := by
  cases x with
  | ok b => exact ⟨b, rfl⟩
  | error e =>
    by_cases he : e.Declared
    · exact absurd (h.declared_iff.mp ⟨e, rfl, he⟩) hD
    · exact absurd (h.other_iff.mp ⟨e, rfl, he⟩) hM

end Judged

/-- `in` finds out for objects, lists and texts whether a key is there. It fails for the others. -/
lemma contains_cases (arguments : Json ν) :
    (∀ key, ∃ b, contains key arguments = .ok b) ∨
      (∀ entries, arguments ≠ .obj entries) ∧
        ∀ key, contains key arguments = .error (.other (.typeError "argument is not iterable")) := by
  cases arguments with
  | str s => exact Or.inl fun key => ⟨_, rfl⟩
  | arr items => exact Or.inl fun key => ⟨_, rfl⟩
  | obj entries => exact Or.inl fun key => ⟨_, rfl⟩
  | _ => exact Or.inr ⟨fun entries h => (by cases h), fun key => rfl⟩

/-- A missing key is a declared exception. -/
lemma requireKeys_of_lacks {name : Text} {arguments : Json ν} {keys : List String}
    (h : Lacks keys arguments) :
    ∃ message, requireKeys name arguments keys = .error (.functionCallValidation message) := by
  have hfound : ∀ key, ∃ b, contains key arguments = .ok b := by
    rcases contains_cases arguments with h' | ⟨-, h'⟩
    · exact h'
    · obtain ⟨key, -, hkey⟩ := h
      rw [h' key] at hkey
      cases hkey
  induction keys with
  | nil =>
    obtain ⟨key, hkey, -⟩ := h
    cases hkey
  | cons key keys ih =>
    obtain ⟨b, hb⟩ := hfound key
    rw [requireKeys, hb]
    cases b with
    | false => exact ⟨_, rfl⟩
    | true =>
      obtain ⟨key', hmem, hkey'⟩ := h
      rcases List.mem_cons.mp hmem with rfl | hmem
      · rw [hb] at hkey'
        cases hkey'
      · exact ih ⟨key', hmem, hkey'⟩

/-- Keys that are all found. -/
lemma requireKeys_of_not_lacks {name : Text} {arguments : Json ν} {keys : List String}
    (hfound : ∀ key, ∃ b, contains key arguments = .ok b) (h : ¬ Lacks keys arguments) :
    requireKeys name arguments keys = .ok () := by
  induction keys with
  | nil => rfl
  | cons key keys ih =>
    obtain ⟨b, hb⟩ := hfound key
    cases b with
    | false => exact absurd ⟨key, List.mem_cons_self, hb⟩ h
    | true =>
      rw [requireKeys, hb]
      exact ih fun ⟨key', hmem, hkey'⟩ => h ⟨key', List.mem_cons_of_mem _ hmem, hkey'⟩

/-- **A tool with its checks**: what it does for an object that has the keys decides. -/
theorem judged_requireKeys {β : Type} {name : Text} {arguments : Json ν} {keys : List String}
    {rest : Unit → Except Raised β} {D M : List (String × Json ν) → Prop}
    (hobject : ∀ entries, arguments = .obj entries → ¬ Lacks keys arguments →
      Judged (rest ()) (D entries) (M entries))
    (hother : (∀ entries, arguments ≠ .obj entries) → ∃ err, rest () = .error (.other err)) :
    Judged (requireKeys name arguments keys >>= rest)
      (Lacks keys arguments ∨ ∃ entries, arguments = .obj entries ∧ ¬ Lacks keys arguments ∧
        D entries)
      (NoObject keys arguments ∨ ∃ entries, arguments = .obj entries ∧ ¬ Lacks keys arguments ∧
        M entries) := by
  by_cases hlacks : Lacks keys arguments
  · obtain ⟨message, hmessage⟩ : ∃ message,
        requireKeys name arguments keys = .error (.functionCallValidation message) :=
      requireKeys_of_lacks hlacks
    rw [hmessage]
    exact judged_declared trivial (Or.inl hlacks)
      (not_or.mpr ⟨fun h => h.2 hlacks, fun ⟨_, _, h, _⟩ => h hlacks⟩)
  · by_cases hobj : ∃ entries, arguments = .obj entries
    · obtain ⟨entries, rfl⟩ := hobj
      rw [requireKeys_of_not_lacks (fun key => ⟨_, rfl⟩) hlacks]
      refine (hobject entries rfl hlacks).congr ?_ ?_
      · constructor
        · exact fun h => Or.inr ⟨entries, rfl, hlacks, h⟩
        · rintro (h | ⟨_, heq, -, h⟩)
          · exact absurd h hlacks
          · cases heq
            exact h
      · constructor
        · exact fun h => Or.inr ⟨entries, rfl, hlacks, h⟩
        · rintro (h | ⟨_, heq, -, h⟩)
          · exact absurd rfl (h.1 entries)
          · cases heq
            exact h
    · rw [not_exists] at hobj
      have hD : ¬ (Lacks keys arguments ∨ ∃ entries, arguments = .obj entries ∧
          ¬ Lacks keys arguments ∧ D entries) :=
        not_or.mpr ⟨hlacks, fun ⟨entries, heq, _⟩ => hobj entries heq⟩
      have hM : NoObject keys arguments ∨ ∃ entries, arguments = .obj entries ∧
          ¬ Lacks keys arguments ∧ M entries := Or.inl ⟨hobj, hlacks⟩
      obtain ⟨err, herr⟩ := hother hobj
      rcases contains_cases arguments with hfound | ⟨-, hfail⟩
      · rw [requireKeys_of_not_lacks hfound hlacks]
        change Judged (rest ()) _ _
        rw [herr]
        exact judged_other hD hM
      · cases keys with
        | nil =>
          change Judged (rest ()) _ _
          rw [herr]
          exact judged_other hD hM
        | cons key keys =>
          rw [requireKeys, hfail key]
          exact judged_other hD hM

section Fields

variable {entries : List (String × Json ν)} {keys : List String} {key : String}

/-- An object that has the keys has a value for each of them. -/
lemma exists_index (h : ¬ Lacks keys (.obj entries)) (hkey : key ∈ keys) :
    ∃ value, entries.lookup key = some value ∧ index key (.obj entries) = .ok value := by
  have hmem : key ∈ entries.map Prod.fst := by
    by_contra hmem
    exact h ⟨key, hkey, by rw [contains, decide_eq_false hmem]⟩
  rcases hlookup : entries.lookup key with _ | value
  · exact absurd hmem (Assoc.lookup_eq_none_iff.mp hlookup)
  · exact ⟨value, rfl, by rw [index, hlookup]⟩

/-- Something else than an object has no index. -/
lemma index_of_forall_ne (key : String) {arguments : Json ν}
    (h : ∀ entries, arguments ≠ .obj entries) : ∃ err, index key arguments = .error (.other err) := by
  cases arguments with
  | obj entries => exact absurd rfl (h entries)
  | _ => exact ⟨_, rfl⟩

/-- Something else than an object has no `get`. -/
lemma get_of_forall_ne (key : String) (default : Json ν) {arguments : Json ν}
    (h : ∀ entries, arguments ≠ .obj entries) :
    ∃ err, get key default arguments = .error (.other err) := by
  cases arguments with
  | obj entries => exact absurd rfl (h entries)
  | _ => exact ⟨_, rfl⟩

end Fields

section Judgments

variable (I : Interpreter ν) (timeout : Option ν) (mcpToolNames : List Text)

/-- The timeout of a command. -/
lemma judged_commandTimeout (entries : List (String × Json ν)) :
    Judged (commandTimeout I timeout (.obj entries))
      (∃ value, entries.lookup "timeout" = some value ∧ I.float value = .error .valueError)
      (∃ value, entries.lookup "timeout" = some value ∧
        (I.float value = .error .typeError ∨ I.float value = .error .overflowError)) := by
  rcases hlookup : entries.lookup "timeout" with _ | value
  · have hmem : "timeout" ∉ entries.map Prod.fst := Assoc.lookup_eq_none_iff.mp hlookup
    rw [commandTimeout, contains, decide_eq_false hmem]
    exact judged_ok (by simp) (by simp)
  · have hmem : "timeout" ∈ entries.map Prod.fst := by
      by_contra hmem
      rw [Assoc.lookup_eq_none_iff.mpr hmem] at hlookup
      cases hlookup
    have hvalue : index "timeout" (.obj entries) = .ok value := by rw [index, hlookup]
    rw [commandTimeout, contains, decide_eq_true hmem, Except.ok_bind, if_pos rfl, hvalue,
      Except.ok_bind]
    rcases hfloat : I.float value with (_ | _ | _) | x
    · exact judged_declared trivial ⟨value, rfl, hfloat⟩ (by simp [hfloat])
    · exact judged_other (by simp [hfloat]) ⟨value, rfl, Or.inl hfloat⟩
    · exact judged_other (by simp [hfloat]) ⟨value, rfl, Or.inr hfloat⟩
    · cases callerTimeout I timeout <;> exact judged_ok (by simp [hfloat]) (by simp [hfloat])

variable {name : Text} (arguments : Json ν)

/-- Only the shell and the editor find fault with entries, and only the shell fails. -/
lemma not_faultyEntries (hbash : name ≠ executeBash) (hname : name ≠ strReplaceEditor)
    (entries : List (String × Json ν)) :
    ¬ FaultyEntries I name entries ∧ ¬ FailingEntries I name entries :=
  ⟨not_or.mpr ⟨fun h => hbash h.1, fun h => hname h.1⟩, fun h => hbash h.1⟩

variable {arguments}

/-- A tool that needs an object. -/
lemma judged_tool {β : Type} {keys : List String} {rest : Unit → Except Raised β}
    (hkeys : requiredKeys name = some keys)
    (hobject : ∀ entries, arguments = .obj entries → ¬ Lacks keys arguments →
      Judged (rest ()) (FaultyEntries I name entries) (FailingEntries I name entries))
    (hother : (∀ entries, arguments ≠ .obj entries) → ∃ err, rest () = .error (.other err)) :
    Judged (requireKeys name arguments keys >>= rest)
      (RefusedArguments I mcpToolNames name arguments) (MisreadArguments I name arguments) := by
  rw [RefusedArguments, MisreadArguments, hkeys]
  exact judged_requireKeys hobject hother

/-- A call of the shell. -/
lemma judged_bashAction : Judged (bashAction I timeout arguments)
    (RefusedArguments I mcpToolNames executeBash arguments)
    (MisreadArguments I executeBash arguments) := by
  refine judged_tool I mcpToolNames (show requiredKeys executeBash = some ["command"] by decide)
    (fun entries hentries hkeys => ?_) fun hne => ?_
  · subst hentries
    obtain ⟨command, -, hcommand⟩ := exists_index hkeys (List.mem_singleton.mpr rfl)
    have hget : get "is_input" (.str "false") (.obj entries) =
        .ok ((entries.lookup "is_input").getD (.str "false")) := rfl
    rw [hget, Except.ok_bind, hcommand, Except.ok_bind]
    refine ((judged_commandTimeout I timeout entries).bind fun hardTimeout => ⟨_, rfl⟩).congr ?_ ?_
    · have hname : executeBash ≠ strReplaceEditor := by decide
      simp [FaultyEntries, hname]
    · simp [FailingEntries]
  · obtain ⟨err, herr⟩ := get_of_forall_ne "is_input" (.str "false") hne
    exact ⟨err, by rw [herr]; rfl⟩

/-- A cell of Python. -/
lemma judged_ipythonAction : Judged (ipythonAction I timeout arguments)
    (RefusedArguments I mcpToolNames executeIpythonCell arguments)
    (MisreadArguments I executeIpythonCell arguments) := by
  refine judged_tool I mcpToolNames
    (show requiredKeys executeIpythonCell = some ["code"] by decide)
    (fun entries hentries hkeys => ?_) fun hne => ?_
  · subst hentries
    obtain ⟨code, -, hcode⟩ := exists_index hkeys (List.mem_singleton.mpr rfl)
    have hplain := not_faultyEntries I (show executeIpythonCell ≠ executeBash by decide)
      (by decide) entries
    rw [hcode]
    exact judged_ok hplain.1 hplain.2
  · obtain ⟨err, herr⟩ := index_of_forall_ne "code" hne
    exact ⟨err, by rw [herr]; rfl⟩

/-- The end of the task. -/
lemma judged_finishAction : Judged (finishAction arguments)
    (RefusedArguments I mcpToolNames finish arguments) (MisreadArguments I finish arguments) := by
  have hchecks : finishAction arguments =
      requireKeys finish arguments [] >>= fun _ => finishAction arguments := rfl
  rw [hchecks]
  refine judged_tool I mcpToolNames (show requiredKeys finish = some [] by decide)
    (fun entries hentries hkeys => ?_) fun hne => ?_
  · subst hentries
    have hplain := not_faultyEntries I (show finish ≠ executeBash by decide) (by decide) entries
    exact judged_ok hplain.1 hplain.2
  · obtain ⟨err, herr⟩ := get_of_forall_ne "message" (.str "") hne
    exact ⟨err, by rw [finishAction, herr]; rfl⟩

/-- A change to a file by a model. -/
lemma judged_editFileAction : Judged (editFileAction arguments)
    (RefusedArguments I mcpToolNames editFile arguments)
    (MisreadArguments I editFile arguments) := by
  refine judged_tool I mcpToolNames
    (show requiredKeys editFile = some ["path", "content"] by decide)
    (fun entries hentries hkeys => ?_) fun hne => ?_
  · subst hentries
    obtain ⟨path, -, hpath⟩ := exists_index hkeys (show "path" ∈ ["path", "content"] by simp)
    obtain ⟨content, -, hcontent⟩ :=
      exists_index hkeys (show "content" ∈ ["path", "content"] by simp)
    have hplain := not_faultyEntries I (show editFile ≠ executeBash by decide) (by decide) entries
    rw [hpath, Except.ok_bind, hcontent]
    exact judged_ok hplain.1 hplain.2
  · obtain ⟨err, herr⟩ := index_of_forall_ne "path" hne
    exact ⟨err, by rw [herr]; rfl⟩

/-- The editor finds an unexpected key if there is one. -/
lemma unexpected_eq_none_iff {entries : List (String × Json ν)} :
    unexpected (editKwargs entries) = none ↔ ¬ ∃ e ∈ entries, e.1 ∉ validParams := by
  simp only [unexpected, editKwargs, otherKwargs, List.find?_eq_none, List.mem_filter,
    decide_eq_true_iff, not_exists, not_and, not_not, and_imp]
  constructor
  · intro h e he
    by_contra hparams
    have hnames : e.1 ∉ ["command", "path"] := fun hmem =>
      hparams (List.mem_of_mem_take (i := 2) hmem)
    have hrange : e.1 ≠ "view_range" := fun hrange => hparams (by rw [hrange]; decide)
    exact hparams (h e he hnames hrange)
  · exact fun h e he _ _ => h e he

/-- A view of a file, or a change to it. -/
lemma judged_editorAction : Judged (editorAction I arguments)
    (RefusedArguments I mcpToolNames strReplaceEditor arguments)
    (MisreadArguments I strReplaceEditor arguments) := by
  refine judged_tool I mcpToolNames
    (show requiredKeys strReplaceEditor = some ["command", "path"] by decide)
    (fun entries hentries hkeys => ?_) fun hne => ?_
  · subst hentries
    obtain ⟨path, -, hpath⟩ := exists_index hkeys (show "path" ∈ ["command", "path"] by simp)
    obtain ⟨command, hlookup, hcommand⟩ :=
      exists_index hkeys (show "command" ∈ ["command", "path"] by simp)
    have hitems : items (.obj entries) = .ok entries := rfl
    have hname : strReplaceEditor ≠ executeBash := by decide
    have hfailing : ¬ FailingEntries I strReplaceEditor entries := fun h => hname h.1
    rw [hpath, Except.ok_bind, hcommand, Except.ok_bind, hitems, Except.ok_bind]
    by_cases hview : equalsText "view" command = true
    · rw [if_pos hview]
      have hfaulty : ¬ FaultyEntries I strReplaceEditor entries := by
        rintro (⟨heq, -⟩ | ⟨-, hcommand, -⟩)
        · exact hname heq
        · exact hcommand (by rw [hlookup, equalsText_iff.mp hview])
      exact judged_ok hfaulty hfailing
    · rw [if_neg hview]
      have hcommand : entries.lookup "command" ≠ some (.str "view") := by
        rw [hlookup]
        exact fun h => hview (equalsText_iff.mpr (Option.some.inj h))
      rcases hfound : unexpected (editKwargs entries) with _ | e
      · have hfaulty : ¬ FaultyEntries I strReplaceEditor entries := by
          rintro (⟨heq, -⟩ | ⟨-, -, hparams⟩)
          · exact hname heq
          · exact unexpected_eq_none_iff.1 hfound hparams
        exact judged_ok hfaulty hfailing
      · have hparams : ∃ e ∈ entries, e.1 ∉ validParams := by
          by_contra hnone
          rw [unexpected_eq_none_iff.2 hnone] at hfound
          cases hfound
        exact judged_declared trivial (Or.inr ⟨rfl, hcommand, hparams⟩) hfailing
  · obtain ⟨err, herr⟩ := index_of_forall_ne "path" hne
    exact ⟨err, by rw [herr]; rfl⟩

/-- A thought. -/
lemma judged_thinkAction : Judged (thinkAction arguments)
    (RefusedArguments I mcpToolNames think arguments) (MisreadArguments I think arguments) := by
  have hchecks : thinkAction arguments =
      requireKeys think arguments [] >>= fun _ => thinkAction arguments := rfl
  rw [hchecks]
  refine judged_tool I mcpToolNames (show requiredKeys think = some [] by decide)
    (fun entries hentries hkeys => ?_) fun hne => ?_
  · subst hentries
    have hplain := not_faultyEntries I (show think ≠ executeBash by decide) (by decide) entries
    exact judged_ok hplain.1 hplain.2
  · obtain ⟨err, herr⟩ := get_of_forall_ne "thought" (.str "") hne
    exact ⟨err, by rw [thinkAction, herr]; rfl⟩

/-- An interaction with the browser. -/
lemma judged_browserAction : Judged (browserAction arguments)
    (RefusedArguments I mcpToolNames browser arguments)
    (MisreadArguments I browser arguments) := by
  refine judged_tool I mcpToolNames (show requiredKeys browser = some ["code"] by decide)
    (fun entries hentries hkeys => ?_) fun hne => ?_
  · subst hentries
    obtain ⟨code, -, hcode⟩ := exists_index hkeys (List.mem_singleton.mpr rfl)
    have hplain := not_faultyEntries I (show browser ≠ executeBash by decide) (by decide) entries
    rw [hcode]
    exact judged_ok hplain.1 hplain.2
  · obtain ⟨err, herr⟩ := index_of_forall_ne "code" hne
    exact ⟨err, by rw [herr]; rfl⟩

/-- **What a tool does with its arguments.** -/
theorem judged_namedAction (name : Text) (arguments : Json ν) :
    Judged (namedAction I timeout mcpToolNames name arguments)
      (RefusedArguments I mcpToolNames name arguments) (MisreadArguments I name arguments) := by
  rw [namedAction]
  split_ifs with hbash hipython hdelegate hfinish hedit hstr hthink hbrowser hmcp
  · exact hbash ▸ judged_bashAction I timeout mcpToolNames
  · exact hipython ▸ judged_ipythonAction I timeout mcpToolNames
  · subst hdelegate
    exact judged_ok (fun h => h.1 rfl) id
  · exact hfinish ▸ judged_finishAction I mcpToolNames
  · exact hedit ▸ judged_editFileAction I mcpToolNames
  · exact hstr ▸ judged_editorAction I mcpToolNames
  · exact hthink ▸ judged_thinkAction I mcpToolNames
  · exact hbrowser ▸ judged_browserAction I mcpToolNames
  · have hkeys : requiredKeys name = none := by
      simp [requiredKeys, hbash, hipython, hfinish, hedit, hstr, hthink, hbrowser]
    rw [RefusedArguments, MisreadArguments, hkeys]
    exact judged_ok (fun h => h.2 hmcp) id
  · have hkeys : requiredKeys name = none := by
      simp [requiredKeys, hbash, hipython, hfinish, hedit, hstr, hthink, hbrowser]
    rw [RefusedArguments, MisreadArguments, hkeys]
    exact judged_declared trivial ⟨hdelegate, hmcp⟩ id

/-- **What a call does.** -/
theorem judged_toolAction (call : Call) :
    Judged (toolAction I timeout mcpToolNames call) (Refused I mcpToolNames call)
      (Misread I call) := by
  rw [toolAction, Refused, Misread]
  rcases jsonLoads I.library I.exceeds call.arguments with (_ | _) | arguments
  · exact judged_declared trivial trivial id
  · exact judged_other id trivial
  · exact judged_namedAction I timeout mcpToolNames call.name arguments

end Judgments

/-! ## What a response gives -/

section Responses

variable (I : Interpreter ν) (timeout : Option ν) (mcpToolNames : List Text) (response : Response)

/-- An action that carries the data of its call and of the response. -/
structure Carries (call : Call) (action : Action ν) : Prop where
  toolCallId : action.toolCallMetadata.toolCallId = call.id
  functionName : action.toolCallMetadata.functionName = call.name
  modelResponse : action.toolCallMetadata.modelResponse = response
  responseId : action.responseId = response.id

/-- **An action for each call**, in order. The first one carries the content of the response, too. -/
structure Answers (actions : List (Action ν)) : Prop where
  carries : List.Forall₂ (Carries response) response.toolCalls actions
  first : ∀ call ∈ response.toolCalls.head?, ∀ action ∈ actions.head?,
    ∃ plain, toolAction I timeout mcpToolNames call = .ok plain ∧
      action.plain = combineThought I plain response.content.thought
  others : List.Forall₂ (fun call action => toolAction I timeout mcpToolNames call =
    .ok action.plain) response.toolCalls.tail actions.tail

/-- **Actions or feedback**: an action for each call, one message if there are no calls, or a
declared exception. -/
def Answered : Except Raised (List (Action ν)) → Prop
  | .error e => e.Declared
  | .ok actions =>
    if response.toolCalls = [] then
      ∃ action, actions = [action] ∧ action.plain.body =
        .message (contentText I response.content) true ∧ action.responseId = response.id
    else Answers I timeout mcpToolNames response actions

variable {I timeout mcpToolNames response}

/-- The metadata of an action. -/
lemma carries_withMetadata (call : Call) (i : ℕ) (plain : Plain ν) :
    Carries response call (withMetadata I response call i plain) := ⟨rfl, rfl, rfl, rfl⟩

/-- An action behind the first one is that of its call. -/
@[simp] lemma plain_withMetadata_succ (call : Call) (i : ℕ) (plain : Plain ν) :
    (withMetadata I response call (i + 1) plain).plain = plain := rfl

/-- The actions of calls behind the first one. -/
lemma actionsFrom_eq_ok {calls : List Call} {i : ℕ} {actions : List (Action ν)}
    (h : actionsFrom I timeout mcpToolNames response (i + 1) calls = .ok actions) :
    List.Forall₂ (Carries response) calls actions ∧
      List.Forall₂ (fun call action => toolAction I timeout mcpToolNames call =
        .ok action.plain) calls actions := by
  induction calls generalizing i actions with
  | nil =>
    obtain rfl := Except.ok.inj h
    exact ⟨List.Forall₂.nil, List.Forall₂.nil⟩
  | cons call calls ih =>
    obtain ⟨plain, hplain, hrest⟩ := Except.bind_eq_ok.mp h
    obtain ⟨tail, htail, hreturn⟩ := Except.bind_eq_ok.mp hrest
    obtain rfl := Except.ok.inj hreturn
    obtain ⟨hcarries, hactions⟩ := ih htail
    exact ⟨List.Forall₂.cons (carries_withMetadata call _ plain) hcarries,
      List.Forall₂.cons (by rw [hplain, plain_withMetadata_succ]) hactions⟩

/-- What is returned for calls has an action for each of them. -/
lemma answers_of_actionsFrom {actions : List (Action ν)}
    (h : actionsFrom I timeout mcpToolNames response 0 response.toolCalls = .ok actions) :
    Answers I timeout mcpToolNames response actions := by
  rcases hcalls : response.toolCalls with _ | ⟨call, calls⟩
  · rw [hcalls] at h
    obtain rfl := Except.ok.inj h
    exact ⟨by rw [hcalls]; exact List.Forall₂.nil, by simp,
      by rw [hcalls]; exact List.Forall₂.nil⟩
  · rw [hcalls] at h
    obtain ⟨plain, hplain, hrest⟩ := Except.bind_eq_ok.mp h
    obtain ⟨tail, htail, hreturn⟩ := Except.bind_eq_ok.mp hrest
    obtain rfl := Except.ok.inj hreturn
    obtain ⟨hcarries, hactions⟩ := actionsFrom_eq_ok htail
    refine ⟨?_, ?_, by rw [hcalls]; exact hactions⟩
    · rw [hcalls]
      exact List.Forall₂.cons (carries_withMetadata call 0 plain) hcarries
    · rintro call' hcall action haction
      rw [hcalls, List.head?_cons, Option.mem_some_iff] at hcall
      rw [List.head?_cons, Option.mem_some_iff] at haction
      subst hcall haction
      exact ⟨plain, hplain, rfl⟩

variable (I timeout mcpToolNames response)

/-- **The first call that is no action decides**: another exception is raised unless a refused call
stands before each misread one. -/
theorem not_other_iff (i : ℕ) (calls : List Call) :
    (∀ e, actionsFrom I timeout mcpToolNames response i calls = .error e → e.Declared) ↔
      ∀ before call after, calls = before ++ call :: after → Misread I call →
        ∃ c ∈ before, Refused I mcpToolNames c := by
  induction calls generalizing i with
  | nil =>
    exact iff_of_true (fun _ h => by cases h) fun before call after h => by
      simp at h
  | cons first calls ih =>
    have hjudged := judged_toolAction I timeout mcpToolNames first
    rcases hfirst : toolAction I timeout mcpToolNames first with e | plain
    · have hresult : actionsFrom I timeout mcpToolNames response i (first :: calls) = .error e := by
        rw [actionsFrom, hfirst]
        rfl
      rw [hresult]
      by_cases he : e.Declared
      · have hrefused := hjudged.declared_iff.mp ⟨e, hfirst, he⟩
        refine iff_of_true (fun _ h => by cases h; exact he) fun before call after hcalls hcall => ?_
        cases before with
        | nil =>
          obtain ⟨rfl, -⟩ := List.cons.inj hcalls
          obtain ⟨e', he', hother⟩ := hjudged.other_iff.mpr hcall
          rw [hfirst] at he'
          cases he'
          exact absurd he hother
        | cons c before =>
          obtain ⟨rfl, -⟩ := List.cons.inj hcalls
          exact ⟨first, List.mem_cons_self, hrefused⟩
      · have hmisread := hjudged.other_iff.mp ⟨e, hfirst, he⟩
        refine iff_of_false (fun h => he (h e rfl)) fun h => ?_
        obtain ⟨c, hc, -⟩ := h [] first calls rfl hmisread
        cases hc
    · have hrefused : ¬ Refused I mcpToolNames first := fun h => by
        obtain ⟨e, he, -⟩ := hjudged.declared_iff.mpr h
        rw [hfirst] at he
        cases he
      have hmisread : ¬ Misread I first := fun h => by
        obtain ⟨e, he, -⟩ := hjudged.other_iff.mpr h
        rw [hfirst] at he
        cases he
      have hrest : (∀ e, actionsFrom I timeout mcpToolNames response i (first :: calls) =
          .error e → e.Declared) ↔
          ∀ e, actionsFrom I timeout mcpToolNames response (i + 1) calls = .error e →
            e.Declared := by
        rw [actionsFrom, hfirst, Except.ok_bind]
        rcases actionsFrom I timeout mcpToolNames response (i + 1) calls with e | actions
        · rfl
        · exact iff_of_true (fun _ h => by cases h) fun _ h => by cases h
      rw [hrest, ih]
      constructor
      · intro h before call after hcalls hcall
        cases before with
        | nil =>
          obtain ⟨rfl, -⟩ := List.cons.inj hcalls
          exact absurd hcall hmisread
        | cons c before =>
          obtain ⟨c', hc', hrefused'⟩ := h before call after (List.cons.inj hcalls).2 hcall
          exact ⟨c', List.mem_cons_of_mem _ hc', hrefused'⟩
      · intro h before call after hcalls hcall
        obtain ⟨c, hc, hc'⟩ := h (first :: before) call after (by rw [hcalls]; rfl) hcall
        rcases List.mem_cons.mp hc with rfl | hc
        · exact absurd hc' hrefused
        · exact ⟨c, hc, hc'⟩

end Responses

/-- An interpreter on some numbers. -/
def sampleInterpreter : Interpreter FnCall.SampleFloat where
  library := FnCall.sampleLibrary
  exceeds _ := false
  floatOfText text := if text = "0.5".toList then some .half else none
  floatOfInt _ := none
  floatOfBool _ := .half
  min x _ := x
  isZero _ := false
  reprSet _ := []
  strParts _ := []

/-- A finish call with a list for its arguments. -/
def listCall : Response where
  id := "response".toList
  content := .text "done".toList
  toolCalls := [⟨"call".toList, finish, "[]".toList⟩]

end ProRLAgent.CodeAct
