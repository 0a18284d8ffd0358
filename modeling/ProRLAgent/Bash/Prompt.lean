import ProRLAgent.FnCall.Loaded
import ProRLAgent.Lib.Markers

set_option relaxedAutoImplicit false
set_option autoImplicit false

/-!
# Prompt blocks

The shell prints a block of JSON between two markers with every prompt: the exit code of the command
and where the shell stands. `matches_ps1_metadata` finds the blocks of an output that are JSON, and
`from_ps1_match` makes a `CmdOutputMetadata` of one of them.

A begin marker that starts a line of program output and has no end marker behind it takes the next
block with it. Any JSON value is accepted as a block, but only an object with the right kinds of
values is decoded.

Floating-point numbers, and the texts at which `json.loads` meets a limit, are given by the
interpreter.

## Main definitions

* `ProRLAgent.Bash.Interpreter` — numbers and limits of the interpreter.
* `ProRLAgent.Bash.matchesPs1Metadata`, `ProRLAgent.Bash.fromPs1Match` — the two functions.
* `ProRLAgent.Bash.Prompts` — a text of program output and prompt blocks.
* `ProRLAgent.Bash.Decodable` — the blocks that are decoded.

## Main results

* `ProRLAgent.Bash.matchesPs1Metadata_blocks_iff` — when every block is found.
* `ProRLAgent.Bash.fromPs1Match_matches_iff` — when every accepted block is decoded.
-/

namespace ProRLAgent.Bash

open FnCall (Text Library LoadsError jsonLoads jsonLoads_eq_ok_iff)
open Markers
open Serialization (Json)

variable {ν : Type}

/-! ## The interpreter -/

/-- `int` of a floating-point number. -/
inductive Truncated where
  | whole (n : ℤ)
  /-- An `OverflowError`. -/
  | infinite
  /-- A `ValueError`. -/
  | nan

/-- **The interpreter**: its numbers, and the texts at which `json.loads` meets a limit. -/
structure Interpreter (ν : Type) where
  library : Library ν
  exceeds : Text → Bool
  /-- `float` of a text, if that is a number. -/
  float : Text → Option ν
  int : ν → Truncated

/-- `json.loads`. -/
def Interpreter.loads (I : Interpreter ν) (text : Text) : Except LoadsError (Json ν) :=
  jsonLoads I.library I.exceeds text

/-! ## Finding blocks -/

/-- `CMD_OUTPUT_METADATA_PS1_REGEX`: the markers without the white space around them. -/
def ps1Marks : Marks Char where
  opening := "###PS1JSON###".toList
  closing := "###PS1END###".toList
  newline := '\n'

/-- The markers stay inside a line. -/
lemma inline_ps1Marks : ps1Marks.Inline where
  opening_ne_nil := by decide
  closing_ne_nil := by decide
  newline_notMem_opening := by decide
  newline_notMem_closing := by decide

section Matches

variable (I : Interpreter ν)

/-- The blocks that are JSON. -/
def keepJson : List (Found Char) → Except PyError (List (Found Char))
  | [] => .ok []
  | m :: ms =>
    match I.loads (PyText.strip m.group) with
    | .ok _ => (keepJson ms).map (m :: ·)
    | .error .decode => keepJson ms
    | .error .limit => .error (.other "json.loads")

/-- **`CmdOutputMetadata.matches_ps1_metadata`.** -/
def matchesPs1Metadata (string : Text) : Except PyError (List (Found Char)) :=
  keepJson I (find ps1Marks string)

/-- The blocks that are kept. -/
lemma keepJson_eq_ok_iff {ms kept : List (Found Char)} :
    keepJson I ms = .ok kept ↔
      (∀ m ∈ ms, I.loads (PyText.strip m.group) ≠ .error .limit) ∧
        kept = ms.filter fun m => (I.loads (PyText.strip m.group)).isOk := by
  induction ms generalizing kept with
  | nil => simp [keepJson, eq_comm]
  | cons m ms ih =>
    rw [keepJson, List.forall_mem_cons, List.filter_cons]
    rcases hload : I.loads (PyText.strip m.group) with (_ | _) | value
    · simp [ih, Except.isOk, Except.toBool]
    · simp
    · simp only [Except.isOk, Except.toBool, if_true]
      constructor
      · intro h
        obtain ⟨tail, htail, rfl⟩ : ∃ tail, keepJson I ms = .ok tail ∧ m :: tail = kept := by
          rcases hkeep : keepJson I ms with err | tail
          · rw [hkeep] at h
            cases h
          · rw [hkeep] at h
            exact ⟨tail, rfl, Except.ok.inj h⟩
        obtain ⟨hlimit, rfl⟩ := ih.mp htail
        exact ⟨⟨by simp, hlimit⟩, rfl⟩
      · rintro ⟨⟨-, hlimit⟩, rfl⟩
        rw [ih.mpr ⟨hlimit, rfl⟩]
        rfl

/-! ## Texts with prompts -/

/-- A block that holds a JSON object and neither of the markers. -/
structure HoldsObject (body : Text) : Prop where
  object : ∃ entries, I.loads (PyText.strip body) = .ok (.obj entries)
  no_opening : ¬ ps1Marks.opening <:+: body
  no_closing : ¬ ps1Marks.closing <:+: body

/-- **Program output and prompt blocks** in turn: each block starts a line and holds an object. -/
def Prompts : Bool → List (Text × Text) → Prop
  | _, [] => True
  | atStart, (output, body) :: bs =>
    lineStart ps1Marks atStart output = true ∧ HoldsObject I body ∧ Prompts false bs

/-- The texts between two markers in the pieces of program output. -/
def strayTexts : Bool → List (Text × Text) → Text → List Text
  | atStart, [], last => strays ps1Marks atStart last
  | atStart, (output, _) :: bs, last =>
    strays ps1Marks atStart output ++ strayTexts false bs last

variable {I}

/-- The text between the braces of an object, with white space around it. -/
lemma HoldsObject.exists_braces {body : Text} (h : HoldsObject I body) :
    ∃ before inner after, body = before ++ '{' :: (inner ++ '}' :: after) ∧
      (∀ c ∈ before, PyText.isSpace c) ∧ ∀ c ∈ after, PyText.isSpace c := by
  obtain ⟨entries, hentries⟩ := h.object
  obtain ⟨-, hloads⟩ := jsonLoads_eq_ok_iff.mp hentries
  obtain ⟨before, inner, after, heq, hbefore, hafter⟩ := FnCall.braces_of_loads _ hloads
  obtain ⟨first, last, hbody, hfirst, hlast⟩ := PyText.exists_strip body
  have hblank {c : Char} (h : Literals.isBlank c = true) : PyText.isSpace c := by
    rw [Literals.isBlank, decide_eq_true_eq] at h
    rcases h with rfl | rfl | rfl | rfl <;> decide
  refine ⟨first ++ before, inner, after ++ last, ?_, ?_, ?_⟩
  · rw [heq] at hbody
    rw [hbody]
    simp
  · intro c hc
    exact (List.mem_append.mp hc).elim (hfirst c)
      fun h => hblank (List.all_eq_true.mp hbefore c h)
  · intro c hc
    exact (List.mem_append.mp hc).elim (fun h => hblank (List.all_eq_true.mp hafter c h))
      (hlast c)

/-- No white space is in the end marker. -/
lemma notMem_closing_of_isSpace {c : Char} (h : PyText.isSpace c) : c ∉ ps1Marks.closing := by
  have hall : ∀ d ∈ ps1Marks.closing, PyText.isSpace d = false :=
    PyText.forall_of_all (by decide)
  intro hmem
  rw [hall c hmem] at h
  cases h

/-- The end marker of a block is the first one behind its begin marker. -/
lemma HoldsObject.enclosed {body : Text} (h : HoldsObject I body) : Enclosed ps1Marks body := by
  obtain ⟨before, inner, after, heq, hbefore, hafter⟩ := h.exists_braces
  refine ⟨fun hocc => ?_, ?_⟩
  · obtain ⟨c, tail, hbody, hc⟩ : ∃ c tail, body = c :: tail ∧ c ∉ ps1Marks.closing := by
      cases before with
      | nil => exact ⟨'{', _, heq, by decide⟩
      | cons c before => exact ⟨c, _, heq, notMem_closing_of_isSpace (hbefore c (by simp))⟩
    rw [hbody] at hocc
    rcases Search.infix_or_infix_of_notMem (by decide) hc hocc with hin | hin
    · exact absurd hin (by decide)
    · exact h.no_closing (hbody ▸ hin.trans (List.suffix_cons c tail).isInfix)
  · rcases List.eq_nil_or_concat after with rfl | ⟨init, d, rfl⟩
    · exact ⟨before ++ '{' :: inner, '}', by simp [heq], by decide⟩
    · exact ⟨before ++ '{' :: (inner ++ '}' :: init), d, by simp [heq],
        notMem_closing_of_isSpace (hafter d (by simp))⟩

/-- The blocks of a text with prompts are well placed. -/
lemma Prompts.wellPlaced {atStart : Bool} {bs : List (Text × Text)} (h : Prompts I atStart bs) :
    WellPlaced ps1Marks atStart bs := by
  induction bs generalizing atStart with
  | nil => trivial
  | cons b bs ih =>
    obtain ⟨hline, hbody, hrest⟩ := h
    exact ⟨hline, hbody.enclosed, ih hrest⟩

/-- The blocks of such a text hold objects. -/
lemma Prompts.holdsObject {atStart : Bool} {bs : List (Text × Text)} (h : Prompts I atStart bs) :
    ∀ b ∈ bs, HoldsObject I b.2 := by
  induction bs generalizing atStart with
  | nil => simp
  | cons b bs ih =>
    obtain ⟨-, hbody, hrest⟩ := h
    exact List.forall_mem_cons.mpr ⟨hbody, ih hrest⟩

/-- What is found in such a text is found in the program output, or is a block. -/
lemma mem_groupsFrom_iff {atStart : Bool} {bs : List (Text × Text)} {last group : Text} :
    group ∈ groupsFrom ps1Marks atStart bs last ↔
      group ∈ strayTexts atStart bs last ∨ group ∈ bs.map Prod.snd := by
  induction bs generalizing atStart with
  | nil => simp [groupsFrom, strayTexts]
  | cons b bs ih =>
    simp only [groupsFrom, strayTexts, List.mem_append, List.mem_cons, List.map_cons, ih]
    tauto

/-- The text of a block is one of the texts. -/
lemma group_of_mem_blocksFrom {m : Marks Char} {bs : List (Text × Text)} {pos : ℕ} {f : Found Char}
    (h : f ∈ blocksFrom m pos bs) : f.group ∈ bs.map Prod.snd := by
  induction bs generalizing pos with
  | nil => cases h
  | cons b bs ih =>
    rcases List.mem_cons.mp h with rfl | h
    · exact List.mem_cons_self
    · exact List.mem_cons_of_mem _ (ih h)

variable (I)

/-- **All prompt blocks are found**, in their order, exactly if every begin marker that starts a line
of program output before a block has an end marker behind it in the same piece of output, and no
text between two markers in the program output is one at which `json.loads` meets a limit. -/
theorem matchesPs1Metadata_blocks_iff {bs : List (Text × Text)} (h : Prompts I true bs)
    (last : Text) :
    (∃ ms, matchesPs1Metadata I (textOf ps1Marks bs last) = .ok ms ∧
        (blocksFrom ps1Marks 0 bs).Sublist ms) ↔
      allClosed ps1Marks true bs = true ∧
        ∀ text ∈ strayTexts true bs last, I.loads (PyText.strip text) ≠ .error .limit := by
  have hobject : ∀ f ∈ blocksFrom ps1Marks 0 bs,
      (I.loads (PyText.strip f.group)).isOk = true := by
    intro f hf
    obtain ⟨b, hb, heq⟩ := List.mem_map.mp (group_of_mem_blocksFrom hf)
    obtain ⟨entries, hentries⟩ := (h.holdsObject b hb).object
    rw [← heq, hentries]
    rfl
  constructor
  · rintro ⟨ms, hms, hsub⟩
    obtain ⟨hlimit, rfl⟩ := (keepJson_eq_ok_iff I).mp hms
    have hclosed := allClosed_of_subset inline_ps1Marks h.wellPlaced
      (hsub.trans List.filter_sublist).subset
    refine ⟨hclosed, fun text htext => ?_⟩
    have hgroups := (findFrom_textOf inline_ps1Marks h.wellPlaced hclosed 0 last).2
    have hmem := mem_groupsFrom_iff.2 (Or.inl htext)
    rw [← hgroups] at hmem
    obtain ⟨f, hf, rfl⟩ := List.mem_map.mp hmem
    exact hlimit f hf
  · rintro ⟨hclosed, hlimit⟩
    obtain ⟨hsub, hgroups⟩ := findFrom_textOf inline_ps1Marks h.wellPlaced hclosed 0 last
    refine ⟨_, (keepJson_eq_ok_iff I).mpr ⟨fun f hf => ?_, rfl⟩, ?_⟩
    · have hmem : f.group ∈ groupsFrom ps1Marks true bs last :=
        hgroups ▸ List.mem_map_of_mem hf
      rcases mem_groupsFrom_iff.1 hmem with hstray | hblock
      · exact hlimit _ hstray
      · obtain ⟨b, hb, heq⟩ := List.mem_map.mp hblock
        obtain ⟨entries, hentries⟩ := (h.holdsObject b hb).object
        rw [← heq, hentries]
        simp
    · have hfilter := hsub.filter fun m => (I.loads (PyText.strip m.group)).isOk
      rwa [List.filter_eq_self.mpr hobject] at hfilter

end Matches

/-! ## Decoding -/

/-- `CmdOutputMetadata`. -/
structure CmdOutputMetadata where
  exitCode : ℤ := -1
  pid : ℤ := -1
  username : Option String := none
  hostname : Option String := none
  workingDir : Option String := none
  pyInterpreterPath : Option String := none
  prefixText : String := ""
  suffixText : String := ""
  deriving DecidableEq

section Decode

variable (I : Interpreter ν)

/-- `str(value)`. -/
def pyStr : Json ν → Text
  | .str s => s.toList
  | v => FnCall.repr I.library v

/-- `int(float(str(value)))`, or `-1` for a `ValueError`. -/
def toInt (v : Json ν) : Except PyError ℤ :=
  match (I.float (pyStr I v)).map I.int with
  | none | some .nan => .ok (-1)
  | some (.whole n) => .ok n
  | some .infinite => .error (.other "cannot convert float infinity to integer")

/-- A number of the block, or its default. -/
def numberField (entries : List (String × Json ν)) (key : String) : Except PyError ℤ :=
  match entries.lookup key with
  | none => .ok (-1)
  | some v => toInt I v

/-- A field of the model that is a text or `None`. -/
def optionalField (entries : List (String × Json ν)) (key : String) :
    Except PyError (Option String) :=
  match entries.lookup key with
  | none | some .null => .ok none
  | some (.str s) => .ok (some s)
  | some _ => .error (.valueError s!"{key}: Input should be a valid string")

/-- A field of the model that is a text. -/
def textField (entries : List (String × Json ν)) (key : String) : Except PyError String :=
  match entries.lookup key with
  | none => .ok ""
  | some (.str s) => .ok s
  | some _ => .error (.valueError s!"{key}: Input should be a valid string")

/-- What `from_ps1_match` does with the parsed block. -/
def ofMetadata : Json ν → Except PyError CmdOutputMetadata
  | .obj entries => do
    let pid ← numberField I entries "pid"
    let exitCode ← numberField I entries "exit_code"
    let username ← optionalField entries "username"
    let hostname ← optionalField entries "hostname"
    let workingDir ← optionalField entries "working_dir"
    let pyInterpreterPath ← optionalField entries "py_interpreter_path"
    let prefixText ← textField entries "prefix"
    let suffixText ← textField entries "suffix"
    return ⟨exitCode, pid, username, hostname, workingDir, pyInterpreterPath, prefixText,
      suffixText⟩
  -- A list can be copied, but it is no mapping.
  | .arr _ => .error (.typeError "argument after ** must be a mapping, not list")
  | _ => .error (.other "object has no attribute 'copy'")

/-- **`CmdOutputMetadata.from_ps1_match`.** The text of the block is parsed as it is. -/
def fromPs1Match (m : Found Char) : Except PyError CmdOutputMetadata :=
  match I.loads m.group with
  | .error .decode => .error (.valueError "json.JSONDecodeError")
  | .error .limit => .error (.other "json.loads")
  | .ok metadata => ofMetadata I metadata

/-! ## The blocks that are decoded -/

/-- A number of a block that does not become infinite. -/
def Convertible (entries : List (String × Json ν)) (key : String) : Prop :=
  ∀ v x, entries.lookup key = some v → I.float (pyStr I v) = some x → I.int x ≠ .infinite

/-- An entry that is a text if it is there. -/
def IsText (entries : List (String × Json ν)) (key : String) : Prop :=
  ∀ v, entries.lookup key = some v → ∃ s, v = .str s

/-- An entry that is a text or `null` if it is there. -/
def IsTextOrNull (entries : List (String × Json ν)) (key : String) : Prop :=
  ∀ v, entries.lookup key = some v → v = .null ∨ ∃ s, v = .str s

/-- **The blocks that are decoded**: without stripping, the text is a JSON object whose numbers are
not infinite and whose other fields are texts. -/
structure Decodable (group : Text) (entries : List (String × Json ν)) : Prop where
  object : I.loads group = .ok (.obj entries)
  pid : Convertible I entries "pid"
  exitCode : Convertible I entries "exit_code"
  names : ∀ key ∈ ["username", "hostname", "working_dir", "py_interpreter_path"],
    IsTextOrNull entries key
  texts : ∀ key ∈ ["prefix", "suffix"], IsText entries key

variable {I} {entries : List (String × Json ν)} {key : String}

/-- A number is converted unless it is infinite. -/
lemma toInt_ok_iff {v : Json ν} :
    (∃ n, toInt I v = .ok n) ↔ ∀ x, I.float (pyStr I v) = some x → I.int x ≠ .infinite := by
  rw [toInt]
  rcases I.float (pyStr I v) with _ | x
  · simp
  · rcases hint : I.int x <;> simp [hint]

/-- A number of the block is converted unless it is infinite. -/
lemma numberField_ok_iff :
    (∃ n, numberField I entries key = .ok n) ↔ Convertible I entries key := by
  rw [numberField, Convertible]
  rcases entries.lookup key with _ | v
  · simp
  · constructor
    · intro h w x hw hx
      obtain rfl := Option.some.inj hw
      exact toInt_ok_iff.1 h x hx
    · exact fun h => toInt_ok_iff.2 fun x hx => h v x rfl hx

/-- A text field that is not required. -/
lemma optionalField_ok_iff :
    (∃ s, optionalField entries key = .ok s) ↔ IsTextOrNull entries key := by
  rw [optionalField, IsTextOrNull]
  rcases entries.lookup key with _ | v
  · simp
  · cases v <;> simp

/-- A text field. -/
lemma textField_ok_iff : (∃ s, textField entries key = .ok s) ↔ IsText entries key := by
  rw [textField, IsText]
  rcases entries.lookup key with _ | v
  · simp
  · cases v <;> simp

/-- A block is decoded exactly if it is `Decodable`. -/
theorem fromPs1Match_ok_iff {m : Found Char} :
    (∃ metadata, fromPs1Match I m = .ok metadata) ↔ ∃ entries, Decodable I m.group entries := by
  constructor
  · rintro ⟨metadata, h⟩
    rw [fromPs1Match] at h
    split at h
    · cases h
    · cases h
    · next value hload =>
      cases value with
      | obj entries =>
        simp only [ofMetadata, Except.bind_eq_ok] at h
        obtain ⟨pid, hpid, code, hcode, user, huser, host, hhost, dir, hdir, py, hpy, pre, hpre,
          suf, hsuf, -⟩ := h
        refine ⟨entries, hload, numberField_ok_iff.1 ⟨pid, hpid⟩,
          numberField_ok_iff.1 ⟨code, hcode⟩, ?_, ?_⟩
        · simp only [List.forall_mem_cons, List.not_mem_nil, false_implies, implies_true, and_true]
          exact ⟨optionalField_ok_iff.1 ⟨_, huser⟩, optionalField_ok_iff.1 ⟨_, hhost⟩,
            optionalField_ok_iff.1 ⟨_, hdir⟩, optionalField_ok_iff.1 ⟨_, hpy⟩⟩
        · simp only [List.forall_mem_cons, List.not_mem_nil, false_implies, implies_true, and_true]
          exact ⟨textField_ok_iff.1 ⟨_, hpre⟩, textField_ok_iff.1 ⟨_, hsuf⟩⟩
      | _ => cases h
  · rintro ⟨entries, hload, hpid, hcode, hnames, htexts⟩
    simp only [List.forall_mem_cons, List.not_mem_nil, false_implies, implies_true, and_true]
      at hnames htexts
    obtain ⟨pid, hpid⟩ := numberField_ok_iff.2 hpid
    obtain ⟨code, hcode⟩ := numberField_ok_iff.2 hcode
    obtain ⟨user, huser⟩ := optionalField_ok_iff.2 hnames.1
    obtain ⟨host, hhost⟩ := optionalField_ok_iff.2 hnames.2.1
    obtain ⟨dir, hdir⟩ := optionalField_ok_iff.2 hnames.2.2.1
    obtain ⟨py, hpy⟩ := optionalField_ok_iff.2 hnames.2.2.2
    obtain ⟨pre, hpre⟩ := textField_ok_iff.2 htexts.1
    obtain ⟨suf, hsuf⟩ := textField_ok_iff.2 htexts.2
    refine ⟨⟨code, pid, user, host, dir, py, pre, suf⟩, ?_⟩
    rw [fromPs1Match, hload]
    simp only [ofMetadata, hpid, hcode, huser, hhost, hdir, hpy, hpre, hsuf, Except.ok_bind]
    rfl

variable (I)

end Decode

/-! ## Some texts -/

/-- Whole numbers, and how they are written. -/
def wholeNumbers : Interpreter Truncated where
  library :=
    { isPrintable := fun _ => true
      isFinite := fun x => match x with | .whole _ => true | _ => false
      reprFloat := fun x => match x with
        | .whole n => PyText.str n ++ ".0".toList
        | .infinite => "inf".toList
        | .nan => "nan".toList
      float := fun text => ((PyText.int? text).map Truncated.whole).getD .nan
      infinity := fun _ => .infinite
      nan := .nan
      eqFloat := fun x y => match x, y with
        | .whole m, .whole n => m = n
        | .infinite, .infinite => true
        | _, _ => false
      eqInt := fun x n => match x with | .whole m => m = n | _ => false }
  exceeds _ := false
  float text := (PyText.int? text).map Truncated.whole
  int x := x

/-- Program output with a begin marker that nobody closes, and a prompt block behind it. -/
def strayBegin : List (Text × Text) := [("###PS1JSON###\n".toList, "\n{}\n".toList)]

/-- The block behind a begin marker that nobody closes is not found. -/
theorem not_found_strayBegin :
    Prompts wholeNumbers true strayBegin ∧
      ¬ ∃ ms, matchesPs1Metadata wholeNumbers (textOf ps1Marks strayBegin []) = .ok ms ∧
        (blocksFrom ps1Marks 0 strayBegin).Sublist ms := by
  have hprompts : Prompts wholeNumbers true strayBegin :=
    ⟨by decide, ⟨⟨[], rfl⟩, by decide, by decide⟩, trivial⟩
  refine ⟨hprompts, fun h => ?_⟩
  have hnil : matchesPs1Metadata wholeNumbers (textOf ps1Marks strayBegin []) = .ok [] := by
    decide
  obtain ⟨ms, hms, hsub⟩ := h
  rw [hnil] at hms
  obtain rfl := Except.ok.inj hms
  cases hsub

/-- Program output with both markers around a text that is no JSON, and a prompt block behind it. -/
def closedStray : List (Text × Text) :=
  [("###PS1JSON###x###PS1END###\n".toList, "\n{}\n".toList)]

/-- The block behind a begin marker that is closed is found. -/
theorem matchesPs1Metadata_closedStray :
    ∃ ms, matchesPs1Metadata wholeNumbers (textOf ps1Marks closedStray []) = .ok ms ∧
      (blocksFrom ps1Marks 0 closedStray).Sublist ms := by
  have hprompts : Prompts wholeNumbers true closedStray :=
    ⟨by decide, ⟨⟨[], rfl⟩, by decide, by decide⟩, trivial⟩
  exact (matchesPs1Metadata_blocks_iff wholeNumbers hprompts []).mpr
    ⟨by decide, fun _ _ => FnCall.jsonLoads_ne_limit rfl⟩

end ProRLAgent.Bash
