import ProRLAgent.FnCall.Loaded

set_option relaxedAutoImplicit false
set_option autoImplicit false

/-!
# Tool calls in a response

`parse_response_ids` of `openhands/llm/nvidia/qwen3.py` (and the same function of `qwen2_5_vl.py`)
cuts a decoded response at the first `<tool_call>` and reads the calls behind it with the pattern
`<tool_call>\s*(\{.*?\})\s*</tool_call>`. A response is reported as malformed if it has no end, if
the tags behind the first one are not equally many, or if a call is no JSON.

A tag whose block the pattern does not match is passed over. The calls account for all tags only if
the text from the first tag on is a sequence of blocks with an object between the tags.

The tokenizer is a parameter, and so are the floating-point numbers and limits of `json.loads`.

## Main definitions

* `ProRLAgent.ToolCalls.parseResponseIds` — the function.
* `ProRLAgent.ToolCalls.Accounts` — the calls account for the whole response.
* `ProRLAgent.ToolCalls.Blocks` — a sequence of blocks.

## Main results

* `ProRLAgent.ToolCalls.length_findAll_eq_iff` — when every tag begins a match.
* `ProRLAgent.ToolCalls.accounts_iff` — when the calls of a response without a format error account
  for it.
-/

namespace ProRLAgent.ToolCalls

open FnCall (Text Library jsonLoads jsonLoads_eq_ok_iff)
open Search
open Serialization (Json)

variable {ν : Type}

/-! ## The function -/

/-- `<tool_call>`. -/
def callStart : Text := "<tool_call>".toList

/-- `</tool_call>`. -/
def callEnd : Text := "</tool_call>".toList

/-- The pattern `.*?\}\s*</tool_call>`: the text up to the first brace with an end tag behind it, and
the text behind that tag. -/
def readObject : Text → Option (Text × Text)
  | [] => none
  | c :: text =>
    if c = '}' ∧ callEnd <+: PyText.lstrip text then
      some (['}'], (PyText.lstrip text).drop callEnd.length)
    else (readObject text).map fun found => (c :: found.1, found.2)

/-- The pattern `\s*(\{.*?\})\s*</tool_call>` behind a tag. -/
def readCall (text : Text) : Option (Text × Text) :=
  match PyText.lstrip text with
  | [] => none
  | c :: rest =>
    if c = '{' then (readObject rest).map fun found => ('{' :: found.1, found.2) else none

/-- `re.findall(r"<tool_call>\s*(\{.*?\})\s*</tool_call>", text, re.DOTALL)`. -/
def findCalls (text : Text) : List Text := findAll callStart readCall text

/-- `format_error_type`, if it is set. -/
inductive FormatError where
  | length
  | toolCall
  deriving DecidableEq, Repr

/-- A tool call as it is returned. -/
structure ToolCall (ν : Type) where
  id : String
  type : String
  function : Json ν

/-- The dictionary that is returned. -/
structure ParsedResponse (ν : Type) where
  content : Text
  toolCalls : List (ToolCall ν)
  formatErrorType : Option FormatError

/-- The tokenizer: its end-of-sequence id, and `decode` without special tokens. -/
structure Decoder where
  eosTokenId : Token
  decode : List Token → Text

section Parse

variable (L : Library ν) (exceeds : Text → Bool) (tokenizer : Decoder) (uuid4 : ℕ → String)

/-- The parsed calls, if all of them are JSON. -/
def loadCalls (strings : List Text) : Option (List (Json ν)) :=
  strings.mapM fun string => (jsonLoads L exceeds string).toOption

/-- The calls with their new ids. -/
def formatToolCalls (calls : List (Json ν)) : List (ToolCall ν) :=
  calls.zipIdx.map fun call => ⟨uuid4 call.2, "function", call.1⟩

/-- **`parse_response_ids`.** -/
def parseResponseIds (responseIds : List Token) : ParsedResponse ν :=
  let text := tokenizer.decode responseIds
  let formatErrorType := if tokenizer.eosTokenId ∈ responseIds then none else some .length
  match Search.splitFirst callStart text with
  | none => ⟨text, [], formatErrorType⟩
  | some (content, after) =>
    if formatErrorType.isSome then ⟨text, [], formatErrorType⟩
    else
      let toolText := callStart ++ after
      let formatErrorType :=
        if countFrom callStart 0 toolText ≠ countFrom callEnd 0 toolText then some .toolCall
        else none
      match loadCalls L exceeds (findCalls toolText) with
      | none => ⟨content, [], some .toolCall⟩
      | some calls => ⟨content, formatToolCalls uuid4 calls, formatErrorType⟩

end Parse

/-! ## Accounting for the response -/

/-- A call is the JSON object between one tag of the text and the next end tag. -/
def IsBlockOf (L : Library ν) (exceeds : Text → Bool) (text : Text) (function : Json ν) : Prop :=
  ∃ before inner after entries, text = before ++ (callStart ++ (inner ++ (callEnd ++ after))) ∧
    ¬ callEnd <:+: inner ∧ jsonLoads L exceeds (PyText.strip inner) = .ok (.obj entries) ∧
      function = .obj entries

/-- **The calls account for the whole response**: they are as many as the tags, each is the object
between one tag and the next end tag, and the content is the text before the first tag. -/
structure Accounts (L : Library ν) (exceeds : Text → Bool) (text : Text) (r : ParsedResponse ν) :
    Prop where
  length : r.toolCalls.length = countFrom callStart 0 text
  block : ∀ call ∈ r.toolCalls, IsBlockOf L exceeds text call.function
  content : r.content = beforeFirst callStart text

/-- **A sequence of blocks**: between the tags of each block stands, with white space around it, a
text between braces without a tag, and outside the blocks there is no tag. -/
inductive Blocks : Text → Prop
  | last {text : Text} (hstart : ¬ callStart <:+: text) (hend : ¬ callEnd <:+: text) : Blocks text
  | block {before inner rest : Text} (hstart : ¬ callStart <:+: before)
      (hend : ¬ callEnd <:+: before) (hinner : ¬ callStart <:+: inner)
      (hinner' : ¬ callEnd <:+: inner)
      (hbraces : ∃ object, PyText.strip inner = '{' :: (object ++ ['}'])) (h : Blocks rest) :
      Blocks (before ++ (callStart ++ (inner ++ (callEnd ++ rest))))

/-! ## Reading a call -/

/-- The tags do not overlap themselves. -/
lemma headOnce_callStart : HeadOnce callStart := ⟨'<', "tool_call>".toList, rfl, by decide⟩

lemma headOnce_callEnd : HeadOnce callEnd := ⟨'<', "/tool_call>".toList, rfl, by decide⟩

/-- What the pattern reads behind the opening brace. -/
lemma readObject_spec {text object rest : Text} (h : readObject text = some (object, rest)) :
    ∃ init space, object = init ++ ['}'] ∧ (∀ c ∈ space, PyText.isSpace c) ∧
      text = init ++ '}' :: (space ++ (callEnd ++ rest)) := by
  induction text generalizing object with
  | nil => cases h
  | cons c text ih =>
    rw [readObject] at h
    split_ifs at h with hclose
    · obtain ⟨rfl, rfl⟩ := Prod.mk.inj (Option.some.inj h)
      obtain ⟨rfl, rest, hrest⟩ := hclose
      refine ⟨[], text.takeWhile PyText.isSpace, rfl, fun c hc => List.mem_takeWhile_imp hc, ?_⟩
      rw [← hrest, List.drop_left, hrest, PyText.lstrip, List.takeWhile_append_dropWhile]
      rfl
    · obtain ⟨found, hfound, heq⟩ := Option.map_eq_some_iff.mp h
      obtain ⟨rfl, rfl⟩ := Prod.mk.inj heq
      obtain ⟨init, space, hobject, hspace, rfl⟩ := ih hfound
      exact ⟨c :: init, space, by rw [hobject]; rfl, hspace, rfl⟩

/-- The text between braces. -/
lemma strip_braces (object : Text) :
    PyText.strip ('{' :: (object ++ ['}'])) = '{' :: (object ++ ['}']) :=
  PyText.strip_cons_concat (by decide) (by decide) object

/-- **What the pattern reads behind a tag**: an object between braces, with white space around it,
and the end tag. -/
lemma readCall_spec {text object rest : Text} (h : readCall text = some (object, rest)) :
    ∃ inner, text = inner ++ (callEnd ++ rest) ∧ PyText.strip inner = object ∧
      ∃ init, object = '{' :: (init ++ ['}']) := by
  rw [readCall] at h
  split at h
  · cases h
  · next c tail hstrip =>
    split_ifs at h with hbrace
    obtain ⟨found, hfound, heq⟩ := Option.map_eq_some_iff.mp h
    obtain ⟨rfl, rfl⟩ := Prod.mk.inj heq
    obtain ⟨init, space, hobject, hspace, htail⟩ := readObject_spec hfound
    obtain ⟨lead, hlead, hparts⟩ :
        ∃ lead, (∀ c ∈ lead, PyText.isSpace c) ∧ text = lead ++ PyText.lstrip text :=
      ⟨text.takeWhile PyText.isSpace, fun c hc => List.mem_takeWhile_imp hc,
        List.takeWhile_append_dropWhile.symm⟩
    rw [hstrip, htail, hbrace] at hparts
    refine ⟨lead ++ ('{' :: (init ++ ['}']) ++ space), ?_, ?_, init, ?_⟩
    · rw [hparts]
      simp
    · rw [PyText.strip_append_append hlead hspace, strip_braces, hobject]
    · rw [hobject]

/-- The pattern reads an object up to its last brace, if no end tag stands in it. -/
lemma readObject_append {object space : Text} (hend : ¬ callEnd <:+: object)
    (hspace : ∀ c ∈ space, PyText.isSpace c) (rest : Text) :
    readObject (object ++ '}' :: (space ++ (callEnd ++ rest))) = some (object ++ ['}'], rest) := by
  have hstrip : PyText.lstrip (space ++ (callEnd ++ rest)) = callEnd ++ rest := by
    rw [PyText.lstrip_append hspace]
    rfl
  induction object with
  | nil =>
    rw [List.nil_append, readObject, hstrip, if_pos ⟨rfl, List.prefix_append _ _⟩, List.drop_left]
    rfl
  | cons c object ih =>
    have hlater : ¬ (c = '}' ∧
        callEnd <+: PyText.lstrip (object ++ '}' :: (space ++ (callEnd ++ rest)))) := by
      rintro ⟨-, hprefix⟩
      rw [PyText.lstrip_append_cons (by decide)] at hprefix
      have hin := (prefix_of_prefix_append_cons (by decide) hprefix).isInfix
      exact hend ((hin.trans (List.dropWhile_suffix _).isInfix).trans
        (List.suffix_cons c object).isInfix)
    rw [List.cons_append, readObject, if_neg hlater,
      ih fun h => hend (h.trans (List.suffix_cons c object).isInfix)]
    rfl

/-- The pattern matches at a block. -/
lemma readCall_block {inner object : Text} (hend : ¬ callEnd <:+: inner)
    (hbraces : PyText.strip inner = '{' :: (object ++ ['}'])) (rest : Text) :
    readCall (inner ++ (callEnd ++ rest)) = some (PyText.strip inner, rest) := by
  obtain ⟨before, after, hparts, hbefore, hafter⟩ := PyText.exists_strip inner
  rw [hbraces] at hparts
  have htext : inner ++ (callEnd ++ rest) =
      before ++ '{' :: (object ++ '}' :: (after ++ (callEnd ++ rest))) := by
    rw [hparts]
    simp
  have hobject : ¬ callEnd <:+: object := fun h => by
    refine hend (h.trans ⟨before ++ ['{'], '}' :: after, ?_⟩)
    rw [hparts]
    simp
  have hstrip : PyText.lstrip (inner ++ (callEnd ++ rest)) =
      '{' :: (object ++ '}' :: (after ++ (callEnd ++ rest))) := by
    rw [htext, PyText.lstrip_append hbefore]
    rfl
  simp only [readCall, hstrip, if_true, readObject_append hobject hafter, Option.map_some, hbraces]

/-- Behind a match the end of the text is left. -/
lemma suffix_of_readCall {text object rest : Text} (h : readCall text = some (object, rest)) :
    rest <:+ text := by
  obtain ⟨inner, rfl, -⟩ := readCall_spec h
  exact (List.suffix_append callEnd rest).trans (List.suffix_append inner _)

/-! ## Every tag begins a match -/

/-- The start tags behind an end tag. -/
lemma occurrences_callStart_block (inner rest : Text) :
    occurrences callStart (inner ++ (callEnd ++ rest)) =
      occurrences callStart inner + occurrences callStart rest := by
  have hrest : occurrences callStart (callEnd ++ rest) = occurrences callStart rest := by
    have hhead : ¬ callStart <+: callEnd ++ rest := by
      intro h
      have hshort := List.prefix_of_prefix_length_le h (List.prefix_append callEnd rest) (by decide)
      exact absurd hshort (by decide)
    have htail : callEnd ++ rest = '<' :: ("/tool_call>".toList ++ rest) := rfl
    rw [htail] at hhead ⊢
    rw [occurrences, if_neg hhead, Nat.add_zero]
    exact occurrences_append_of_notMem (by decide) rest
  have hcut := occurrences_append_cons (c := '<') (w := "tool_call>".toList) (by decide) inner
    ("/tool_call>".toList ++ rest)
  rw [← hrest]
  exact hcut

/-- **The calls of a text**: there are none without a tag; the first tag begins a match with the rest
behind it, or the text behind the tag has all matches. -/
lemma findCalls_cases (text : Text) :
    ¬ callStart <:+: text ∧ findCalls text = [] ∨
      ∃ before after, text = before ++ (callStart ++ after) ∧ ¬ callStart <:+: before ∧
        (findCalls text = findCalls after ∨
          ∃ inner rest, after = inner ++ (callEnd ++ rest) ∧
            (∃ object, PyText.strip inner = '{' :: (object ++ ['}'])) ∧
            findCalls text = PyText.strip inner :: findCalls rest) := by
  by_cases hocc : callStart <:+: text
  · right
    obtain ⟨before, after, hsplit⟩ := exists_splitFirst (by decide) hocc
    refine ⟨before, after, splitFirst_spec hsplit, not_infix_of_splitFirst (by decide) hsplit, ?_⟩
    have hfind := findAll_of_splitFirst headOnce_callStart suffix_of_readCall hsplit
    rcases hread : readCall after with _ | ⟨object, rest⟩
    · rw [hread] at hfind
      exact Or.inl hfind
    · rw [hread] at hfind
      obtain ⟨inner, hafter, rfl, init, hinit⟩ := readCall_spec hread
      exact Or.inr ⟨inner, rest, hafter, ⟨init, hinit⟩, hfind⟩
  · exact Or.inl ⟨hocc, findAllFrom_eq_nil readCall hocc 0⟩

/-- The tags behind the first one. -/
lemma occurrences_callStart_succ_le (before after : Text) :
    occurrences callStart after + 1 ≤ occurrences callStart (before ++ (callStart ++ after)) := by
  have hbefore := occurrences_add_le callStart before (callStart ++ after)
  have htag := occurrences_add_le callStart callStart after
  have hone : occurrences callStart callStart = 1 := by decide
  omega

/-- The end tags before and behind one. -/
lemma occurrences_callEnd_succ_le (before inner rest : Text) :
    occurrences callEnd before + occurrences callEnd inner + (occurrences callEnd rest + 1) ≤
      occurrences callEnd (before ++ (callStart ++ (inner ++ (callEnd ++ rest)))) := by
  have hbefore := occurrences_add_le callEnd before (callStart ++ (inner ++ (callEnd ++ rest)))
  have hstart := occurrences_add_le callEnd callStart (inner ++ (callEnd ++ rest))
  have hinner := occurrences_add_le callEnd inner (callEnd ++ rest)
  have htag := occurrences_add_le callEnd callEnd rest
  have hone : occurrences callEnd callEnd = 1 := by decide
  omega

/-- The matches are not more than the tags of either kind. -/
lemma length_findCalls_le (text : Text) :
    (findCalls text).length ≤ occurrences callStart text ∧
      (findCalls text).length ≤ occurrences callEnd text := by
  induction hn : text.length using Nat.strong_induction_on generalizing text with
  | h n ih =>
    subst hn
    rcases findCalls_cases text with ⟨-, hnil⟩ | ⟨before, after, rfl, -, hcalls⟩
    · rw [hnil]
      exact ⟨Nat.zero_le _, Nat.zero_le _⟩
    · have hstart := occurrences_callStart_succ_le before after
      have hpos : 0 < callStart.length := by decide
      rcases hcalls with hafter | ⟨inner, rest, rfl, -, hmatch⟩
      · have hrest := ih after.length (by simp only [List.length_append]; omega) after rfl
        have hend := occurrences_add_le callEnd (before ++ callStart) after
        rw [List.append_assoc] at hend
        rw [hafter]
        omega
      · have hrest := ih rest.length (by simp only [List.length_append]; omega) rest rfl
        have hend := occurrences_callEnd_succ_le before inner rest
        rw [occurrences_callStart_block] at hstart
        rw [hmatch, List.length_cons]
        omega

/-- **Every tag begins a match** exactly in a sequence of blocks, if the tags are equally many. -/
theorem length_findAll_eq_iff {text : Text}
    (hcount : occurrences callStart text = occurrences callEnd text) :
    (findCalls text).length = occurrences callStart text ↔ Blocks text := by
  constructor
  · intro hlength
    induction hn : text.length using Nat.strong_induction_on generalizing text with
    | h n ih =>
      subst hn
      have hzero {w x : Text} (hw : w ≠ []) (h : occurrences w x = 0) : ¬ w <:+: x :=
        (occurrences_eq_zero_iff hw).mp h
      rcases findCalls_cases text with ⟨hstart, hnil⟩ | ⟨before, after, rfl, hbefore, hcalls⟩
      · rw [hnil, List.length_nil] at hlength
        exact .last hstart (hzero (by decide) (by omega))
      · have hstart := occurrences_callStart_succ_le before after
        rcases hcalls with hafter | ⟨inner, rest, rfl, hbraces, hmatch⟩
        · have hle := (length_findCalls_le after).1
          rw [hafter] at hlength
          omega
        · have hle := length_findCalls_le rest
          have hend := occurrences_callEnd_succ_le before inner rest
          rw [occurrences_callStart_block] at hstart
          rw [hmatch, List.length_cons] at hlength
          have hpos : 0 < callStart.length := by decide
          refine .block hbefore (hzero (by decide) (by omega)) (hzero (by decide) (by omega))
            (hzero (by decide) (by omega)) hbraces ?_
          exact ih rest.length (by simp only [List.length_append]; omega) (by omega) (by omega) rfl
  · intro hblocks
    clear hcount
    induction hblocks with
    | last hstart hend =>
      rw [(occurrences_eq_zero_iff (by decide)).mpr hstart]
      exact congrArg List.length (findAllFrom_eq_nil readCall hstart 0)
    | @block before inner rest hstart hend hinner hinner' hbraces _ ih =>
      obtain ⟨object, hobject⟩ := hbraces
      have hsplit := splitFirst_append headOnce_callStart hstart (inner ++ (callEnd ++ rest))
      have hfind := findAll_of_splitFirst headOnce_callStart suffix_of_readCall hsplit
      rw [readCall_block hinner' hobject] at hfind
      rw [← countFrom_eq_occurrences headOnce_callStart,
        countFrom_append headOnce_callStart hstart, countFrom_eq_occurrences headOnce_callStart,
        occurrences_callStart_block, (occurrences_eq_zero_iff (by decide)).mpr hinner, ← ih,
        findCalls, hfind, List.length_cons, Nat.zero_add]
      rfl

/-- The calls of a sequence of blocks are the texts between its tags. -/
lemma exists_of_mem_findCalls {text string : Text} (hblocks : Blocks text)
    (h : string ∈ findCalls text) :
    ∃ before inner after, text = before ++ (callStart ++ (inner ++ (callEnd ++ after))) ∧
      ¬ callEnd <:+: inner ∧ PyText.strip inner = string ∧ ∃ object, string = '{' :: object := by
  induction hblocks with
  | last hstart hend =>
    have hnil : findCalls _ = [] := findAllFrom_eq_nil readCall hstart 0
    rw [hnil] at h
    cases h
  | @block before inner rest hstart hend hinner hinner' hbraces _ ih =>
    obtain ⟨object, hobject⟩ := hbraces
    have hsplit := splitFirst_append headOnce_callStart hstart (inner ++ (callEnd ++ rest))
    have hfind := findAll_of_splitFirst headOnce_callStart suffix_of_readCall hsplit
    rw [readCall_block hinner' hobject] at hfind
    rw [findCalls, hfind] at h
    rcases List.mem_cons.mp h with rfl | h
    · exact ⟨before, inner, rest, rfl, hinner', rfl, _, hobject⟩
    · obtain ⟨before', inner', after, rfl, hcall⟩ := ih h
      exact ⟨before ++ (callStart ++ (inner ++ (callEnd ++ before'))), inner', after, by simp,
        hcall⟩

/-! ## When the calls account for the response -/

section Accounts

variable {L : Library ν} {exceeds : Text → Bool}

/-- The parsed calls belong to the texts that were found. -/
lemma loadCalls_spec {strings : List Text} {calls : List (Json ν)}
    (h : loadCalls L exceeds strings = some calls) :
    calls.length = strings.length ∧
      ∀ call ∈ calls, ∃ string ∈ strings, jsonLoads L exceeds string = .ok call := by
  induction strings generalizing calls with
  | nil =>
    obtain rfl := Option.some.inj h
    exact ⟨rfl, by simp⟩
  | cons string strings ih =>
    simp only [loadCalls, List.mapM_cons, Option.bind_eq_bind, Option.bind_eq_some_iff,
      Option.pure_def, Option.some.injEq] at h
    obtain ⟨call, hcall, tail, htail, rfl⟩ := h
    obtain ⟨hlength, hmem⟩ := ih htail
    have hload : jsonLoads L exceeds string = .ok call := by
      rcases hload : jsonLoads L exceeds string with err | value
      · rw [hload] at hcall
        cases hcall
      · rw [hload] at hcall
        obtain rfl := Option.some.inj hcall
        rfl
    refine ⟨by rw [List.length_cons, List.length_cons, hlength], fun c hc => ?_⟩
    rcases List.mem_cons.mp hc with rfl | hc
    · exact ⟨string, List.mem_cons_self, hload⟩
    · obtain ⟨s, hs, heq⟩ := hmem c hc
      exact ⟨s, List.mem_cons_of_mem _ hs, heq⟩

/-- A call with its id is one of the calls. -/
lemma function_mem_of_mem_formatToolCalls {uuid4 : ℕ → String} {calls : List (Json ν)}
    {call : ToolCall ν} (h : call ∈ formatToolCalls uuid4 calls) : call.function ∈ calls := by
  obtain ⟨⟨function, i⟩, hmem, rfl⟩ := List.mem_map.mp h
  exact (List.mem_zipIdx hmem).2.2 ▸ List.getElem_mem _

/-- The text from the first tag on. -/
def toolText (text : Text) : Text := text.drop (beforeFirst callStart text).length

/-- The parts of a text with a tag. -/
lemma toolText_of_splitFirst {text content after : Text}
    (h : Search.splitFirst callStart text = some (content, after)) :
    toolText text = callStart ++ after ∧ beforeFirst callStart text = content := by
  have hbefore : beforeFirst callStart text = content := by rw [beforeFirst, h]; rfl
  rw [toolText, hbefore]
  exact ⟨by rw [splitFirst_spec h, List.drop_left], rfl⟩

variable (L exceeds) (tokenizer : Decoder) (uuid4 : ℕ → String)

/-- A response without a tag. -/
lemma parseResponseIds_of_none {responseIds : List Token}
    (heos : tokenizer.eosTokenId ∈ responseIds)
    (hsplit : Search.splitFirst callStart (tokenizer.decode responseIds) = none) :
    parseResponseIds L exceeds tokenizer uuid4 responseIds =
      ⟨tokenizer.decode responseIds, [], none⟩ := by
  simp only [parseResponseIds, hsplit, if_pos heos]

/-- A response with a tag. -/
lemma parseResponseIds_of_some {responseIds : List Token} {content after : Text}
    (heos : tokenizer.eosTokenId ∈ responseIds)
    (hsplit : Search.splitFirst callStart (tokenizer.decode responseIds) = some (content, after)) :
    parseResponseIds L exceeds tokenizer uuid4 responseIds =
      match loadCalls L exceeds (findCalls (toolText (tokenizer.decode responseIds))) with
      | none => ⟨content, [], some .toolCall⟩
      | some calls => ⟨content, formatToolCalls uuid4 calls,
          if countFrom callStart 0 (toolText (tokenizer.decode responseIds)) ≠
            countFrom callEnd 0 (toolText (tokenizer.decode responseIds)) then some .toolCall
          else none⟩ := by
  simp only [parseResponseIds, hsplit, if_pos heos, Option.isSome_none, Bool.false_eq_true,
    if_false, (toolText_of_splitFirst hsplit).1]

/-- A response without an end. -/
lemma formatErrorType_of_notMem {responseIds : List Token}
    (heos : tokenizer.eosTokenId ∉ responseIds) :
    (parseResponseIds L exceeds tokenizer uuid4 responseIds).formatErrorType = some .length := by
  simp only [parseResponseIds, if_neg heos, Option.isSome_some, if_true]
  split <;> rfl

/-- The calls of a response with equally many tags account for it exactly if the text from the first
tag on is a sequence of blocks. -/
lemma accounts_of_some {text content after : Text} {calls : List (Json ν)}
    (hsplit : Search.splitFirst callStart text = some (content, after))
    (hequal : countFrom callStart 0 (toolText text) = countFrom callEnd 0 (toolText text))
    (hload : loadCalls L exceeds (findCalls (toolText text)) = some calls) :
    Accounts L exceeds text ⟨content, formatToolCalls uuid4 calls, none⟩ ↔
      Blocks (toolText text) := by
  obtain ⟨htool, hcontent⟩ := toolText_of_splitFirst hsplit
  have hcount : countFrom callStart 0 text = countFrom callStart 0 (toolText text) := by
    have hempty : ¬ callStart <:+: ([] : Text) := by decide
    have hafter := countFrom_append headOnce_callStart hempty after
    rw [List.nil_append] at hafter
    rw [htool, hafter, splitFirst_spec hsplit]
    exact countFrom_append headOnce_callStart (not_infix_of_splitFirst (by decide) hsplit) after
  obtain ⟨hlength, hcalls⟩ := loadCalls_spec hload
  have hreturned : (formatToolCalls uuid4 calls).length = (findCalls (toolText text)).length := by
    rw [formatToolCalls, List.length_map, List.length_zipIdx, hlength]
  rw [countFrom_eq_occurrences headOnce_callStart, countFrom_eq_occurrences headOnce_callEnd]
    at hequal
  rw [countFrom_eq_occurrences headOnce_callStart (toolText text)] at hcount
  constructor
  · intro h
    rw [← length_findAll_eq_iff hequal, ← hreturned, ← hcount]
    exact h.length
  · intro h
    refine ⟨?_, fun call hcall => ?_, hcontent.symm⟩
    · rw [hcount, hreturned]
      exact (length_findAll_eq_iff hequal).mpr h
    · obtain ⟨string, hstring, hvalue⟩ := hcalls _ (function_mem_of_mem_formatToolCalls hcall)
      obtain ⟨before, inner, rest, hparts, hend, rfl, object, hobject⟩ :=
        exists_of_mem_findCalls h hstring
      have hloads := (jsonLoads_eq_ok_iff.mp hvalue).2
      rw [hobject] at hloads
      obtain ⟨entries, hentries⟩ := FnCall.exists_obj_of_loads L hloads
      refine ⟨content ++ before, inner, rest, entries, ?_, hend, hentries ▸ hvalue, hentries⟩
      rw [List.append_assoc, ← hparts, htool, splitFirst_spec hsplit]

end Accounts

/-- A tokenizer whose response is a block with a list. -/
def listDecoder : Decoder := ⟨0, fun _ => "<tool_call>[1]</tool_call>".toList⟩

end ProRLAgent.ToolCalls
