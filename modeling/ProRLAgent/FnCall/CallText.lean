import ProRLAgent.FnCall.Converter

set_option relaxedAutoImplicit false
set_option autoImplicit false

/-!
# One call and one result as text

What the patterns of the converter find in the texts that it writes: the name and the body of a
call, the parameters in the body, and the name and the text of a result. The name of a parameter
must not end like the end of a call up to its last letter, and values have no `<`.

## Main definitions

* `ProRLAgent.FnCall.callText` — the text of a call.
* `ProRLAgent.FnCall.PlainName`, `ProRLAgent.FnCall.PlainParam` — what the patterns expect.
* `ProRLAgent.FnCall.ValidArgument` — an argument that the schema allows.

## Main results

* `ProRLAgent.FnCall.fnMatch_callText` — the call in a text.
* `ProRLAgent.FnCall.paramMatches_body` — the parameters in the body.
* `ProRLAgent.FnCall.extractAndValidateParams_eq` — the arguments of a valid call.
* `ProRLAgent.FnCall.toolResultMatch_append` — a result.
-/

namespace ProRLAgent.FnCall

open PyText Search
open Serialization (Json ofPairs ofPairs_of_nodup)

/-! ## Words -/

/-- The start of a call does not overlap itself. -/
lemma headOnce_functionStart : HeadOnce functionStart :=
  ⟨'<', "function=".toList, rfl, by decide⟩

/-- The end of a call does not overlap itself. -/
lemma headOnce_functionEnd : HeadOnce functionEnd := ⟨'<', "/function>".toList, rfl, by decide⟩

/-- The end of a parameter does not overlap itself. -/
lemma headOnce_parameterEnd : HeadOnce parameterEnd := ⟨'<', "/parameter>".toList, rfl, by decide⟩

/-- The end of the name of a tool does not overlap itself. -/
lemma headOnce_resultNameEnd : HeadOnce resultNameEnd := ⟨']', ":\n".toList, rfl, by decide⟩

/-- A name that a pattern reads. -/
def PlainName (name : Text) : Prop := name ≠ [] ∧ '>' ∉ name

/-- A name is read up to the letter behind it. -/
lemma PlainName.takeWhile_dropWhile {name : Text} (h : PlainName name) (rest : Text) :
    (name ++ '>' :: rest).takeWhile (· ≠ '>') = name ∧
      (name ++ '>' :: rest).dropWhile (· ≠ '>') = '>' :: rest := by
  have hall : ∀ c ∈ name, decide (c ≠ '>') = true := fun c hc => by
    simpa using fun heq : c = '>' => h.2 (heq ▸ hc)
  rw [List.takeWhile_append_of_pos hall, List.dropWhile_append_of_pos hall,
    List.takeWhile_cons_of_neg (by simp), List.dropWhile_cons_of_neg (by simp), List.append_nil]
  exact ⟨rfl, rfl⟩

/-! ## The parameters of a call -/

/-- A parameter that its pattern reads: its name does not end like the end of a call up to the last
letter, and its text has no `<`. -/
structure PlainParam (param : Text × Text) : Prop where
  name : PlainName param.1
  name_end : ¬ "</function".toList <:+ param.1
  value : '<' ∉ param.2

/-- A parameter that its pattern finds: its name does not end like the end of a call up to the last
letter, and its text has neither the end of a parameter nor that of a call. -/
structure FoundParam (param : Text × Text) : Prop where
  name : PlainName param.1
  name_end : ¬ "</function".toList <:+ param.1
  value : ¬ parameterEnd <:+: param.2 ∧ ¬ functionEnd <:+: param.2

/-- A text without `<` has no end. -/
lemma PlainParam.found {param : Text × Text} (h : PlainParam param) : FoundParam param :=
  ⟨h.name, h.name_end, not_infix_of_notMem h.value, not_infix_of_notMem h.value⟩

/-- A parameter with a text in one line. -/
def lineParam (param : Text × Text) : Text :=
  parameterStart ++ (param.1 ++ '>' :: (param.2 ++ (parameterEnd ++ ['\n'])))

/-- The pattern reads a parameter and stops behind its end. -/
lemma FoundParam.paramBehind_eq {param : Text × Text} (h : FoundParam param) (rest : Text) :
    paramBehind (param.1 ++ '>' :: (param.2 ++ (parameterEnd ++ rest))) =
      some (param, rest) := by
  obtain ⟨htake, hdrop⟩ := h.name.takeWhile_dropWhile
    (param.2 ++ (parameterEnd ++ rest))
  obtain ⟨c, name, hname⟩ := List.exists_cons_of_ne_nil h.name.1
  have hsplit : splitFirst parameterEnd (param.2 ++ (parameterEnd ++ rest)) =
      some (param.2, rest) :=
    splitFirst_append headOnce_parameterEnd h.value.1 rest
  simp only [paramBehind, htake, hdrop]
  rw [hname]
  simp only [hsplit]
  rw [← hname]
  rfl

/-- **The parameters in the body** of a call are found one after the other. -/
theorem paramMatches_body {params : List (Text × Text)} (h : ∀ param ∈ params, FoundParam param) :
    paramMatches (params.map lineParam).flatten = params := by
  induction params with
  | nil => rfl
  | cons param params ih =>
    obtain ⟨hparam, hparams⟩ := List.forall_mem_cons.mp h
    set rest : Text := (params.map lineParam).flatten with hrest
    have hbody : lineParam param ++ rest = parameterStart ++
        (param.1 ++ '>' :: (param.2 ++ (parameterEnd ++ '\n' :: rest))) := by
      simp only [lineParam, List.append_assoc, List.cons_append, List.nil_append]
    have hnewline : ¬ parameterStart <+: '\n' :: rest := by
      rintro ⟨_, heq⟩
      exact absurd (List.cons.inj heq).1 (by decide)
    have hsuffix : '\n' :: rest <:+
        param.1 ++ '>' :: (param.2 ++ (parameterEnd ++ '\n' :: rest)) :=
      ⟨param.1 ++ '>' :: (param.2 ++ parameterEnd), by
        simp only [List.append_assoc, List.cons_append]⟩
    rw [List.map_cons, List.flatten_cons, ← hrest, hbody, paramMatches,
      findAll_append (by decide) (hparam.paramBehind_eq _) hsuffix,
      findAll_cons_of_not_prefix _ hnewline]
    exact congrArg _ (ih hparams)

/-- The end of a call is not in a parameter, nor across what stands before it. -/
lemma FoundParam.infix_of_infix {param : Text × Text} (h : FoundParam param) {before : Text}
    (hbefore : '>' ∉ before) {rest : Text}
    (hocc : functionEnd <:+: before ++ (lineParam param ++ rest)) :
    functionEnd <:+: '\n' :: rest := by
  have hlast : functionEnd = "</function".toList ++ ['>'] := rfl
  have hfirst : functionEnd = '<' :: "/function>".toList := rfl
  have hparts : before ++ (lineParam param ++ rest) =
      (before ++ ("<parameter".toList ++ '=' :: param.1)) ++ '>' :: (param.2 ++
        '<' :: ("/parameter".toList ++ '>' :: '\n' :: rest)) := by
    have hstart : parameterStart = "<parameter".toList ++ ['='] := rfl
    have hend : parameterEnd = '<' :: ("/parameter".toList ++ ['>']) := rfl
    simp only [lineParam, hstart, hend, List.append_assoc, List.cons_append, List.nil_append]
  rw [hparts, hlast, infix_iff_of_last (by decide) (by simp [hbefore, h.name.2]),
    ← hlast] at hocc
  rcases hocc with hname | hocc
  · -- The end of the name would be the end of a call, or the `=` before the name would be in it.
    rw [← List.append_assoc] at hname
    exact absurd (suffix_of_notMem (by decide) hname) h.name_end
  · rw [hfirst] at hocc
    have hbehind := (infix_or_infix_of_append_cons (by decide) hocc).resolve_left h.value.2
    rw [List.infix_cons_iff, ← hfirst] at hbehind
    rcases hbehind with hhead | hocc
    · rcases List.prefix_or_prefix_of_prefix hhead
        (List.prefix_append ('<' :: "/parameter".toList) _) with hshort | hshort <;>
        exact absurd hshort (by decide)
    · rw [hlast, infix_iff_of_last (by decide) (by decide), ← hlast] at hocc
      exact hocc.resolve_left (by decide)

/-- **The end of a call is not in its body.** -/
theorem not_infix_body {params : List (Text × Text)} (h : ∀ param ∈ params, FoundParam param) :
    ¬ functionEnd <:+: (params.map lineParam).flatten := by
  suffices hall : ∀ before : Text, '>' ∉ before →
      ¬ functionEnd <:+: before ++ (params.map lineParam).flatten from hall [] (by simp)
  induction params with
  | nil =>
    intro before hbefore hocc
    rw [List.map_nil, List.flatten_nil, List.append_nil] at hocc
    exact hbefore (hocc.subset (by decide))
  | cons param params ih =>
    intro before hbefore hocc
    obtain ⟨hparam, hparams⟩ := List.forall_mem_cons.mp h
    rw [List.map_cons, List.flatten_cons] at hocc
    exact ih hparams ['\n'] (by decide) (hparam.infix_of_infix hbefore hocc)

/-! ## A call in a text -/

/-- The text of a call. -/
def callText (name body : Text) : Text :=
  functionStart ++ (name ++ '>' :: '\n' :: (body ++ functionEnd))

/-- The pattern reads the name and the body of a call. -/
lemma fnBehind_eq {name body : Text} (hname : PlainName name) (hbody : ¬ functionEnd <:+: body)
    (rest : Text) :
    fnBehind (name ++ '>' :: '\n' :: (body ++ (functionEnd ++ rest))) = some (name, body) := by
  obtain ⟨htake, hdrop⟩ := hname.takeWhile_dropWhile ('\n' :: (body ++ (functionEnd ++ rest)))
  obtain ⟨c, cs, hcons⟩ := List.exists_cons_of_ne_nil hname.1
  have hsplit : splitFirst functionEnd (body ++ (functionEnd ++ rest)) = some (body, rest) :=
    splitFirst_append headOnce_functionEnd hbody rest
  simp only [fnBehind, htake, hdrop]
  rw [hcons]
  simp only [hsplit]
  rfl

section Call

variable {before name body : Text} (hbefore : ¬ functionStart <:+: before)

include hbefore in
/-- The first call in a text. -/
lemma splitFirst_callText (extra : Text) :
    splitFirst functionStart (before ++ (callText name body ++ extra)) =
      some (before, name ++ '>' :: '\n' :: (body ++ (functionEnd ++ extra))) := by
  have hparts : before ++ (callText name body ++ extra) = before ++ (functionStart ++
      (name ++ '>' :: '\n' :: (body ++ (functionEnd ++ extra)))) := by
    simp only [callText, List.append_assoc, List.cons_append]
  rw [hparts]
  exact splitFirst_append headOnce_functionStart hbefore _

include hbefore in
/-- **The call in a text** is found, whatever is written behind it. -/
theorem fnMatch_callText (hname : PlainName name) (hbody : ¬ functionEnd <:+: body)
    (extra : Text) : fnMatch (before ++ (callText name body ++ extra)) = some (name, body) :=
  search_of_splitFirst (splitFirst_callText hbefore extra) (fnBehind_eq hname hbody extra)

include hbefore in
/-- What stands before the call. -/
lemma beforeFirst_callText (extra : Text) :
    beforeFirst functionStart (before ++ (callText name body ++ extra)) = before := by
  rw [beforeFirst, splitFirst_callText hbefore]
  rfl

/-- The stop word is put behind a call that ends, if at all. -/
lemma exists_fixStopword_callText (before name body : Text) :
    ∃ extra, fixStopword (before ++ callText name body) =
      before ++ (callText name body ++ extra) := by
  have hlast : before ++ callText name body =
      (before ++ (functionStart ++ (name ++ '>' :: '\n' :: (body ++ "</function".toList)))) ++
        ['>'] := by
    have hend : functionEnd = "</function".toList ++ ['>'] := rfl
    simp only [callText, hend, List.append_assoc, List.cons_append]
  have hopen : ¬ "</".toList <:+ before ++ callText name body := by
    have hword : "</".toList = ['<'] ++ ['/'] := rfl
    rw [hlast, hword, List.suffix_concat_iff]
    rintro (hempty | ⟨t, heq, -⟩)
    · cases hempty
    · exact absurd (List.append_singleton_inj.mp heq).2 (by decide)
  rw [fixStopword, if_neg hopen]
  split_ifs
  · exact ⟨"\n</function>".toList, List.append_assoc _ _ _⟩
  · exact ⟨[], by rw [List.append_nil]⟩

end Call

/-! ## The arguments of a call -/

variable {ν : Type} (B : Builtins ν)

/-- The texts of an argument. -/
def argumentText (arg : String × Json ν) : Text × Text := (arg.1.toList, strValue B arg.2)

/-- A value of the type that a schema gives: a text or an integer. -/
inductive HasType : Property ν → Json ν → Prop
  | string {info : Property ν} (s : String)
      (htype : info.type = none ∨ info.type = some stringType) : HasType info (.str s)
  | integer {info : Property ν} (n : ℤ) (htype : info.type = some integerType) :
      HasType info (.int n)

/-- **A valid argument**: the parameter is declared, and the value has its type and is one of the
allowed ones. -/
def ValidArgument (tool : Tool ν) (arg : String × Json ν) : Prop :=
  ∃ properties info, tool.parameters.bind Parameters.properties = some properties ∧
    properties.get? arg.1.toList = some info ∧ HasType info arg.2 ∧
    ∀ values, info.enum = some values → arg.2 ∈ values

/-- An argument that the patterns read: its name is not empty, has no `>` and does not end like the
end of a call up to the last letter, and a text is in one line and has no `<`. -/
structure PlainArgument (arg : String × Json ν) : Prop where
  name : PlainName arg.1.toList
  name_end : ¬ "</function".toList <:+ arg.1.toList
  value : ∀ s, arg.2 = .str s → '\n' ∉ s.toList ∧ '<' ∉ s.toList

/-- **A valid call** of one of the tools that the patterns read. -/
structure ValidCall (tools : List (Tool ν)) (name : Text) (args : List (String × Json ν)) :
    Prop where
  name_plain : PlainName name
  name_bracket : ']' ∉ name
  nodup : (args.map Prod.fst).Nodup
  plain : ∀ arg ∈ args, PlainArgument arg
  tool : ∃ tool, matchingTool tools name = some tool ∧ (∀ arg ∈ args, ValidArgument tool arg) ∧
    ∀ param ∈ requiredParams tool, param ∈ args.map fun arg => arg.1.toList

variable {B}

/-- A value is compared with itself. -/
lemma HasType.eqValue_self {info : Property ν} {value : Json ν} (h : HasType info value) :
    eqValue B value value = true := by
  cases h <;> simp [eqValue]

/-- The text of a value is read by its type. -/
lemma HasType.convertParam_eq {info : Property ν} {value : Json ν} (h : HasType info value)
    (paramName : Text) : convertParam B info (paramName, strValue B value) = .ok value := by
  cases h with
  | string s htype =>
    have hinteger : info.type ≠ some integerType := by
      rcases htype with htype | htype <;> rw [htype] <;> decide
    have harray : info.type ≠ some arrayType := by
      rcases htype with htype | htype <;> rw [htype] <;> decide
    rw [convertParam, if_neg hinteger, if_neg harray, strValue, String.ofList_toList]
    rfl
  | integer n htype =>
    rw [convertParam, if_pos htype, strValue, int?_str]
    rfl

/-- A parameter with a schema is converted and checked. -/
lemma validateParam_of_get? {tool : Tool ν} {properties : Dict Text (Property ν)}
    (hproperties : tool.parameters.bind Parameters.properties = some properties)
    {param : Text × Text} {info : Property ν} (hinfo : properties.get? param.1 = some info)
    (fnName : Text) :
    validateParam B tool fnName param = convertParam B info param >>= checkEnum B info param.1 := by
  have hallowed : param.1 ∈ properties.keys := Dict.mem_keys_iff.mpr ⟨info, hinfo⟩
  rw [validateParam, hproperties]
  simp only [Option.map_some, Option.getD_some, Option.bind_some, hallowed, not_true, and_false,
    if_false, hinfo]

/-- A value that equals itself and is one of the allowed ones. -/
lemma checkEnum_of_mem {info : Property ν} {value : Json ν} (hself : eqValue B value value = true)
    (henum : ∀ values, info.enum = some values → value ∈ values) (paramName : Text) :
    checkEnum B info paramName value = .ok value := by
  rw [checkEnum]
  cases hvalues : info.enum with
  | none => rfl
  | some values =>
    have hmember : values.any (eqValue B value) = true :=
      List.any_eq_true.mpr ⟨value, henum values hvalues, hself⟩
    simp only [hmember, if_true]
    rfl

/-- The text of a valid argument is read as its value. -/
lemma ValidArgument.validateParam_eq {tool : Tool ν} {arg : String × Json ν}
    (h : ValidArgument tool arg) (fnName : Text) :
    validateParam B tool fnName (argumentText B arg) = .ok arg.2 := by
  obtain ⟨properties, info, hproperties, hinfo, htype, henum⟩ := h
  rw [validateParam_of_get? hproperties hinfo, argumentText, htype.convertParam_eq, Except.ok_bind]
  exact checkEnum_of_mem htype.eqValue_self henum _

/-- **Arguments are read one by one** from their texts. -/
theorem extractAndValidateParams_of_forall {tool : Tool ν} {args : List (String × Json ν)}
    (read : String × Json ν → Json ν) {fnName : Text}
    (hread : ∀ arg ∈ args, validateParam B tool fnName (argumentText B arg) = .ok (read arg))
    (hnodup : (args.map Prod.fst).Nodup)
    (hrequired : ∀ param ∈ requiredParams tool, param ∈ args.map fun arg => arg.1.toList) :
    extractAndValidateParams B tool (args.map (argumentText B)) fnName =
      .ok (args.map fun arg => (arg.1, read arg)) := by
  have hall : (args.map (argumentText B)).mapM (fun param => do
      let value ← validateParam B tool fnName param
      return (String.ofList param.1, value)) = .ok (args.map fun arg => (arg.1, read arg)) := by
    rw [Except.mapM_eq_ok_iff, List.forall₂_map_left_iff, List.forall₂_map_right_iff,
      List.forall₂_same]
    intro arg harg
    rw [hread arg harg, Except.ok_bind, argumentText, String.ofList_toList]
    rfl
  have hnames : (args.map (argumentText B)).map Prod.fst = args.map fun arg => arg.1.toList := by
    rw [List.map_map]
    rfl
  have hmissing : ¬ ∃ name ∈ requiredParams tool,
      name ∉ (args.map (argumentText B)).map Prod.fst := by
    rw [hnames]
    rintro ⟨name, hname, hnot⟩
    exact hnot (hrequired name hname)
  have hkeys : ((args.map fun arg => (arg.1, read arg)).map Prod.fst).Nodup := by
    rw [List.map_map]
    exact hnodup
  rw [extractAndValidateParams, hall, Except.ok_bind, if_neg hmissing, ofPairs_of_nodup hkeys]
  rfl

/-- **The arguments of a valid call** are read from their texts. -/
theorem extractAndValidateParams_eq {tool : Tool ν} {args : List (String × Json ν)}
    (hvalid : ∀ arg ∈ args, ValidArgument tool arg) (hnodup : (args.map Prod.fst).Nodup)
    (hrequired : ∀ param ∈ requiredParams tool, param ∈ args.map fun arg => arg.1.toList)
    (fnName : Text) :
    extractAndValidateParams B tool (args.map (argumentText B)) fnName = .ok args := by
  have hread := extractAndValidateParams_of_forall Prod.snd
    (fun arg harg => (hvalid arg harg).validateParam_eq (B := B) fnName) hnodup hrequired
  rwa [List.map_id'] at hread

/-! ## The text that the converter writes -/

/-- A plain argument is written in one line. -/
lemma PlainArgument.isMultiline_eq {arg : String × Json ν} (h : PlainArgument arg) :
    isMultiline arg.2 = false := by
  cases hvalue : arg.2 with
  | str s => exact decide_eq_false (h.value s hvalue).1
  | _ => rfl

/-- An argument in one line. -/
lemma parameterText_eq {arg : String × Json ν} (hline : isMultiline arg.2 = false) :
    parameterText B arg = lineParam (argumentText B arg) := by
  have hclose : ">".toList = ['>'] := rfl
  have hbreak : "\n".toList = ['\n'] := rfl
  rw [parameterText, hline, hclose, hbreak, lineParam, argumentText]
  simp only [Bool.false_eq_true, if_false, List.append_nil, List.append_assoc, List.cons_append,
    List.nil_append]

/-- The texts of a plain argument with a value of a type are those that the pattern reads. -/
lemma PlainArgument.plainParam {arg : String × Json ν} (h : PlainArgument arg) {info : Property ν}
    (htype : HasType info arg.2) : PlainParam (argumentText B arg) := by
  refine ⟨h.name, h.name_end, ?_⟩
  obtain ⟨name, value⟩ := arg
  cases htype with
  | string s htype => exact (h.value s rfl).2
  | integer n htype =>
    intro hmem
    rcases isDigit_or_of_mem_str hmem with hdigit | hminus
    · exact absurd hdigit (by decide)
    · exact absurd hminus (by decide)

/-- The body of a call. -/
def bodyText (B : Builtins ν) (args : List (String × Json ν)) : Text :=
  ((args.map (argumentText B)).map lineParam).flatten

/-- A tool call of a function with the arguments. -/
def ToolCall.Calls (toolCall : ToolCall ν) (name : Text) (args : List (String × Json ν)) : Prop :=
  toolCall.id.isSome ∧ toolCall.type = some functionType ∧
    toolCall.function = some ⟨name, some (.obj args)⟩

/-- **The text of a call.** -/
theorem convertToolCallToString_eq {toolCall : ToolCall ν} {name : Text}
    {args : List (String × Json ν)} (hcall : toolCall.Calls name args)
    (hline : ∀ arg ∈ args, isMultiline arg.2 = false) :
    convertToolCallToString B toolCall = .ok (callText name (bodyText B args)) := by
  obtain ⟨hid, htype, hfunction⟩ := hcall
  obtain ⟨id, hid⟩ := Option.isSome_iff_exists.mp hid
  have hbody : (args.map (parameterText B)).flatten = bodyText B args := by
    rw [bodyText, List.map_map]
    exact congrArg List.flatten
      (List.map_congr_left fun arg harg => parameterText_eq (hline arg harg))
  have hname : ">\n".toList = ['>', '\n'] := rfl
  simp only [convertToolCallToString, hfunction, hid, htype, ne_eq, not_true, if_false, hbody,
    callText, hname, List.append_assoc, List.cons_append, List.nil_append]
  rfl

/-- The body of a valid call is read. -/
theorem ValidCall.paramMatches_bodyText {tools : List (Tool ν)} {name : Text}
    {args : List (String × Json ν)} (h : ValidCall tools name args) :
    paramMatches (bodyText B args) = args.map (argumentText B) ∧
      ¬ functionEnd <:+: bodyText B args := by
  obtain ⟨tool, -, hvalid, -⟩ := h.tool
  have hfound : ∀ param ∈ args.map (argumentText B), FoundParam param := by
    intro param hparam
    obtain ⟨arg, harg, rfl⟩ := List.mem_map.mp hparam
    obtain ⟨_, info, -, -, htype, -⟩ := hvalid arg harg
    exact ((h.plain arg harg).plainParam htype).found
  exact ⟨paramMatches_body hfound, not_infix_body hfound⟩

/-! ## Results -/

/-- **The result of a tool** in the text of a message. -/
theorem toolResultMatch_append {name : Text} (hname : ']' ∉ name) (text : Text) :
    toolResultMatch (resultStart ++ (name ++ (resultNameEnd ++ text))) = some (name, text) := by
  have hbegin : splitFirst resultStart (resultStart ++ (name ++ (resultNameEnd ++ text))) =
      some ([], name ++ (resultNameEnd ++ text)) := splitFirst_self_append (by decide) _
  exact search_of_splitFirst hbegin
    (splitFirst_append headOnce_resultNameEnd (not_infix_of_notMem hname) text)

end ProRLAgent.FnCall
