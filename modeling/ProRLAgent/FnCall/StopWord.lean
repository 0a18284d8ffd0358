import ProRLAgent.FnCall.CallText

set_option relaxedAutoImplicit false
set_option autoImplicit false

/-!
# Calls without their stop word

A model stops before the end of a call or in the middle of it, when that end is its stop word. The
reader puts the missing end back. Whether a call is written in full, cut before its end, or cut
behind the first two letters of its end, the reader finds the same name, the same parameters and
the same text before the call.

The values of the call may have line breaks and may look like parameters. The name of the tool must
not be empty: the pattern of the reader needs one letter, so a call of a tool without a name is not
found, and its text is kept as it is.

## Main definitions

* `ProRLAgent.FnCall.readCall` — what the reader finds in a text.
* `ProRLAgent.FnCall.stopVariants` — a text with a call in full and with its two cuts.
* `ProRLAgent.FnCall.CleanCall` — the letters that names and values do not have.

## Main results

* `ProRLAgent.FnCall.readCall_stopVariants` — the same reading.
* `ProRLAgent.FnCall.decodeAssistant_of_readCall` — an assistant message depends only on the
  reading of its last text.
-/

namespace ProRLAgent.FnCall

open PyText Search
open Serialization (Json)

variable {ν : Type}

/-! ## Reading a call -/

/-- **What the reader finds** in a text after `_fix_stopword`: the name of a function, its
parameters, and the text before the call. -/
def readCall (content : Text) : Option (Text × List (Text × Text) × Text) :=
  let content := fixStopword content
  (fnMatch content).map fun call =>
    (call.1, paramMatches call.2, strip (beforeFirst functionStart content))

/-- A text with the text `c` of a call behind it: in full, cut before the end of the call, and cut
behind the letters `</` of that end. -/
def stopVariants (t c : Text) : List Text :=
  [t ++ c, t ++ c.rdrop functionEnd.length, t ++ c.rdrop (functionEnd.length - "</".toList.length)]

section Message

variable (B : Builtins ν) (tools : List (Tool ν)) (counter : ℕ)

/-- The assistant message with a call that was found, and the number of the next call. -/
def calledMessage (fnName : Text) (params : List (Text × Text)) (content : Content) :
    Except ConverterError (Message ν × ℕ) :=
  match matchingTool tools fnName with
  | none => throw (.validation s!"Function '{String.ofList fnName}' not found in available tools: ")
  | some tool => do
    let params ← extractAndValidateParams B tool params fnName
    let toolCall : ToolCall ν := {
      index := some 1
      id := some ("toolu_".toList ++ padded counter)
      type := some functionType
      function := some ⟨fnName, some (.obj params)⟩ }
    return ({ role := .assistant, content := some content, toolCalls := some [toolCall] },
      counter + 1)

/-- **An assistant message depends only on the reading** of its last text, if a call is found in
it. -/
theorem decodeAssistant_of_readCall (message : Message ν) {text fnName before : Text}
    {params : List (Text × Text)} (h : readCall text = some (fnName, params, before)) :
    decodeAssistant B tools counter { message with content := some (.str text) } =
        calledMessage B tools counter fnName params (.str before) ∧
      ∀ (entries : List Item) (mark : Bool),
        decodeAssistant B tools counter
            { message with content := some (.items (entries ++ [.text text mark])) } =
          calledMessage B tools counter fnName params
            (.items (entries ++ [.text before mark])) := by
  obtain ⟨call, hcall, heq⟩ := Option.map_eq_some_iff.mp h
  obtain ⟨rfl, hrest⟩ := Prod.mk.inj heq
  obtain ⟨rfl, rfl⟩ := Prod.mk.inj hrest
  refine ⟨?_, fun entries mark => ?_⟩
  · simp only [decodeAssistant, contentOrEmpty, fixContent, callText?, Option.bind_some, hcall]
    rfl
  · have hempty : contentOrEmpty (some (.items (entries ++ [.text text mark]))) =
        .items (entries ++ [.text text mark]) := by
      cases entries <;> rfl
    simp only [decodeAssistant, hempty, fixContent, mapLastText, List.getLast?_append,
      List.getLast?_singleton, Option.some_or, List.dropLast_concat,
      Option.getD_some, callText?, Option.bind_some, Item.text?, hcall, withoutCall]
    rfl

end Message

/-! ## Words in the body of a call -/

/-- **The letters of a call** that is cut and completed again: the names have no bracket of a tag,
and the written values have neither the start of a call nor the letters `</`. -/
structure CleanCall (B : Builtins ν) (name : Text) (args : List (String × Json ν)) : Prop where
  name : '<' ∉ name ∧ '>' ∉ name
  param : ∀ arg ∈ args, '<' ∉ arg.1.toList ∧ '>' ∉ arg.1.toList
  value : ∀ arg ∈ args, ¬ "</".toList <:+: strValue B arg.2 ∧
    ¬ functionStart <:+: strValue B arg.2

/-- A word that begins like a tag and is no part of the tags around a parameter. -/
structure TagWord (u : Text) : Prop where
  first : '<' ∉ u
  line : '\n' ∉ u
  start : ∀ y, ¬ '<' :: u <+: parameterStart ++ y
  close : ∀ y, ¬ '<' :: u <+: parameterEnd ++ y

section Words

variable {B : Builtins ν} {u : Text} (hu : TagWord u)

include hu

/-- A word that stands in a value between line breaks stands in the value. -/
lemma TagWord.infix_of_lineBreak {value before after : Text} (hbefore : '<' ∉ before)
    (hafter : after = [] ∨ after = ['\n']) (h : '<' :: u <:+: before ++ (value ++ after)) :
    '<' :: u <:+: value := by
  rw [infix_append_iff_of_notMem hbefore] at h
  rcases hafter with rfl | rfl
  · rwa [List.append_nil] at h
  · have hapart : Replace.Apart ('<' :: u) ['\n'] :=
      Replace.apart_of_disjoint (by simp) (by simp) (by
        intro c hc hline
        obtain rfl := List.mem_singleton.mp hline
        exact hu.line ((List.mem_cons.mp hc).resolve_left (by decide)))
    have hseam : '<' :: u <:+: value ++ (['\n'] ++ []) := by rwa [List.append_nil]
    exact (Replace.infix_of_apart hapart hseam).resolve_right fun hnil => by
      cases List.infix_nil.mp hnil

/-- **A word in a parameter and what stands behind it** stands in the value or behind. -/
lemma TagWord.infix_of_parameterText {arg : String × Json ν} (hname : '<' ∉ arg.1.toList)
    (hvalue : ¬ '<' :: u <:+: strValue B arg.2) {rest : Text}
    (h : '<' :: u <:+: parameterText B arg ++ rest) : '<' :: u <:+: rest := by
  set line : Text := if isMultiline arg.2 then "\n".toList else [] with hline
  have hcases : line = [] ∨ line = ['\n'] := by
    rw [hline]
    split_ifs
    · exact Or.inr rfl
    · exact Or.inl rfl
  have hnotMem : '<' ∉ line := by
    rcases hcases with heq | heq <;> rw [heq] <;> decide
  set behind : Text := (line ++ (strValue B arg.2 ++ line)) ++ (parameterEnd ++ '\n' :: rest)
    with hbehind
  have hparts : parameterText B arg ++ rest =
      parameterStart ++ ((arg.1.toList ++ ['>']) ++ behind) := by
    have hclose : ">".toList = ['>'] := rfl
    have hbreak : "\n".toList = ['\n'] := rfl
    rw [parameterText, ← hline, hclose, hbreak, hbehind]
    simp only [List.append_assoc, List.cons_append, List.nil_append]
  have hstart (y : Text) : parameterStart ++ y = '<' :: ("parameter=".toList ++ y) := rfl
  have hend (y : Text) : parameterEnd ++ y = '<' :: ("/parameter>".toList ++ y) := rfl
  have hopen : '<' ∉ arg.1.toList ++ ['>'] := by simp [hname]
  have hstartLetters : '<' ∉ "parameter=".toList := by decide
  have hendLetters : '<' ∉ "/parameter>".toList := by decide
  rw [hparts, hstart, List.infix_cons_iff, or_iff_right (hstart _ ▸ hu.start _),
    infix_append_iff_of_notMem hstartLetters, infix_append_iff_of_notMem hopen, hbehind, hend] at h
  rcases infix_or_infix_of_append_cons hu.first h with hvalueIn | h
  · exact absurd (hu.infix_of_lineBreak hnotMem hcases hvalueIn) hvalue
  · rw [List.infix_cons_iff, or_iff_right (hend _ ▸ hu.close _),
      infix_append_iff_of_notMem hendLetters, List.infix_cons_iff] at h
    exact h.resolve_left fun hhead => absurd (List.cons_prefix_cons.mp hhead).1 (by decide)

/-- **A word in the body of a call** and what stands behind it is not in a value, so it stands
behind. -/
theorem TagWord.infix_of_body {args : List (String × Json ν)}
    (hname : ∀ arg ∈ args, '<' ∉ arg.1.toList)
    (hvalue : ∀ arg ∈ args, ¬ '<' :: u <:+: strValue B arg.2) {rest : Text}
    (h : '<' :: u <:+: (args.map (parameterText B)).flatten ++ rest) : '<' :: u <:+: rest := by
  induction args with
  | nil => exact h
  | cons arg args ih =>
    obtain ⟨hnameArg, hnames⟩ := List.forall_mem_cons.mp hname
    obtain ⟨hvalueArg, hvalues⟩ := List.forall_mem_cons.mp hvalue
    rw [List.map_cons, List.flatten_cons, List.append_assoc] at h
    exact ih hnames hvalues (hu.infix_of_parameterText hnameArg hvalueArg h)

end Words

/-- The start of a call is such a word. -/
lemma tagWord_functionStart : TagWord "function=".toList where
  first := by decide
  line := by decide
  start y h := by
    rcases List.prefix_or_prefix_of_prefix h (List.prefix_append parameterStart y) with h | h <;>
      exact absurd h (by decide)
  close y h := by
    rcases List.prefix_or_prefix_of_prefix h (List.prefix_append parameterEnd y) with h | h <;>
      exact absurd h (by decide)

/-- The end of a call is such a word. -/
lemma tagWord_functionEnd : TagWord "/function>".toList where
  first := by decide
  line := by decide
  start y h := by
    rcases List.prefix_or_prefix_of_prefix h (List.prefix_append parameterStart y) with h | h <;>
      exact absurd h (by decide)
  close y h := by
    rcases List.prefix_or_prefix_of_prefix h (List.prefix_append parameterEnd y) with h | h <;>
      exact absurd h (by decide)

/-! ## The three texts -/

/-- A text that ends with another letter does not end with `</`. -/
lemma not_suffix_open {d : Char} (hd : d ≠ '/') (x : Text) : ¬ "</".toList <:+ x ++ [d] := by
  have hword : "</".toList = ['<'] ++ ['/'] := rfl
  rw [hword, List.suffix_concat_iff]
  rintro (hempty | ⟨y, heq, -⟩)
  · cases hempty
  · exact hd (List.append_singleton_inj.mp heq).2.symm

/-- The end of a call is put behind a text in which one call starts. -/
lemma fixStopword_of_once {before after : Text} (hbefore : ¬ functionStart <:+: before)
    (hafter : ¬ functionStart <:+: after) :
    fixStopword (before ++ (functionStart ++ after)) =
      if "</".toList <:+ before ++ (functionStart ++ after) then
        rstrip (before ++ (functionStart ++ after)) ++ "function>".toList
      else before ++ (functionStart ++ after) ++ "\n</function>".toList := by
  have hcount : countFrom functionStart 0 (before ++ (functionStart ++ after)) = 1 := by
    rw [countFrom_append headOnce_functionStart hbefore, countFrom_eq_zero hafter]
  have hocc : functionStart <:+: before ++ (functionStart ++ after) :=
    ⟨before, after, List.append_assoc _ _ _⟩
  rw [fixStopword, if_pos ⟨hocc, hcount⟩]

section Variants

variable {t name body : Text} (ht : ¬ functionStart <:+: t)
  (hcall : ¬ functionStart <:+: name ++ '>' :: '\n' :: (body ++ functionEnd))

include ht hcall

/-- The text with the whole call: another end is put behind it. -/
lemma fixStopword_whole : fixStopword (t ++ callText name body) =
    t ++ (callText name body ++ "\n</function>".toList) := by
  have hlast : t ++ callText name body =
      (t ++ (functionStart ++ (name ++ '>' :: '\n' :: (body ++ "</function".toList)))) ++ ['>'] := by
    have hend : functionEnd = "</function".toList ++ ['>'] := rfl
    simp only [callText, hend, List.append_assoc, List.cons_append]
  have hopen : ¬ "</".toList <:+ t ++ callText name body := hlast ▸ not_suffix_open (by decide) _
  rw [callText] at hopen ⊢
  rw [fixStopword_of_once ht hcall, if_neg hopen, List.append_assoc]

/-- The text that is cut before the end of the call: the end is put in a new line. -/
lemma fixStopword_cut (hbody : ∃ b, '\n' :: body = b ++ ['\n']) :
    fixStopword (t ++ (functionStart ++ (name ++ '>' :: '\n' :: body))) =
      t ++ callText name (body ++ ['\n']) := by
  obtain ⟨b, hb⟩ := hbody
  have hafter : ¬ functionStart <:+: name ++ '>' :: '\n' :: body := fun hocc =>
    hcall (hocc.trans ⟨[], functionEnd, by simp⟩)
  have hlast : t ++ (functionStart ++ (name ++ '>' :: '\n' :: body)) =
      (t ++ (functionStart ++ (name ++ '>' :: b))) ++ ['\n'] := by
    rw [hb]
    simp only [List.append_assoc, List.cons_append]
  have hopen : ¬ "</".toList <:+ t ++ (functionStart ++ (name ++ '>' :: '\n' :: body)) :=
    hlast ▸ not_suffix_open (by decide) _
  have hend : "\n</function>".toList = '\n' :: functionEnd := rfl
  rw [fixStopword_of_once ht hafter, if_neg hopen, hend]
  simp only [callText, List.append_assoc, List.cons_append, List.nil_append]

/-- The text that is cut behind `</`: the rest of the end is put behind it. -/
lemma fixStopword_open :
    fixStopword (t ++ (functionStart ++ (name ++ '>' :: '\n' :: (body ++ "</".toList)))) =
      t ++ callText name body := by
  have hafter : ¬ functionStart <:+: name ++ '>' :: '\n' :: (body ++ "</".toList) := fun hocc => by
    have hword : functionEnd = "</".toList ++ "function>".toList := rfl
    refine hcall (hocc.trans ⟨[], "function>".toList, ?_⟩)
    rw [hword]
    simp only [List.nil_append, List.append_assoc, List.cons_append]
  set x : Text := t ++ (functionStart ++ (name ++ '>' :: '\n' :: body)) with hx
  have hword : "</".toList = ['<', '/'] := rfl
  have hparts : t ++ (functionStart ++ (name ++ '>' :: '\n' :: (body ++ "</".toList))) =
      x ++ "</".toList := by
    rw [hx]
    simp only [List.append_assoc, List.cons_append]
  have hlast : x ++ "</".toList = (x ++ ['<']) ++ ['/'] := by rw [hword, List.append_cons]
  have hend : functionEnd = ['<'] ++ (['/'] ++ "function>".toList) := rfl
  rw [fixStopword_of_once ht hafter, hparts, if_pos (List.suffix_append x _), hlast, rstrip,
    List.rdropWhile_concat_neg _ _ _ (by decide), hx, callText, hend]
  simp only [List.append_assoc, List.cons_append]

end Variants

/-- A line break behind a text is left behind the parameter at its beginning. -/
lemma paramBehind_append_lineBreak (x : Text) :
    paramBehind (x ++ ['\n']) = (paramBehind x).map fun found => (found.1, found.2 ++ ['\n']) := by
  have hend : parameterEnd = "</parameter".toList ++ ['>'] := rfl
  cases hdrop : x.dropWhile (· ≠ '>') with
  | nil =>
    have hdrop' : (x ++ ['\n']).dropWhile (· ≠ '>') = [] := by
      rw [List.dropWhile_append, hdrop]
      rfl
    simp only [paramBehind, hdrop, hdrop']
    cases x.takeWhile (· ≠ '>') <;> cases (x ++ ['\n']).takeWhile (· ≠ '>') <;> rfl
  | cons d rest =>
    have hdrop' : (x ++ ['\n']).dropWhile (· ≠ '>') = d :: (rest ++ ['\n']) := by
      rw [List.dropWhile_append, hdrop]
      rfl
    have htake : (x ++ ['\n']).takeWhile (· ≠ '>') = x.takeWhile (· ≠ '>') := by
      rw [List.takeWhile_append, if_neg]
      intro hlength
      have hx := congrArg List.length (List.takeWhile_append_dropWhile (p := (· ≠ '>')) (l := x))
      rw [List.length_append, hdrop, List.length_cons] at hx
      omega
    simp only [paramBehind, hdrop, hdrop', htake]
    cases x.takeWhile (· ≠ '>') with
    | nil => rfl
    | cons c name =>
      by_cases hd : d = '>'
      · subst hd
        rw [hend]
        simp only [splitFirst_append_of_notMem (show '>' ∉ ['\n'] by decide), Option.map_map]
        rfl
      · simp [hd]

/-- A line break behind the body of a call does not change its parameters. -/
lemma paramMatches_append_lineBreak (body : Text) :
    paramMatches (body ++ ['\n']) = paramMatches body := by
  have hword : parameterStart = "<parameter".toList ++ ['='] := rfl
  rw [paramMatches, paramMatches, hword]
  exact findAll_append_of_notMem (by decide) paramBehind_append_lineBreak body

/-! ## The same reading -/

section Reading

variable {B : Builtins ν} {toolCall : ToolCall ν} {name c t : Text} {args : List (String × Json ν)}

/-- The text that the converter writes. -/
lemma eq_callText_of_ok (hfunction : toolCall.function = some ⟨name, some (.obj args)⟩)
    (hc : convertToolCallToString B toolCall = .ok c) :
    c = callText name (args.map (parameterText B)).flatten := by
  have hname : ">\n".toList = ['>', '\n'] := rfl
  rw [convertToolCallToString, hfunction] at hc
  split at hc
  · cases hc
  · cases hc
  · cases hc
  · rename_i hfun _ _
    obtain rfl := Option.some.inj hfun
    split_ifs at hc
    obtain rfl := Except.ok.inj hc
    simp only [callText, hname, List.append_assoc, List.cons_append, List.nil_append]

/-- The body of a call and what stands before it end with a line break. -/
lemma exists_body_eq (B : Builtins ν) (args : List (String × Json ν)) :
    ∃ b, '\n' :: (args.map (parameterText B)).flatten = b ++ ['\n'] := by
  rcases List.eq_nil_or_concat args with rfl | ⟨before, arg, rfl⟩
  · exact ⟨[], rfl⟩
  · have hbreak : "\n".toList = ['\n'] := rfl
    refine ⟨'\n' :: ((before.map (parameterText B)).flatten ++ (parameterStart ++ arg.1.toList ++
      ">".toList ++ (if isMultiline arg.2 then "\n".toList else []) ++ strValue B arg.2 ++
      (if isMultiline arg.2 then "\n".toList else []) ++ parameterEnd)), ?_⟩
    simp only [List.concat_eq_append, List.map_append, List.map_cons, List.map_nil,
      List.flatten_append, List.flatten_cons, List.flatten_nil, List.append_nil, parameterText,
      hbreak, List.append_assoc, List.cons_append]

/-- **A call that is cut at its end reads the same**: the reader finds the same name, the same
parameters and the same text before it, whether the call is written in full, cut before its end, or
cut behind the first letters of its end. -/
theorem readCall_stopVariants (hfunction : toolCall.function = some ⟨name, some (.obj args)⟩)
    (hc : convertToolCallToString B toolCall = .ok c) (hclean : CleanCall B name args)
    (hname : name ≠ []) (ht : ¬ functionStart <:+: t) :
    ∃ params, ∀ content ∈ stopVariants t c,
      readCall content = some (name, params, strip t) := by
  obtain rfl := eq_callText_of_ok hfunction hc
  set body : Text := (args.map (parameterText B)).flatten with hbody
  have hopen : ∀ arg ∈ args, ¬ functionEnd <:+: strValue B arg.2 := fun arg harg hocc =>
    (hclean.value arg harg).1 (.trans ⟨[], "function>".toList, rfl⟩ hocc)
  have hnames : ∀ arg ∈ args, '<' ∉ arg.1.toList := fun arg harg => (hclean.param arg harg).1
  have hstart : ¬ functionStart <:+: name ++ '>' :: '\n' :: (body ++ functionEnd) := by
    have hparts : name ++ '>' :: '\n' :: (body ++ functionEnd) =
        (name ++ ['>', '\n']) ++ (body ++ functionEnd) := by simp
    have hbefore : '<' ∉ name ++ ['>', '\n'] := by simp [hclean.name.1]
    have hword : functionStart = '<' :: "function=".toList := rfl
    rw [hparts, hword, infix_append_iff_of_notMem hbefore]
    exact fun hocc => absurd (tagWord_functionStart.infix_of_body hnames
      (fun arg harg => (hclean.value arg harg).2) hocc) (by decide)
  have hend (rest : Text) (hrest : ¬ functionEnd <:+: rest) : ¬ functionEnd <:+: body ++ rest :=
    fun hocc => hrest (tagWord_functionEnd.infix_of_body hnames hopen hocc)
  have hplain : PlainName name := ⟨hname, hclean.name.2⟩
  -- The three texts are completed to a call with the same parameters.
  have hread (content body' extra : Text) (hbody' : body' = body ∨ body' = body ++ ['\n'])
      (hfix : fixStopword content = t ++ (callText name body' ++ extra)) :
      readCall content = some (name, paramMatches body, strip t) := by
    have hfree : ¬ functionEnd <:+: body' := by
      rcases hbody' with rfl | rfl
      · exact List.append_nil body ▸ hend [] (by decide)
      · exact hend ['\n'] (by decide)
    have hparams : paramMatches body' = paramMatches body := by
      rcases hbody' with rfl | rfl
      · rfl
      · exact paramMatches_append_lineBreak body
    simp only [readCall, hfix, fnMatch_callText ht hplain hfree, beforeFirst_callText ht,
      Option.map_some, hparams]
  have hcut : (callText name body).rdrop functionEnd.length =
      functionStart ++ (name ++ '>' :: '\n' :: body) := by
    have hparts : callText name body = (functionStart ++ (name ++ '>' :: '\n' :: body)) ++
        functionEnd := by
      simp only [callText, List.append_assoc, List.cons_append]
    rw [hparts, List.rdrop_append_length]
  have hcutOpen : (callText name body).rdrop (functionEnd.length - "</".toList.length) =
      functionStart ++ (name ++ '>' :: '\n' :: (body ++ "</".toList)) := by
    have hword : functionEnd = "</".toList ++ "function>".toList := rfl
    have hparts : callText name body =
        (functionStart ++ (name ++ '>' :: '\n' :: (body ++ "</".toList))) ++
          "function>".toList := by
      rw [callText, hword]
      simp only [List.append_assoc, List.cons_append]
    have hlength : functionEnd.length - "</".toList.length = "function>".toList.length := rfl
    rw [hparts, hlength, List.rdrop_append_length]
  refine ⟨paramMatches body, ?_⟩
  rw [stopVariants, hcut, hcutOpen]
  simp only [List.forall_mem_cons, List.not_mem_nil, false_imp_iff, implies_true, and_true]
  refine ⟨hread _ body "\n</function>".toList (.inl rfl) (fixStopword_whole ht hstart), ?_, ?_⟩
  · refine hread _ (body ++ ['\n']) [] (.inr rfl) ?_
    rw [fixStopword_cut ht hstart (exists_body_eq B args), List.append_nil]
  · refine hread _ body [] (.inl rfl) ?_
    rw [fixStopword_open ht hstart, List.append_nil]

end Reading

/-- A call of a tool with the name. -/
def namedCall (name : Text) (args : List (String × Json Empty)) : ToolCall Empty where
  index := some 1
  id := some "toolu_01".toList
  type := some functionType
  function := some ⟨name, some (.obj args)⟩

/-- A call with a text of two lines, in three ways. -/
theorem readCall_stopVariants_run :
    ∃ params, ∀ content ∈ stopVariants "I look.\n\n".toList
        ("<function=execute_bash>\n<parameter=command>\ncd src\nls < x\n</parameter>\n".toList ++
          "</function>".toList),
      readCall content = some ("execute_bash".toList, params, "I look.".toList) := by
  have hcall : convertToolCallToString noBuiltins
      (namedCall "execute_bash".toList [("command", .str "cd src\nls < x")]) =
        .ok ("<function=execute_bash>\n<parameter=command>\ncd src\nls < x\n</parameter>\n".toList ++
          "</function>".toList) := by
    repeat rw [String.toList_ofList]
    rfl
  exact readCall_stopVariants rfl hcall ⟨by decide, by decide, by decide⟩ (by decide) (by decide)

/-- **A tool without a name**: its call is not found, whole or cut, and the three texts stay as they
are. -/
theorem not_readCall_nameless :
    CleanCall noBuiltins [] [] ∧
      convertToolCallToString noBuiltins (namedCall [] []) =
        .ok "<function=>\n</function>".toList ∧
      (∀ content ∈ stopVariants "I look.".toList "<function=>\n</function>".toList,
        readCall content = none ∧
        decodeAssistant noBuiltins [] 1 { role := .assistant, content := some (.str content) } =
          .ok ({ role := .assistant, content := some (.str content) }, 1)) ∧
      (stopVariants "I look.".toList "<function=>\n</function>".toList).Nodup := by
  refine ⟨⟨by decide, by decide, by decide⟩, rfl, fun content hcontent => ?_, by decide⟩
  rw [stopVariants] at hcontent
  simp only [List.mem_cons, List.not_mem_nil, or_false] at hcontent
  rcases hcontent with rfl | rfl | rfl
  · exact ⟨by decide, rfl⟩
  · exact ⟨by decide, rfl⟩
  · exact ⟨by decide, rfl⟩


end ProRLAgent.FnCall
