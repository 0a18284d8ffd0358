import ProRLAgent.FnCall.CallText
import ProRLAgent.FnCall.Printed

set_option relaxedAutoImplicit false
set_option autoImplicit false

/-!
# Calls that are written and read back

What the reader makes of the text of one call. A text without a line break, an integer, and a list
that Python prints as JSON come back as they were. The reader knows no other types: a truth value
and a number come back as the text that Python prints for them, and an enumeration of such values
refuses that text.

Texts of several lines get line breaks around them that the reader keeps, and a list with a text
that Python prints between single quotes is no JSON.

## Main definitions

* `ProRLAgent.FnCall.readBack` — the name and the arguments that are read from the text of a call.
* `ProRLAgent.FnCall.ValidFor` — a call that is valid for a tool.
* `ProRLAgent.FnCall.Readable` — the values that the reader understands.

## Main results

* `ProRLAgent.FnCall.readBack_eq` — what is read back.
-/

namespace ProRLAgent.FnCall

open Literals PyText Search
open Serialization (Json)

variable {ν : Type}

/-! ## Writing and reading -/

/-- **The name and the arguments that are read from the text of a call**, by the two patterns and
`_extract_and_validate_params`. -/
def readBack (B : Builtins ν) (tool : Tool ν) (toolCall : ToolCall ν) :
    Except ConverterError (Option (Text × List (String × Json ν))) := do
  let text ← convertToolCallToString B toolCall
  match fnMatch text with
  | none => return none
  | some (name, body) =>
    let params ← extractAndValidateParams B tool (paramMatches body) name
    return some (name, params)

/-! ## Valid calls -/

/-- The type of a parameter that is a truth value. -/
def booleanType : Text := "boolean".toList

/-- The type of a parameter that is a number. -/
def numberType : Text := "number".toList

/-- The schema of a parameter of a tool. -/
def Tool.schema? (tool : Tool ν) (paramName : Text) : Option (Property ν) :=
  (tool.parameters.bind Parameters.properties).bind fun properties => properties.get? paramName

/-- A value of the type that a schema gives. -/
inductive HasSchemaType : Property ν → Json ν → Prop
  | string {info : Property ν} (s : String)
      (htype : info.type = none ∨ info.type = some stringType) : HasSchemaType info (.str s)
  | integer {info : Property ν} (n : ℤ) (htype : info.type = some integerType) :
      HasSchemaType info (.int n)
  | boolean {info : Property ν} (b : Bool) (htype : info.type = some booleanType) :
      HasSchemaType info (.bool b)
  | wholeNumber {info : Property ν} (n : ℤ) (htype : info.type = some numberType) :
      HasSchemaType info (.int n)
  | number {info : Property ν} (x : ν) (htype : info.type = some numberType) :
      HasSchemaType info (.float x)
  | array {info : Property ν} (items : List (Json ν)) (htype : info.type = some arrayType) :
      HasSchemaType info (.arr items)

/-- **The arguments of a call that is valid for a tool**: each one is declared, has its type and is
one of the allowed values, and the required ones are there. They come from JSON, so no key stands
twice in a dictionary, and no text in them has a word of the patterns. -/
structure ValidFor (tool : Tool ν) (args : List (String × Json ν)) : Prop where
  nodup : (args.map Prod.fst).Nodup
  declared : ∀ arg ∈ args, ∃ info, tool.schema? arg.1.toList = some info ∧
    HasSchemaType info arg.2 ∧ ∀ values, info.enum = some values → arg.2 ∈ values
  required : ∀ param ∈ requiredParams tool, param ∈ args.map fun arg => arg.1.toList
  keys : ∀ arg ∈ args, distinctKeys arg.2
  words : ∀ arg ∈ args, ∀ s ∈ texts arg.2, ¬ parameterStart <:+: s.toList ∧
    ¬ parameterEnd <:+: s.toList ∧ ¬ functionEnd <:+: s.toList

/-- A name of a parameter that its pattern reads, and that does not close the call. -/
def ReadName (paramName : Text) : Prop :=
  PlainName paramName ∧ ¬ "</function".toList <:+ paramName

/-- **The values that the reader understands**: texts in one line, lists that are printed as JSON,
and truth values and numbers that are not in an enumeration. -/
structure Readable (L : Library ν) (info : Property ν) (value : Json ν) : Prop where
  line : isMultiline value = false
  json : info.type = some arrayType → printsJson L value
  free : info.type = some booleanType ∨ info.type = some numberType → info.enum = none

/-- The value that is read: the text of a truth value and of a number, and the others as they
were. -/
def asRead (B : Builtins ν) (tool : Tool ν) (arg : String × Json ν) : Json ν :=
  match (tool.schema? arg.1.toList).bind Property.type with
  | none => arg.2
  | some type =>
    if type = booleanType ∨ type = numberType then .str (String.ofList (strValue B arg.2))
    else arg.2

/-! ## The parameters in the text -/

variable {L : Library ν}

/-- The text of a value that is no text is what `repr` gives. -/
lemma strValue_builtins {value : Json ν} (h : ∀ s, value ≠ .str s) :
    strValue L.builtins value = repr L value := by
  cases value with
  | str s => exact absurd rfl (h s)
  | _ => rfl

/-- A word that begins like a tag and is in no text of a value is not in the text of the value. -/
lemma not_infix_strValue (hL : L.Documented) {u : Text}
    (hu : ∀ c ∈ u, c ≠ backslash ∧ c ≠ quote ∧ c ≠ doubleQuote) {value : Json ν}
    (h : ∀ s ∈ texts value, ¬ '<' :: u <:+: s.toList) :
    ¬ '<' :: u <:+: strValue L.builtins value := by
  cases value with
  | str s => exact h s (List.mem_singleton.mpr rfl)
  | _ =>
    intro hocc
    rw [strValue_builtins (by simp), ← List.append_nil (repr L _)] at hocc
    cases List.infix_nil.mp (infix_of_repr hL hu _ h _ hocc)

/-- The parameters of a valid call are found. -/
lemma ValidFor.found {tool : Tool ν} {args : List (String × Json ν)} (h : ValidFor tool args)
    (hL : L.Documented) (hnames : ∀ arg ∈ args, ReadName arg.1.toList) :
    ∀ param ∈ args.map (argumentText L.builtins), FoundParam param := by
  intro param hparam
  obtain ⟨arg, harg, rfl⟩ := List.mem_map.mp hparam
  refine ⟨(hnames arg harg).1, (hnames arg harg).2, ?_, ?_⟩
  · have hend : parameterEnd = '<' :: "/parameter>".toList := rfl
    exact hend ▸ not_infix_strValue hL (forall_of_all (by decide)) fun s hs => hend ▸ (h.words arg harg s hs).2.1
  · have hend : functionEnd = '<' :: "/function>".toList := rfl
    exact hend ▸ not_infix_strValue hL (forall_of_all (by decide)) fun s hs => hend ▸ (h.words arg harg s hs).2.2

/-! ## The arguments -/

/-- A value of another type is read as its text. -/
lemma convertParam_text {B : Builtins ν} (info : Property ν) (hinteger : info.type ≠ some integerType)
    (harray : info.type ≠ some arrayType) (param : Text × Text) :
    convertParam B info param = .ok (.str (String.ofList param.2)) := by
  rw [convertParam, if_neg hinteger, if_neg harray]
  rfl

/-- **An argument is read from its text.** -/
theorem validateParam_asRead (hL : L.Documented) {tool : Tool ν} {arg : String × Json ν}
    {info : Property ν} (hschema : tool.schema? arg.1.toList = some info)
    (htype : HasSchemaType info arg.2) (henum : ∀ values, info.enum = some values → arg.2 ∈ values)
    (hkeys : distinctKeys arg.2) (hread : Readable L info arg.2) (fnName : Text) :
    validateParam L.builtins tool fnName (argumentText L.builtins arg) =
      .ok (asRead L.builtins tool arg) := by
  obtain ⟨properties, hproperties, hinfo⟩ := Option.bind_eq_some_iff.mp hschema
  rw [validateParam_of_get? hproperties hinfo, argumentText, asRead, hschema, Option.bind_some]
  obtain ⟨paramName, value⟩ := arg
  dsimp only at henum hkeys hread htype ⊢
  have hfree (hnone : info.enum = none) (text : Json ν) :
      checkEnum L.builtins info paramName.toList text = .ok text := by
    rw [checkEnum, hnone]
    rfl
  cases htype with
  | string s htype =>
    have hself : eqValue L.builtins (.str s) (.str s) = true := decide_eq_true rfl
    rcases htype with htype | htype
    · rw [convertParam_text info (by rw [htype]; decide) (by rw [htype]; decide), strValue,
        String.ofList_toList, Except.ok_bind, checkEnum_of_mem hself henum, htype]
    · rw [convertParam_text info (by rw [htype]; decide) (by rw [htype]; decide), strValue,
        String.ofList_toList, Except.ok_bind, checkEnum_of_mem hself henum, htype]
      rfl
  | integer n htype =>
    have hself : eqValue L.builtins (.int n) (.int n) = true := decide_eq_true rfl
    rw [convertParam, if_pos htype, strValue, int?_str, htype]
    exact checkEnum_of_mem hself henum _
  | array items htype =>
    have hjson := hread.json htype
    have hloads : L.builtins.loads (strValue L.builtins (.arr items)) = some (.arr items) := by
      show loads L (repr L (.arr items)) = _
      rw [loads_repr hL hkeys, if_pos hjson]
    have hself : eqValue L.builtins (.arr items) (.arr items) = true :=
      valueEq_self hL _ hjson hkeys
    rw [convertParam, htype, if_neg (by decide), if_pos rfl, hloads]
    exact checkEnum_of_mem hself henum _
  | boolean b htype =>
    rw [convertParam_text info (by rw [htype]; decide) (by rw [htype]; decide), Except.ok_bind,
      hfree (hread.free (Or.inl htype)), htype]
    rfl
  | wholeNumber n htype =>
    rw [convertParam_text info (by rw [htype]; decide) (by rw [htype]; decide), Except.ok_bind,
      hfree (hread.free (Or.inr htype)), htype]
    rfl
  | number x htype =>
    rw [convertParam_text info (by rw [htype]; decide) (by rw [htype]; decide), Except.ok_bind,
      hfree (hread.free (Or.inr htype)), htype]
    rfl

/-- **A call is read back** from its text: its name, and its arguments as the reader understands
them. -/
theorem readBack_eq (hL : L.Documented) {tool : Tool ν} {toolCall : ToolCall ν} {name : Text}
    {args : List (String × Json ν)} (hcall : toolCall.Calls name args) (hvalid : ValidFor tool args)
    (hname : PlainName name) (hnames : ∀ arg ∈ args, ReadName arg.1.toList)
    (hread : ∀ arg ∈ args, ∀ info, tool.schema? arg.1.toList = some info → Readable L info arg.2) :
    readBack L.builtins tool toolCall =
      .ok (some (name, args.map fun arg => (arg.1, asRead L.builtins tool arg))) := by
  have hline : ∀ arg ∈ args, isMultiline arg.2 = false := by
    intro arg harg
    obtain ⟨info, hschema, -⟩ := hvalid.declared arg harg
    exact (hread arg harg info hschema).line
  have hfound := hvalid.found hL hnames
  have htext := convertToolCallToString_eq (B := L.builtins) hcall hline
  have hmatch : fnMatch (callText name (bodyText L.builtins args)) =
      some (name, bodyText L.builtins args) := by
    have hbefore : ¬ functionStart <:+: [] := by decide
    have hcallText := fnMatch_callText hbefore hname (not_infix_body hfound) []
    rwa [List.append_nil, List.nil_append] at hcallText
  have hparams : paramMatches (bodyText L.builtins args) = args.map (argumentText L.builtins) :=
    paramMatches_body hfound
  have hvalues : ∀ arg ∈ args, validateParam L.builtins tool name (argumentText L.builtins arg) =
      .ok (asRead L.builtins tool arg) := by
    intro arg harg
    obtain ⟨info, hschema, htype, henum⟩ := hvalid.declared arg harg
    exact validateParam_asRead hL hschema htype henum (hvalid.keys arg harg)
      (hread arg harg info hschema) name
  have hargs := extractAndValidateParams_of_forall (asRead L.builtins tool) hvalues hvalid.nodup
    hvalid.required
  rw [readBack, htext, Except.ok_bind, hmatch]
  simp only [hparams, hargs, Except.ok_bind]
  rfl

/-! ## Calls with one argument -/

/-- A tool with one parameter. -/
def oneParam (type : Text) (paramName : String) : Tool SampleFloat where
  type := functionType
  name := "edit".toList
  description := some "Edit a file.".toList
  parameters := some ⟨some ⟨[(paramName.toList, ⟨some type, none, none⟩)], by simp⟩, none⟩

/-- A call of a function. -/
def callOf (name : String) (args : List (String × Json SampleFloat)) : ToolCall SampleFloat where
  index := none
  id := some "call_1".toList
  type := some functionType
  function := some ⟨name.toList, some (.obj args)⟩

/-- A value of the type of the parameter. -/
lemma validFor_oneParam {type : Text} (paramName : String) {value : Json SampleFloat}
    (htype : HasSchemaType ⟨some type, none, none⟩ value) (hkeys : distinctKeys value)
    (hwords : ∀ s ∈ texts value, ¬ parameterStart <:+: s.toList ∧ ¬ parameterEnd <:+: s.toList ∧
      ¬ functionEnd <:+: s.toList) : ValidFor (oneParam type paramName) [(paramName, value)] where
  nodup := by simp
  declared arg harg := by
    obtain rfl := List.mem_singleton.mp harg
    exact ⟨_, by simp [oneParam, Tool.schema?, Dict.get?], htype, fun values h => by cases h⟩
  required param hparam := by cases hparam
  keys arg harg := by
    obtain rfl := List.mem_singleton.mp harg
    exact hkeys
  words arg harg := by
    obtain rfl := List.mem_singleton.mp harg
    exact hwords

/-- The schema of the parameter. -/
lemma schema?_oneParam {type : Text} {paramName : String} {info : Property SampleFloat}
    (h : (oneParam type paramName).schema? paramName.toList = some info) :
    info = ⟨some type, none, none⟩ := by
  have hsome : (oneParam type paramName).schema? paramName.toList =
      some ⟨some type, none, none⟩ := by simp [oneParam, Tool.schema?, Dict.get?]
  exact Option.some.inj (h.symm.trans hsome)

/-- A list with a number, and with a text that has a single quote. -/
def quotedItems : Json SampleFloat := .arr [.float .half, .arr [.int (-1)], .str "it's <b>"]

/-- The call with the list is valid. -/
lemma validFor_quotedItems : ValidFor (oneParam arrayType "names") [("names", quotedItems)] :=
  validFor_oneParam "names" (.array _ rfl) (by decide) (by decide)

/-- The list is read back. -/
theorem readBack_quotedItems :
    readBack sampleLibrary.builtins (oneParam arrayType "names")
        (callOf "edit" [("names", quotedItems)]) =
      .ok (some ("edit".toList, [("names", quotedItems)])) := by
  have hname : PlainName "edit".toList := ⟨by decide, by decide⟩
  have hparam : ReadName "names".toList := ⟨⟨by decide, by decide⟩, by decide⟩
  have hreadable : Readable sampleLibrary ⟨some arrayType, none, none⟩ quotedItems :=
    ⟨rfl, fun _ => by decide, fun htype => absurd htype (by decide)⟩
  exact readBack_eq documented_sampleLibrary ⟨rfl, rfl, rfl⟩ validFor_quotedItems hname
    (fun arg harg => by
      obtain rfl := List.mem_singleton.mp harg
      exact hparam)
    (fun arg harg info hinfo => by
      obtain rfl := List.mem_singleton.mp harg
      obtain rfl := schema?_oneParam hinfo
      exact hreadable)

/-- The call with one argument is valid, and something else is read back. -/
def Altered (name : String) (type : Text) (arg : String × Json SampleFloat) : Prop :=
  ValidFor (oneParam type arg.1) [arg] ∧
    readBack sampleLibrary.builtins (oneParam type arg.1) (callOf name [arg]) ≠
      .ok (some (name.toList, [arg]))

/-- **Calls that are not read back**: those with a truth value or a number, with an empty name or a
name that the patterns do not read, with a text of several lines, and with a list that Python prints
between single quotes. -/
theorem not_readBack_examples :
    Altered "edit" booleanType ("force", .bool true) ∧
    Altered "edit" numberType ("ratio", .float .half) ∧
    Altered "" stringType ("path", .str "a.py") ∧
    Altered "a>b" stringType ("path", .str "a.py") ∧
    Altered "edit" stringType ("", .str "a.py") ∧
    Altered "edit" stringType ("a>b", .str "a.py") ∧
    Altered "edit" stringType ("x</function", .str "a.py") ∧
    Altered "edit" stringType ("text", .str "a\nb") ∧
    Altered "edit" arrayType ("names", .arr [.str "a.py"]) := by
  have hstring (paramName text : String) (hword : ∀ s ∈ texts (ν := SampleFloat) (.str text),
      ¬ parameterStart <:+: s.toList ∧ ¬ parameterEnd <:+: s.toList ∧
        ¬ functionEnd <:+: s.toList) :
      ValidFor (oneParam stringType paramName) [(paramName, .str text)] :=
    validFor_oneParam paramName (.string text (Or.inr rfl)) rfl hword
  refine ⟨⟨validFor_oneParam _ (.boolean _ rfl) rfl (by decide), ?_⟩,
    ⟨validFor_oneParam _ (.number _ rfl) rfl (by decide), ?_⟩,
    ⟨hstring _ _ (by decide), ?_⟩, ⟨hstring _ _ (by decide), ?_⟩, ⟨hstring _ _ (by decide), ?_⟩,
    ⟨hstring _ _ (by decide), ?_⟩, ⟨hstring _ _ (by decide), ?_⟩, ⟨hstring _ _ (by decide), ?_⟩,
    ⟨validFor_oneParam _ (.array _ rfl) rfl (by decide), ?_⟩⟩
  · show Except.ok (some (_, [("force", Json.str "True")])) ≠ _
    simp
  · show Except.ok (some (_, [("ratio", Json.str "0.5")])) ≠ _
    simp
  · show Except.ok none ≠ _
    simp
  · show Except.ok none ≠ _
    simp
  · show Except.ok (some (_, [])) ≠ _
    simp
  · show Except.error (notAllowed "a".toList _) ≠ _
    simp
  · show Except.ok (some (_, [])) ≠ _
    simp
  · show Except.ok (some (_, [("text", Json.str "\na\nb\n")])) ≠ _
    simp
  · show Except.error (notExpected "names".toList _) ≠ _
    simp

end ProRLAgent.FnCall
