import ProRLAgent.Basic
import ProRLAgent.Events.Values
import ProRLAgent.Lib.Dict
import ProRLAgent.Lib.Except
import ProRLAgent.Lib.PyText

set_option relaxedAutoImplicit false
set_option autoImplicit false

/-!
# Prompts for models without function calling

The converter of `openhands/llm/fn_call_converter.py` describes the tools in the system message and
shows an example around the first message of the user. Here are the texts that it puts in.

Texts are lists of characters. A parsed JSON value that is neither a text nor an integer is written
and compared by functions of Python's library, which are a parameter.

## Main definitions

* `ProRLAgent.FnCall.Tool` — the description of a tool with its parameters.
* `ProRLAgent.FnCall.Builtins` — functions of Python's library.
* `ProRLAgent.FnCall.systemPromptSuffix` — what is put behind a system message.
* `ProRLAgent.FnCall.getExampleForTools`, `ProRLAgent.FnCall.inContextLearningExampleSuffix` — what
  is put around the first message of the user.
-/

namespace ProRLAgent.FnCall

open Serialization (Json)

/-- A text. -/
abbrev Text := List Char

/-- The exceptions of the converter. A message is given up to the part in which the source prints
whole messages or sets. -/
inductive ConverterError where
  /-- `FunctionCallConversionError`. -/
  | conversion (message : String)
  /-- `FunctionCallValidationError`. -/
  | validation (message : String)
  /-- An exception of Python. -/
  | python (error : PyError)
  deriving DecidableEq, Repr

/-! ## Values -/

variable {ν : Type}

/-- The functions of Python's library on parsed JSON values. -/
structure Builtins (ν : Type) where
  /-- `str` of a floating-point number, a list or a dictionary. -/
  str : Json ν → Text
  /-- `json.loads`, if the text is JSON. -/
  loads : Text → Option (Json ν)
  /-- The operator `==` on values that are not both texts, and not both numbers or truth values. -/
  eq : Json ν → Json ν → Bool

/-- The library where only texts, integers, truth values and `None` are written and compared. -/
def noBuiltins : Builtins Empty := ⟨fun _ => [], fun _ => none, fun _ _ => false⟩

section Builtins

variable (B : Builtins ν)

/-- `str(value)`. -/
def strValue : Json ν → Text
  | .str s => s.toList
  | .int n => PyText.str n
  | .bool b => if b then "True".toList else "False".toList
  | .null => "None".toList
  | value => B.str value

/-- `value == other`. -/
def eqValue : Json ν → Json ν → Bool
  | .str s, .str t => s = t
  | .int m, .int n => m = n
  | .int m, .bool b => m = if b then 1 else 0
  | .bool b, .int m => m = if b then 1 else 0
  | .bool b, .bool c => b = c
  | .null, .null => true
  | value, other => B.eq value other

/-! ## Tools -/

/-- The type of a tool and of a call. -/
def functionType : Text := "function".toList

/-- The type of a parameter that is a text; a parameter without a type is one. -/
def stringType : Text := "string".toList

/-- The type of a parameter that is an integer. -/
def integerType : Text := "integer".toList

/-- The type of a parameter that is a list. -/
def arrayType : Text := "array".toList

/-- The schema of a parameter; `none` stands for an absent key. -/
structure Property (ν : Type) where
  type : Option Text
  description : Option Text
  enum : Option (List (Json ν))

/-- The schema of the parameters of a tool. -/
structure Parameters (ν : Type) where
  properties : Option (Dict Text (Property ν))
  required : Option (List Text)

/-- A tool, with the fields of its function. -/
structure Tool (ν : Type) where
  type : Text
  name : Text
  description : Option Text
  parameters : Option (Parameters ν)

/-- The line that describes a parameter. -/
def parameterLine (j : ℕ) (requiredParams : List Text) (paramName : Text) (info : Property ν) :
    Text :=
  let status := if paramName ∈ requiredParams then "required".toList else "optional".toList
  let paramType := info.type.getD stringType
  let desc := info.description.getD "No description provided".toList
  let enumValues := (info.enum.map fun values =>
    "\nAllowed values: [".toList ++
      ", ".toList.intercalate (values.map fun v => '`' :: strValue B v ++ "`".toList) ++
      "]".toList).getD []
  "  (".toList ++ PyText.str (j + 1 : ℕ) ++ ") ".toList ++ paramName ++ " (".toList ++ paramType ++
    ", ".toList ++ status ++ "): ".toList ++ desc ++ enumValues ++ "\n".toList

/-- The description of a tool. -/
def toolDescription (i : ℕ) (tool : Tool ν) : Except ConverterError Text := do
  if tool.type ≠ functionType then throw (.python .assertionError)
  let number := PyText.str (i + 1 : ℕ)
  match tool.description with
  | none => throw (.python (.keyError "description"))
  | some description =>
    let parameters := match tool.parameters with
      | some parameters =>
        let required := parameters.required.getD []
        let entries := (parameters.properties.map Dict.entries).getD []
        "Parameters:\n".toList ++ (entries.mapIdx fun j entry =>
          parameterLine B j required entry.1 entry.2).flatten
      | none => "No parameters are required for this function.\n".toList
    return (if 0 < i then "\n".toList else []) ++ "---- BEGIN FUNCTION #".toList ++ number ++
      ": ".toList ++ tool.name ++ " ----\n".toList ++ "Description: ".toList ++ description ++
      "\n".toList ++ parameters ++ "---- END FUNCTION #".toList ++ number ++ " ----\n".toList

/-- The function `convert_tools_to_description`. -/
def convertToolsToDescription (tools : List (Tool ν)) : Except ConverterError Text := do
  let descriptions ← tools.zipIdx.mapM fun entry => toolDescription B entry.2 entry.1
  return descriptions.flatten

end Builtins

/-! ## The texts -/

/-- The lines of a text. -/
def unlines (lines : List String) : Text := lines.flatMap fun line => (line ++ "\n").toList

/-- A line of a text. -/
lemma infix_unlines {line : String} {lines : List String} (h : line ∈ lines) :
    line.toList <:+: unlines lines := by
  have hline : line.toList <:+: (line ++ "\n").toList := by
    rw [String.toList_append]
    exact (List.prefix_append _ _).isInfix
  exact hline.trans (List.infix_of_mem_flatten (List.mem_map_of_mem h))

/-- The system prompt suffix up to the description of the tools. -/
def suffixStart : Text := unlines
  ["",
    "You have access to the following functions:",
    ""]

/-- The system prompt suffix behind the description of the tools. -/
def suffixEnd : Text := unlines
  ["",
    "",
    "If you choose to call a function ONLY reply in the following format with NO suffix:",
    "",
    "<function=example_function_name>",
    "<parameter=example_parameter_1>value_1</parameter>",
    "<parameter=example_parameter_2>",
    "This is the value for the second parameter",
    "that can span",
    "multiple lines",
    "</parameter>",
    "</function>",
    "",
    "<IMPORTANT>",
    "Reminder:",
    "- Function calls MUST follow the specified format, start with <function= and end with " ++
      "</function>",
    "- Required parameters MUST be specified",
    "- Only call one function at a time",
    "- You may provide optional reasoning for your function call in natural language " ++
      "BEFORE the function call, but NOT after.",
    "- If there is no function call available, answer the question like normal with your " ++
      "current knowledge and do not tell the user about function calls",
    "</IMPORTANT>"]

namespace ToolExamples

/-- The example `check_dir` of `execute_bash`. -/
def checkDir : Text := unlines
  ["",
    "ASSISTANT: Sure! Let me first check the current directory:",
    "<function=execute_bash>",
    "<parameter=command>",
    "pwd && ls",
    "</parameter>",
    "</function>",
    "",
    "USER: EXECUTION RESULT of [execute_bash]:",
    "/workspace",
    "openhands@runtime:~/workspace$"]

/-- The example `run_server` of `execute_bash`. -/
def runServer : Text := unlines
  ["",
    "ASSISTANT:",
    "Let me run the Python file for you:",
    "<function=execute_bash>",
    "<parameter=command>",
    "python3 app.py > server.log 2>&1 &",
    "</parameter>",
    "</function>",
    "",
    "USER: EXECUTION RESULT of [execute_bash]:",
    "[1] 121",
    "[1]+  Exit 1                  python3 app.py > server.log 2>&1",
    "",
    "ASSISTANT:",
    "Looks like the server was running with PID 121 then crashed. Let me check the server " ++
      "log:",
    "<function=execute_bash>",
    "<parameter=command>",
    "cat server.log",
    "</parameter>",
    "</function>",
    "",
    "USER: EXECUTION RESULT of [execute_bash]:",
    "Traceback (most recent call last):",
    "  File \"/workspace/app.py\", line 2, in <module>",
    "    from flask import Flask",
    "ModuleNotFoundError: No module named 'flask'",
    "",
    "ASSISTANT:",
    "Looks like the server crashed because the `flask` module is not installed. Let me " ++
      "install the `flask` module for you:",
    "<function=execute_bash>",
    "<parameter=command>",
    "pip3 install flask",
    "</parameter>",
    "</function>",
    "",
    "USER: EXECUTION RESULT of [execute_bash]:",
    "Defaulting to user installation because normal site-packages is not writeable",
    "Collecting flask",
    "  Using cached flask-3.0.3-py3-none-any.whl (101 kB)",
    "Collecting blinker>=1.6.2",
    "  Using cached blinker-1.7.0-py3-none-any.whl (13 kB)",
    "Collecting Werkzeug>=3.0.0",
    "  Using cached werkzeug-3.0.2-py3-none-any.whl (226 kB)",
    "Collecting click>=8.1.3",
    "  Using cached click-8.1.7-py3-none-any.whl (97 kB)",
    "Collecting itsdangerous>=2.1.2",
    "  Using cached itsdangerous-2.2.0-py3-none-any.whl (16 kB)",
    "Requirement already satisfied: Jinja2>=3.1.2 in " ++
      "/home/openhands/.local/lib/python3.10/site-packages (from flask) (3.1.3)",
    "Requirement already satisfied: MarkupSafe>=2.0 in " ++
      "/home/openhands/.local/lib/python3.10/site-packages (from Jinja2>=3.1.2->flask) (2.1.5)",
    "Installing collected packages: Werkzeug, itsdangerous, click, blinker, flask",
    "Successfully installed Werkzeug-3.0.2 blinker-1.7.0 click-8.1.7 flask-3.0.3 " ++
      "itsdangerous-2.2.0",
    "",
    "ASSISTANT:",
    "The `flask` module is installed successfully. Let me run the Python file again:",
    "<function=execute_bash>",
    "<parameter=command>",
    "python3 app.py > server.log 2>&1 &",
    "</parameter>",
    "</function>",
    "",
    "USER: EXECUTION RESULT of [execute_bash]:",
    "[1] 124",
    "",
    "ASSISTANT:",
    "Let me check the server log again:",
    "<function=execute_bash>",
    "<parameter=command>",
    "cat server.log",
    "</parameter>",
    "</function>",
    "",
    "USER: EXECUTION RESULT of [execute_bash]:",
    "* Serving Flask app 'app'",
    " * Debug mode: off",
    "WARNING: This is a development server. Do not use it in a production deployment. Use " ++
      "a production WSGI server instead.",
    " * Running on http://127.0.0.1:5000",
    "Press CTRL+C to quit",
    "",
    "ASSISTANT:",
    "The server is running on port 5000 with PID 124. You can access the list of numbers " ++
      "by visiting http://127.0.0.1:5000. If you have any further questions, feel free to ask!"]

/-- The example `kill_server` of `execute_bash`. -/
def killServer : Text := unlines
  ["",
    "USER: Now kill the server, make it display the numbers in a table format.",
    "",
    "ASSISTANT:",
    "Sure! Let me stop the server first:",
    "<function=execute_bash>",
    "<parameter=command>",
    "kill 124",
    "</parameter>",
    "</function>",
    "",
    "USER: EXECUTION RESULT of [execute_bash]:",
    "[1]+  Terminated              python3 app.py > server.log 2>&1"]

/-- The example `run_server_again` of `execute_bash`. -/
def runServerAgain : Text := unlines
  ["",
    "ASSISTANT:",
    "Running the updated file:",
    "<function=execute_bash>",
    "<parameter=command>",
    "python3 app.py > server.log 2>&1 &",
    "</parameter>",
    "</function>",
    "",
    "USER: EXECUTION RESULT of [execute_bash]:",
    "[1] 126",
    "",
    "ASSISTANT:",
    "The server is running on port 5000 with PID 126. You can access the list of numbers " ++
      "in a table format by visiting http://127.0.0.1:5000."]

/-- The example `create_file` of `str_replace_editor`. -/
def createFile : Text := unlines
  ["",
    "ASSISTANT:",
    "There is no `app.py` file in the current directory. Let me create a Python file " ++
      "`app.py`:",
    "<function=str_replace_editor>",
    "<parameter=command>create</parameter>",
    "<parameter=path>/workspace/app.py</parameter>",
    "<parameter=file_text>",
    "from flask import Flask",
    "app = Flask(__name__)",
    "",
    "@app.route('/')",
    "def index():",
    "    numbers = list(range(1, 11))",
    "    return str(numbers)",
    "",
    "if __name__ == '__main__':",
    "    app.run(port=5000)",
    "</parameter>",
    "</function>",
    "",
    "USER: EXECUTION RESULT of [str_replace_editor]:",
    "File created successfully at: /workspace/app.py"]

/-- The example `edit_file` of `str_replace_editor`. -/
def editFile : Text := unlines
  ["",
    "ASSISTANT:",
    "Now let me display the numbers in a table format:",
    "<function=str_replace_editor>",
    "<parameter=command>str_replace</parameter>",
    "<parameter=path>/workspace/app.py</parameter>",
    "<parameter=old_str>return str(numbers)</parameter>",
    "<parameter=new_str>return '<table>' + ''.join([f'<tr><td>\x7bi\x7d</td></tr>' for i " ++
      "in numbers]) + '</table>'</parameter>",
    "</function>",
    "",
    "USER: EXECUTION RESULT of [str_replace_editor]:",
    "The file /workspace/app.py has been edited. Here's the result of running `cat -n` on " ++
      "a snippet of /workspace/app.py:",
    "     3",
    "     4  @app.route('/')",
    "     5  def index():",
    "     6      numbers = list(range(1, 11))",
    "     7      return '<table>' + ''.join([f'<tr><td>\x7bi\x7d</td></tr>' for i in " ++
      "numbers]) + '</table>'",
    "     8",
    "     9  if __name__ == '__main__':",
    "    10      app.run(port=5000)",
    "Review the changes and make sure they are as expected. Edit the file again if necessary.",
    ""]

/-- The example `view_page` of `browser`. -/
def viewPage : Text := unlines
  ["",
    "ASSISTANT:",
    "Let me check how the page looks in the browser:",
    "<function=browser>",
    "<parameter=code>",
    "goto('http://127.0.0.1:5000')",
    "noop(1000)  # Wait for page to load",
    "</parameter>",
    "</function>",
    "",
    "USER: EXECUTION RESULT of [browser]:",
    "[Browser shows the numbers in a table format]"]

/-- The example `task_completed` of `finish`. -/
def taskCompleted : Text := unlines
  ["",
    "ASSISTANT:",
    "The server is running on port 5000 with PID 126. You can access the list of numbers " ++
      "in a table format by visiting http://127.0.0.1:5000. Let me know if you have any " ++
      "further requests!",
    "<function=finish>",
    "<parameter=message>The task has been completed. The web server is running and " ++
      "displaying numbers 1-10 in a table format at http://127.0.0.1:5000.</parameter>",
    "<parameter=task_completed>true</parameter>",
    "</function>"]

end ToolExamples

/-- The start of the running example. -/
def exampleStart : Text := unlines
  ["Here's a running example of how to perform a task with the provided tools.",
    "",
    "--------------------- START OF EXAMPLE ---------------------",
    "",
    "USER: Create a list of numbers from 1 to 10, and display them in a web page at port " ++
      "5000.",
    ""]

/-- The end of the running example. -/
def exampleEnd : Text := unlines
  ["",
    "--------------------- END OF EXAMPLE ---------------------",
    "",
    "Do NOT assume the environment is the same as in the example above.",
    "",
    "--------------------- NEW TASK DESCRIPTION ---------------------"]

/-- The constant `IN_CONTEXT_LEARNING_EXAMPLE_SUFFIX`. -/
def inContextLearningExampleSuffix : Text := unlines
  ["",
    "--------------------- END OF NEW TASK DESCRIPTION ---------------------",
    "",
    "PLEASE follow the format strictly! PLEASE EMIT ONE AND ONLY ONE FUNCTION CALL PER " ++
      "MESSAGE."]

/-- The constant `SYSTEM_PROMPT_SUFFIX_TEMPLATE` with a description of the tools. -/
def systemPromptSuffixTemplate (description : Text) : Text :=
  suffixStart ++ description ++ suffixEnd

/-- The suffix of system messages. -/
def systemPromptSuffix (B : Builtins ν) (tools : List (Tool ν)) : Except ConverterError Text :=
  systemPromptSuffixTemplate <$> convertToolsToDescription B tools

/-- A tool of the name is available. -/
def hasTool (tools : List (Tool ν)) (name : String) : Bool :=
  tools.any fun tool => tool.type = functionType ∧ tool.name = name.toList

open ToolExamples in
/-- The function `get_example_for_tools`: the running example with the parts of the available
tools. -/
def getExampleForTools (tools : List (Tool ν)) : Text :=
  let bash (text : Text) := if hasTool tools "execute_bash" then text else []
  let editor (text : Text) := if hasTool tools "str_replace_editor" then text else []
  let browser (text : Text) := if hasTool tools "browser" then text else []
  let finish (text : Text) := if hasTool tools "finish" then text else []
  if hasTool tools "execute_bash" ∨ hasTool tools "str_replace_editor" ∨
      hasTool tools "browser" ∨ hasTool tools "finish" then
    PyText.lstrip (exampleStart ++ bash checkDir ++ editor createFile ++ bash runServer ++
      browser viewPage ++ bash killServer ++ editor editFile ++ bash runServerAgain ++
      finish taskCompleted ++ exampleEnd)
  else []

/-- There is an example for the tool that runs commands. -/
lemma getExampleForTools_ne_nil {tools : List (Tool ν)} (h : hasTool tools "execute_bash") :
    getExampleForTools tools ≠ [] := by
  have hletter : 'H' ∈ exampleStart := by
    rw [exampleStart, unlines, List.flatMap_cons, String.toList_append, String.toList_ofList]
    exact List.mem_cons_self
  rw [getExampleForTools, if_pos (.inl h)]
  have hspace : PyText.isSpace 'H' = false := by decide
  refine PyText.lstrip_ne_nil ?_ hspace
  simp only [List.mem_append, hletter, true_or]

/-- Tools that the description accepts: functions with a description. -/
def Described (tools : List (Tool ν)) : Prop :=
  ∀ tool ∈ tools, tool.type = functionType ∧ tool.description ≠ none

/-- A function with a description is described. -/
lemma exists_toolDescription (B : Builtins ν) (i : ℕ) {tool : Tool ν}
    (h : tool.type = functionType ∧ tool.description ≠ none) :
    ∃ text, toolDescription B i tool = .ok text := by
  obtain ⟨htype, hdescription⟩ := h
  obtain ⟨description, hsome⟩ := Option.ne_none_iff_exists'.mp hdescription
  simp only [toolDescription, htype, hsome]
  exact ⟨_, rfl⟩

/-- Tools with descriptions have a suffix. -/
lemma Described.exists_suffix {tools : List (Tool ν)} (B : Builtins ν) (h : Described tools) :
    ∃ suffix, systemPromptSuffix B tools = .ok suffix := by
  obtain ⟨descriptions, hdescriptions⟩ : ∃ descriptions,
      tools.zipIdx.mapM (fun entry => toolDescription B entry.2 entry.1) = .ok descriptions := by
    have hall : ∀ entry ∈ tools.zipIdx,
        ∃ text, toolDescription B entry.2 entry.1 = .ok text ∧ True := fun entry hentry => by
      simpa using exists_toolDescription B entry.2 (h _ (List.fst_mem_of_mem_zipIdx hentry))
    obtain ⟨descriptions, hdescriptions, -⟩ := Except.exists_mapM_eq_ok hall
    exact ⟨descriptions, hdescriptions⟩
  refine ⟨systemPromptSuffixTemplate descriptions.flatten, ?_⟩
  rw [systemPromptSuffix, convertToolsToDescription, hdescriptions]
  rfl

end ProRLAgent.FnCall
