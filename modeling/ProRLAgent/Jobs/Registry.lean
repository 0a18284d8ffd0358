import ProRLAgent.Basic
import ProRLAgent.Lib.Dict

set_option relaxedAutoImplicit false
set_option autoImplicit false

/-!
# The registry of the agent handlers

`registry.py` has two tables of functions, one for ordinary and one for reasoning jobs. A table has
a dictionary per kind of function, from the names of handlers to the functions, and a mapping from
the names of data sources to those of handlers. Every data source whose name starts with
`deepcoder` belongs to the handler of that name.

## Main definitions

* `ProRLAgent.Registry` — the two tables.
* `ProRLAgent.Registry.getRegisteredFunctions`, `ProRLAgent.Registry.isRegisteredHandler` — the
  lookups.
* `ProRLAgent.Registry.registerAgentHandler`, `ProRLAgent.Registry.addNameMapping` — the updates.
-/

namespace ProRLAgent

/-- The kinds of functions of a handler. -/
inductive RegistryType where
  | init
  | run
  | eval
  | initException
  | runException
  | evalException
  | finalResult
  deriving DecidableEq, Repr

/-- The two tables, by the `reasoning` flag. A function is a value of `φ`. -/
structure Registry (φ : Type) where
  /-- `_name_mapping` and `_name_mapping_reasoning`. -/
  nameMapping : Bool → Dict String String
  /-- `_registries` and `_registries_reasoning`. -/
  registries : Bool → RegistryType → Dict String φ

/-- A handler: its name and its functions. -/
structure AgentHandler (φ : Type) where
  name : String
  function : RegistryType → φ

namespace Registry

variable {φ : Type}

/-- The tables before the first registration. -/
def empty : Registry φ := ⟨fun _ => .empty, fun _ _ => .empty⟩

/-- `name[:9] == 'deepcoder'`. -/
def isDeepcoder (name : String) : Bool := name.toList.take 9 = "deepcoder".toList

/-- The handler that a data source belongs to. -/
def mappedName (R : Registry φ) (name : String) (reasoning : Bool) : Option String :=
  if isDeepcoder name then some "deepcoder" else (R.nameMapping reasoning).get? name

/-- **The function of a kind for a data source** (`get_registered_functions`). -/
def getRegisteredFunctions (R : Registry φ) (type : RegistryType) (name : String)
    (reasoning : Bool := false) : Option φ :=
  (R.mappedName name reasoning).bind fun mapped => (R.registries reasoning type).get? mapped

/-- **Whether a data source has a handler** (`is_registered_handler`). -/
def isRegisteredHandler (R : Registry φ) (name : String) (reasoning : Bool := false) : Bool :=
  isDeepcoder name || ((R.nameMapping reasoning).get? name).isSome

/-- `register_agent_handler`. -/
def registerAgentHandler (R : Registry φ) (handler : AgentHandler φ) (reasoning : Bool := false) :
    Registry φ where
  nameMapping := fun r =>
    if r = reasoning then (R.nameMapping r).set handler.name handler.name else R.nameMapping r
  registries := fun r type =>
    if r = reasoning then (R.registries r type).set handler.name (handler.function type)
    else R.registries r type

/-- `add_name_mapping`. -/
def addNameMapping (R : Registry φ) (name mappedName : String) (reasoning : Bool := false) :
    Registry φ :=
  { R with
    nameMapping := fun r =>
      if r = reasoning then (R.nameMapping r).set name mappedName else R.nameMapping r }

end Registry

end ProRLAgent
