import Mathlib.Data.List.Induction
import ProRLAgent.Jobs.Registry

set_option relaxedAutoImplicit false
set_option autoImplicit false

/-!
# Runs of registrations

The package registers its handlers one after the other and gives further names to some of them. A
run of such calls is told by two facts: the mapping that a name got last, and the handler that was
registered last under a name. Both lookups of the registry are compared with these.

For a name that does not start with `deepcoder` the two lookups agree with each other and with the
latest mapping. A name that starts so is always registered and is always looked up under
`deepcoder`, whatever is registered there and whatever the name is mapped to.

## Main definitions

* `ProRLAgent.RegistryOp`, `ProRLAgent.Registry.run` — the calls and their effect.
* `ProRLAgent.latestMapping`, `ProRLAgent.latestHandler` — what a run says about a name.
* `ProRLAgent.LookupsAgree` — the two lookups agree, with the functions of the mapped handler.

## Main results

* `ProRLAgent.lookupsAgree_iff` — when they do.
-/

namespace ProRLAgent

variable {φ : Type}

/-- A call of `register_agent_handler` or `add_name_mapping`. -/
inductive RegistryOp (φ : Type) where
  | register (handler : AgentHandler φ) (reasoning : Bool)
  | addName (name target : String) (reasoning : Bool)

namespace RegistryOp

/-- The effect of a call. -/
def apply (R : Registry φ) : RegistryOp φ → Registry φ
  | register handler reasoning => R.registerAgentHandler handler reasoning
  | addName name target reasoning => R.addNameMapping name target reasoning

/-- What the call maps a name to. -/
def mapping? (reasoning : Bool) (name : String) : RegistryOp φ → Option String
  | register handler r => if r = reasoning ∧ handler.name = name then some name else none
  | addName n target r => if r = reasoning ∧ n = name then some target else none

/-- The handler that the call registers under a name. -/
def handler? (reasoning : Bool) (name : String) : RegistryOp φ → Option (AgentHandler φ)
  | register handler r => if r = reasoning ∧ handler.name = name then some handler else none
  | addName _ _ _ => none

end RegistryOp

/-- The registry after a run, from the empty tables. -/
def Registry.run (ops : List (RegistryOp φ)) : Registry φ := ops.foldl RegistryOp.apply .empty

/-- The latest mapping of a name. -/
def latestMapping (reasoning : Bool) (name : String) (ops : List (RegistryOp φ)) : Option String :=
  ops.reverse.findSome? (RegistryOp.mapping? reasoning name)

/-- The handler that was registered last under a name. -/
def latestHandler (reasoning : Bool) (name : String) (ops : List (RegistryOp φ)) :
    Option (AgentHandler φ) :=
  ops.reverse.findSome? (RegistryOp.handler? reasoning name)

/-- Every target is the name of a handler that is already registered under the same flag. -/
def TargetsRegistered (ops : List (RegistryOp φ)) : Prop :=
  ∀ before name target reasoning after, ops = before ++ .addName name target reasoning :: after →
    (latestHandler reasoning target before).isSome = true

/-- **The lookups agree on a name**: it is registered exactly if all its functions are found, and
these are then the functions of the handler that its latest mapping points to. -/
def LookupsAgree (ops : List (RegistryOp φ)) (name : String) (reasoning : Bool) : Prop :=
  ((Registry.run ops).isRegisteredHandler name reasoning = true ↔
      ∀ type, (Registry.run ops).getRegisteredFunctions type name reasoning ≠ none) ∧
    ((Registry.run ops).isRegisteredHandler name reasoning = true →
      ∃ target handler, latestMapping reasoning name ops = some target ∧
        latestHandler reasoning target ops = some handler ∧
        ∀ type, (Registry.run ops).getRegisteredFunctions type name reasoning =
          some (handler.function type))

/-- The latest mapping of the name points to a handler with the functions that are registered under
`deepcoder`. -/
def MappedToDeepcoder (ops : List (RegistryOp φ)) (name : String) (reasoning : Bool) : Prop :=
  ∃ target handler deepcoder, latestMapping reasoning name ops = some target ∧
    latestHandler reasoning target ops = some handler ∧
    latestHandler reasoning "deepcoder" ops = some deepcoder ∧
    ∀ type, deepcoder.function type = handler.function type

section Runs

variable {ops : List (RegistryOp φ)} {op : RegistryOp φ} {reasoning : Bool} {name : String}

/-- The last call comes first. -/
lemma latestMapping_concat : latestMapping reasoning name (ops ++ [op]) =
    (op.mapping? reasoning name).or (latestMapping reasoning name ops) := by
  rw [latestMapping, List.reverse_append, List.reverse_singleton, List.singleton_append,
    List.findSome?_cons, latestMapping]
  cases op.mapping? reasoning name <;> rfl

/-- The last call comes first. -/
lemma latestHandler_concat : latestHandler reasoning name (ops ++ [op]) =
    (op.handler? reasoning name).or (latestHandler reasoning name ops) := by
  rw [latestHandler, List.reverse_append, List.reverse_singleton, List.singleton_append,
    List.findSome?_cons, latestHandler]
  cases op.handler? reasoning name <;> rfl

/-- One more call. -/
lemma Registry.run_concat : Registry.run (ops ++ [op]) = op.apply (Registry.run ops) := by
  rw [Registry.run, List.foldl_concat, Registry.run]

/-- **The mapping of a name** is the latest one. -/
lemma get?_nameMapping_run (ops : List (RegistryOp φ)) :
    ((Registry.run ops).nameMapping reasoning).get? name = latestMapping reasoning name ops := by
  induction ops using List.reverseRecOn with
  | nil => rfl
  | append_singleton ops op ih =>
    rw [Registry.run_concat, latestMapping_concat, ← ih]
    cases op with
    | register handler r =>
      by_cases hr : reasoning = r
      · by_cases hn : name = handler.name
        · simp [RegistryOp.apply, Registry.registerAgentHandler, RegistryOp.mapping?,
            Dict.get?_set, hr, hn]
        · simp [RegistryOp.apply, Registry.registerAgentHandler, RegistryOp.mapping?,
            Dict.get?_set, hr, hn, Ne.symm hn]
      · simp [RegistryOp.apply, Registry.registerAgentHandler, RegistryOp.mapping?, hr, Ne.symm hr]
    | addName n target r =>
      by_cases hr : reasoning = r
      · by_cases hn : name = n
        · simp [RegistryOp.apply, Registry.addNameMapping, RegistryOp.mapping?, Dict.get?_set, hr,
            hn]
        · simp [RegistryOp.apply, Registry.addNameMapping, RegistryOp.mapping?, Dict.get?_set, hr,
            hn, Ne.symm hn]
      · simp [RegistryOp.apply, Registry.addNameMapping, RegistryOp.mapping?, hr, Ne.symm hr]

/-- **The functions under a name** are those of the handler that was registered last. -/
lemma get?_registries_run (ops : List (RegistryOp φ)) (type : RegistryType) :
    ((Registry.run ops).registries reasoning type).get? name =
      (latestHandler reasoning name ops).map fun handler => handler.function type := by
  induction ops using List.reverseRecOn with
  | nil => rfl
  | append_singleton ops op ih =>
    rw [Registry.run_concat, latestHandler_concat]
    cases op with
    | register handler r =>
      by_cases hr : reasoning = r
      · by_cases hn : name = handler.name
        · simp [RegistryOp.apply, Registry.registerAgentHandler, RegistryOp.handler?,
            Dict.get?_set, hr, hn]
        · simpa [RegistryOp.apply, Registry.registerAgentHandler, RegistryOp.handler?,
            Dict.get?_set, hr, hn, Ne.symm hn] using hr ▸ ih
      · simpa [RegistryOp.apply, Registry.registerAgentHandler, RegistryOp.handler?, hr,
          Ne.symm hr] using ih
    | addName n target r => exact ih

/-- The calls before the last one have registered targets too. -/
lemma TargetsRegistered.of_concat (h : TargetsRegistered (ops ++ [op])) : TargetsRegistered ops :=
  fun before name target reasoning after hops =>
    h before name target reasoning (after ++ [op]) (by rw [hops]; simp)

/-- **The target of a mapping** is registered. -/
lemma TargetsRegistered.isSome_latestHandler (h : TargetsRegistered ops) {target : String}
    (htarget : latestMapping reasoning name ops = some target) :
    ∃ handler, latestHandler reasoning target ops = some handler := by
  induction ops using List.reverseRecOn with
  | nil => simp [latestMapping] at htarget
  | append_singleton ops op ih =>
    rw [latestHandler_concat]
    rw [latestMapping_concat] at htarget
    -- A handler of an earlier call is still there or has been replaced.
    have hkeep : (∃ handler, latestHandler reasoning target ops = some handler) →
        ∃ handler, (op.handler? reasoning target).or (latestHandler reasoning target ops) =
          some handler := by
      rintro ⟨handler, hhandler⟩
      rw [hhandler]
      cases op.handler? reasoning target with
      | none => exact ⟨handler, rfl⟩
      | some handler' => exact ⟨handler', rfl⟩
    cases hop : op.mapping? reasoning name with
    | none =>
      rw [hop, Option.none_or] at htarget
      exact hkeep (ih h.of_concat htarget)
    | some target' =>
      rw [hop, Option.some_or] at htarget
      obtain rfl := Option.some.inj htarget
      cases op with
      | register handler r =>
        rw [RegistryOp.mapping?] at hop
        split_ifs at hop with hc
        obtain rfl := Option.some.inj hop
        exact ⟨handler, by rw [RegistryOp.handler?, if_pos hc, Option.some_or]⟩
      | addName n target r =>
        rw [RegistryOp.mapping?] at hop
        split_ifs at hop with hc
        obtain rfl := Option.some.inj hop
        obtain ⟨rfl, -⟩ := hc
        exact hkeep (Option.isSome_iff_exists.mp (h ops n target r [] rfl))

/-- The functions of a name that does not start with `deepcoder`. -/
lemma getRegisteredFunctions_run (hname : Registry.isDeepcoder name = false) (type : RegistryType) :
    (Registry.run ops).getRegisteredFunctions type name reasoning =
      (latestMapping reasoning name ops).bind fun target =>
        (latestHandler reasoning target ops).map fun handler => handler.function type := by
  rw [Registry.getRegisteredFunctions, Registry.mappedName, hname, if_neg Bool.false_ne_true,
    get?_nameMapping_run]
  simp only [get?_registries_run]

/-- The functions of a name that starts with `deepcoder`. -/
lemma getRegisteredFunctions_deepcoder (hname : Registry.isDeepcoder name = true)
    (type : RegistryType) :
    (Registry.run ops).getRegisteredFunctions type name reasoning =
      (latestHandler reasoning "deepcoder" ops).map fun handler => handler.function type := by
  rw [Registry.getRegisteredFunctions, Registry.mappedName, hname, if_pos rfl, Option.bind_some,
    get?_registries_run]

/-- The lookups agree on a name that does not start with `deepcoder`. -/
lemma lookupsAgree_of_not_deepcoder (h : TargetsRegistered ops)
    (hname : Registry.isDeepcoder name = false) : LookupsAgree ops name reasoning := by
  have hreg : (Registry.run ops).isRegisteredHandler name reasoning =
      (latestMapping reasoning name ops).isSome := by
    rw [Registry.isRegisteredHandler, hname, Bool.false_or, get?_nameMapping_run]
  unfold LookupsAgree
  rw [hreg]
  simp only [getRegisteredFunctions_run hname]
  cases htarget : latestMapping reasoning name ops with
  | none => simp [show ∃ _ : RegistryType, True from ⟨.init, trivial⟩]
  | some target =>
    obtain ⟨handler, hhandler⟩ := h.isSome_latestHandler htarget
    refine ⟨by simp [hhandler], fun _ => ⟨target, handler, rfl, hhandler, fun type => ?_⟩⟩
    rw [Option.bind_some, hhandler, Option.map_some]

/-- The lookups agree on a name that starts with `deepcoder` exactly if it is mapped there. -/
lemma lookupsAgree_deepcoder_iff (hname : Registry.isDeepcoder name = true) :
    LookupsAgree ops name reasoning ↔ MappedToDeepcoder ops name reasoning := by
  have hreg : (Registry.run ops).isRegisteredHandler name reasoning = true := by
    rw [Registry.isRegisteredHandler, hname, Bool.true_or]
  simp only [LookupsAgree, hreg, true_iff, forall_const, getRegisteredFunctions_deepcoder hname]
  constructor
  · rintro ⟨-, target, handler, htarget, hhandler, hfunctions⟩
    obtain ⟨deepcoder, hdeepcoder, -⟩ := Option.map_eq_some_iff.mp (hfunctions .init)
    refine ⟨target, handler, deepcoder, htarget, hhandler, hdeepcoder, fun type => ?_⟩
    simpa [hdeepcoder] using hfunctions type
  · rintro ⟨target, handler, deepcoder, htarget, hhandler, hdeepcoder, hfunctions⟩
    simp only [hdeepcoder, Option.map_some, Option.some.injEq]
    exact ⟨fun type => by simp, target, handler, htarget, hhandler, hfunctions⟩

/-- **The lookups agree** on a name and a flag after every run of registrations exactly if the name
does not start with `deepcoder` or its latest mapping points to the handler registered there. -/
theorem lookupsAgree_iff (h : TargetsRegistered ops) :
    LookupsAgree ops name reasoning ↔
      (Registry.isDeepcoder name = true → MappedToDeepcoder ops name reasoning) := by
  cases hname : Registry.isDeepcoder name with
  | false => simp [lookupsAgree_of_not_deepcoder h hname]
  | true => simp [lookupsAgree_deepcoder_iff hname]

end Runs

/-- A handler whose functions tell its name. -/
def namedHandler (name : String) : AgentHandler String := ⟨name, fun _ => name⟩

/-- A data set of the handler for code. -/
def codeRun : List (RegistryOp String) :=
  [.register (namedHandler "deepcoder") false, .addName "codecontests" "deepcoder" false]

/-- The targets of a run of one registration and one further name. -/
lemma targetsRegistered_pair {handler : AgentHandler φ} {name : String} {reasoning : Bool} :
    TargetsRegistered [.register handler reasoning, .addName name handler.name reasoning] := by
  intro before n target r after hops
  match before, hops with
  | [], hops => simp at hops
  | [_], hops =>
    simp only [List.singleton_append, List.cons.injEq, RegistryOp.addName.injEq] at hops
    obtain ⟨rfl, ⟨rfl, rfl, rfl⟩, -⟩ := hops
    simp [latestHandler, RegistryOp.handler?]
  | _ :: _ :: before, hops => simp at hops

/-- The lookups agree on the data set. -/
theorem lookupsAgree_codeRun : TargetsRegistered codeRun ∧
    LookupsAgree codeRun "codecontests" false :=
  have h : TargetsRegistered codeRun := targetsRegistered_pair
  ⟨h, (lookupsAgree_iff h).mpr fun hname => absurd hname (by decide)⟩

/-- The handler for reasoning, with `deepcoder` as a further name. -/
def reasoningRun : List (RegistryOp String) :=
  [.register (namedHandler "prorl") true, .addName "deepcoder" "prorl" true]

/-- **A name that is registered without functions**: `deepcoder` is mapped to the handler for
reasoning and is looked up under its own name. -/
theorem not_lookupsAgree_reasoningRun : TargetsRegistered reasoningRun ∧
    (Registry.run reasoningRun).isRegisteredHandler "deepcoder" true = true ∧
    (Registry.run reasoningRun).getRegisteredFunctions .init "deepcoder" true = none ∧
    ¬ LookupsAgree reasoningRun "deepcoder" true := by
  have hreg : (Registry.run reasoningRun).isRegisteredHandler "deepcoder" true = true := by decide
  have hnone :
      (Registry.run reasoningRun).getRegisteredFunctions .init "deepcoder" true = none := by
    decide
  exact ⟨targetsRegistered_pair, hreg, hnone, fun h => h.1.mp hreg .init hnone⟩

end ProRLAgent
