import ProRLAgent.Jobs.FinalResult

set_option relaxedAutoImplicit false
set_option autoImplicit false

/-!
# The schema of the final result

The rollout collector reads five keys of the dictionary that `final_result` returns. What a job
leaves behind comes from the handlers: a dictionary of the run, a report of the evaluation, and the
dictionary of an exception. This module writes these dictionaries down as the handlers build them
and says when the final result has all five keys.

## Main definitions

* `ProRLAgent.ShippedRun`, `ProRLAgent.ShippedEval`, `ProRLAgent.ShippedResults` — the dictionaries
  of the handlers.
* `ProRLAgent.ResultSchema` — what the collector relies on.

## Main results

* `ProRLAgent.determineFilter_eq_ok` — what the filter flag says.
* `ProRLAgent.resultSchema_iff` — the final result has the schema exactly if the job left a result
  or run results behind.
-/

namespace ProRLAgent

/-! ## The dictionaries of the handlers -/

/-- What `process_messages_from_agent_state` returns for the runs of the handlers. -/
structure RunMessages where
  messages : List String
  tools : List String
  endProperly : Bool

/-- The entries of `**run_results`. -/
def RunMessages.entries (m : RunMessages) : List (String × PyVal) :=
  [("messages", .list m.messages), ("tools", .list m.tools), ("end_properly", .bool m.endProperly)]

/-- `success`, `error` and `finish` of a run that ended in an agent state. -/
def stateEntries (lastError : String) (finish : Bool) : List (String × PyVal) :=
  [("success", .bool (lastError = "")),
    ("error", if lastError = "" then .none else .str lastError), ("finish", .bool finish)]

/-- A run that ended in an agent state: these entries, and those of `run_results`, between the
entries of one handler. -/
def stateRunResults (before after : List (String × PyVal)) (lastError : String) (finish : Bool)
    (m : RunMessages) : ResultDict :=
  Dict.ofEntries (before ++ stateEntries lastError finish ++ m.entries ++ after)

/-- `run_agent` of `math_utils.py`. -/
def mathRunResults : String → Bool → RunMessages → ResultDict := stateRunResults [] []

/-- `run_agent` of `stem_utils.py`. -/
def stemRunResults : String → Bool → RunMessages → ResultDict := stateRunResults [] []

/-- `run_agent` of `code_utils.py`. -/
def codeRunResults (codeOutput : String) : String → Bool → RunMessages → ResultDict :=
  stateRunResults [] [("code_output", .str codeOutput)]

/-- `run_agent` of the `utils.py` of the SWE agent; the patch may be missing. -/
def sweRunResults (gitPatch : PyVal) : String → Bool → RunMessages → ResultDict :=
  stateRunResults [("git_patch", gitPatch)] []

/-- The error text that the GUI agent does not count as an error. -/
def maximumIterationText : String := "Agent reached maximum iteration in headless mode"

/-- `run_agent` of `gui_utils.py`: no `end_properly`, and the names of two animations if one of them
was made. -/
def guiRunResults (lastError : String) (finish : Bool) (messages tools : List String)
    (gifs : Option (PyVal × PyVal)) : ResultDict :=
  let failed := lastError ≠ "" ∧ ¬ maximumIterationText.toList <:+: lastError.toList
  Dict.ofEntries ([("success", .bool (decide (¬ failed))),
    ("error", if failed then .str lastError else .none), ("finish", .bool finish),
    ("messages", .list messages), ("tools", .list tools)] ++
      gifs.toList.flatMap fun g => [("screenshots_gif", g.1), ("som_gif", g.2)])

/-- `run` of `prorl_handler.py`, when the server answered. -/
def prorlRunResults (m : RunMessages) : ResultDict :=
  Dict.ofEntries ([("success", .bool true), ("error", .none), ("finish", .bool true)] ++ m.entries)

/-- `run` of `prorl_handler.py`, after an exception with this text. -/
def prorlFailure (e : String) : ResultDict :=
  Dict.ofEntries [("success", .bool false), ("error", .str e), ("finish", .bool false),
    ("messages", .list []), ("tools", .list []), ("end_properly", .bool false)]

/-- The dictionaries that the runs of the handlers return. -/
inductive ShippedRun : ResultDict → Prop
  | math (lastError finish m) : ShippedRun (mathRunResults lastError finish m)
  | stem (lastError finish m) : ShippedRun (stemRunResults lastError finish m)
  | code (codeOutput lastError finish m) : ShippedRun (codeRunResults codeOutput lastError finish m)
  | swe (gitPatch lastError finish m) : ShippedRun (sweRunResults gitPatch lastError finish m)
  | gui (lastError finish messages tools gifs) :
      ShippedRun (guiRunResults lastError finish messages tools gifs)
  | prorl (m) : ShippedRun (prorlRunResults m)
  | prorlFailed (e) : ShippedRun (prorlFailure e)

/-- The entries of a `report` of the SWE evaluation. -/
def sweReport (emptyGeneration : Bool) (resolved : PyVal)
    (failedApplyPatch errorEval testTimeout : Bool) : ResultDict :=
  Dict.ofEntries [("empty_generation", .bool emptyGeneration), ("resolved", resolved),
    ("failed_apply_patch", .bool failedApplyPatch), ("error_eval", .bool errorEval),
    ("test_timeout", .bool testTimeout)]

/-- What the evaluations of the handlers return: the reward of a response, `resolved` alone, or a
report of the tests. -/
inductive ShippedEval : EvalReport → Prop
  | reward (resolved : Bool) (reward) :
      ShippedEval (.plain (.dict
        (Dict.ofEntries [("resolved", .bool resolved), ("reward", reward)])))
  | resolvedOnly (resolved : Bool) :
      ShippedEval (.plain (.dict (Dict.ofEntries [("resolved", .bool resolved)])))
  | report (emptyGeneration resolved failedApplyPatch errorEval testTimeout) :
      ShippedEval (.wrapped (.dict
        (sweReport emptyGeneration resolved failedApplyPatch errorEval testTimeout)))

/-- `len(v)`. -/
def PyVal.len : PyVal → Except PyError ℕ
  | .str s => .ok s.length
  | .list items => .ok items.length
  | .none => .error (.typeError "object of type 'NoneType' has no len()")
  | .bool _ => .error (.typeError "object of type 'bool' has no len()")
  | .int _ => .error (.typeError "object of type 'int' has no len()")

/-- `initialize_exception`, for an exception with text `e` and traceback `tb`. -/
def initializeException (job : JobDetails) (e tb : String) : ResultDict :=
  Dict.ofEntries [("instance_id", (job.inst.get? "instance_id").getD .none),
    ("trajectory_id", (job.inst.get? "trajectory_id").getD .none), ("git_patch", .none),
    ("success", .bool false), ("error", .str ("Error in init: " ++ e)), ("traceback", .str tb),
    ("finish", .bool false), ("messages", .list []), ("tools", .list []),
    ("end_properly", .bool false), ("resolved", .bool false), ("critical_error", .str "init")]

/-- The messages of `run_exception` and `eval_exception`: those of the run results, or the partial
result of the agent if there are none. -/
def phaseMessages (run : ResultDict) (p : Except PyError PartialResult) :
    Except PyError PartialResult := do
  let messages := (run.get? "messages").getD (.list [])
  let n ← messages.len
  if n = 0 then p else
    .ok ⟨messages, (run.get? "tools").getD (.list []),
      (run.get? "end_properly").getD (.bool true)⟩

/-- What `run_exception` and `eval_exception` share. -/
def phaseException (label criticalError : String) (job : JobDetails)
    (p : Except PyError PartialResult) (e tb : String) : Except PyError ResultDict := do
  let run := job.runResults.getD Dict.empty
  let m ← phaseMessages run p
  .ok (Dict.ofEntries [("instance_id", (job.inst.get? "instance_id").getD .none),
    ("trajectory_id", (job.inst.get? "trajectory_id").getD .none),
    ("git_patch", (run.get? "git_patch").getD .none),
    ("success", (run.get? "success").getD (.bool false)), ("error", .str (label ++ e)),
    ("traceback", .str tb), ("finish", (run.get? "finish").getD (.bool false)),
    ("messages", m.messages), ("tools", m.tools), ("end_properly", m.endProperly),
    ("resolved", .bool false), ("critical_error", .str criticalError)])

/-- `run_exception`. -/
def runException : JobDetails → Except PyError PartialResult → String → String →
    Except PyError ResultDict :=
  phaseException "Error in run agent: " "run"

/-- `eval_exception`. -/
def evalException : JobDetails → Except PyError PartialResult → String → String →
    Except PyError ResultDict :=
  phaseException "Error in eval: " "eval"

/-- The dictionaries that the exception functions of the handlers return. -/
inductive ShippedResults : ResultDict → Prop
  | init (job e tb) : ShippedResults (initializeException job e tb)
  | run (job p e tb) {result} (hrun : ∀ run, job.runResults = some run → ShippedRun run)
      (h : runException job p e tb = .ok result) : ShippedResults result
  | eval (job p e tb) {result} (hrun : ∀ run, job.runResults = some run → ShippedRun run)
      (h : evalException job p e tb = .ok result) : ShippedResults result

/-- What a run of the phases can leave behind: each part is absent or comes from a handler. -/
structure JobDetails.Shipped (job : JobDetails) : Prop where
  results : ∀ result, job.results = some result → ShippedResults result
  run : ∀ run, job.runResults = some run → ShippedRun run
  eval : job.evalResults = .value .none ∨
    ∃ report, ShippedEval report ∧ job.evalResults = report.unwrap

/-! ## What the collector relies on -/

/-- The keys that the collector reads. -/
def collectorKeys : List String := ["resolved", "finish", "messages", "critical_error", "filter"]

/-- The `error` of the dictionary mentions the text. -/
def ErrorMentions (result : ResultDict) (text : String) : Prop :=
  ∃ error, result.get? "error" = some error ∧ error.contains text = .ok true

/-- The trajectory is to be filtered out: there is a critical error, or the run was no success and
its error is not one to train on. -/
def ToFilter (result : ResultDict) : Prop :=
  (result.get? "critical_error").getD .none ≠ .none ∨
    ((result.get? "success").getD .none).truthy = false ∧
      ¬ ErrorMentions result "AgentToolCallError"

/-- **The schema of a final result** of the job. -/
structure ResultSchema (job : JobDetails) (result : ResultDict) : Prop where
  keys : ∀ key ∈ collectorKeys, (result.get? key).isSome
  timeout : job.timeoutError = true → result.get? "critical_error" = some (.str "timeout")
  filter : ∃ b, result.get? "filter" = some (.bool b) ∧ (b = true ↔ ToFilter result)

/-! ## The parts -/

/-- What the final result takes from a dictionary of a run. -/
structure RunSchema (run : ResultDict) : Prop where
  finish : (run.get? "finish").isSome
  messages : ∃ items, run.get? "messages" = some (.list items)
  error : errorReadable run

/-- A run that ended in an agent state has its keys, whatever else its handler adds after them. -/
lemma runSchema_stateRunResults (before : List (String × PyVal)) {after : List (String × PyVal)}
    (lastError : String) (finish : Bool) (m : RunMessages)
    (hafter : ∀ e ∈ after, e.1 ∉ ["success", "error", "finish", "messages"]) :
    RunSchema (stateRunResults before after lastError finish m) := by
  have hget : ∀ k ∈ ["success", "error", "finish", "messages"],
      (stateRunResults before after lastError finish m).get? k =
        (((m.entries.reverse ++ (stateEntries lastError finish).reverse ++ before.reverse).find?
          fun e => e.1 = k).map Prod.snd) := by
    intro k hk
    have hnone : (after.reverse.find? fun e => e.1 = k) = none := by
      rw [List.find?_eq_none]
      intro e he
      have hne := hafter e (List.mem_reverse.mp he)
      simpa using fun h : e.1 = k => hne (h ▸ hk)
    rw [stateRunResults, Dict.get?_ofEntries]
    simp [List.find?_append, hnone]
  refine ⟨?_, ?_, ?_⟩
  · rw [hget _ (by simp)]
    simp [RunMessages.entries, stateEntries]
  · rw [hget _ (by simp)]
    simp [RunMessages.entries]
  · rw [errorReadable, hget _ (by simp), hget _ (by simp)]
    by_cases herror : lastError = ""
    · simp [RunMessages.entries, stateEntries, herror, PyVal.truthy]
    · simp [RunMessages.entries, stateEntries, herror, PyVal.isContainer]

/-- The dictionary of every run has its keys. -/
lemma ShippedRun.schema {run : ResultDict} (h : ShippedRun run) : RunSchema run := by
  cases h with
  | math lastError finish m => exact runSchema_stateRunResults [] lastError finish m (by simp)
  | stem lastError finish m => exact runSchema_stateRunResults [] lastError finish m (by simp)
  | code codeOutput lastError finish m =>
    exact runSchema_stateRunResults [] lastError finish m (by simp)
  | swe gitPatch lastError finish m =>
    exact runSchema_stateRunResults _ lastError finish m (by simp)
  | gui lastError finish messages tools gifs =>
    have hget : ∀ k ∈ ["success", "error", "finish", "messages"],
        (guiRunResults lastError finish messages tools gifs).get? k =
          (guiRunResults lastError finish messages tools none).get? k := by
      intro k hk
      simp only [List.mem_cons, List.not_mem_nil, or_false] at hk
      cases gifs with
      | none => rfl
      | some g =>
        rw [guiRunResults, guiRunResults, Dict.get?_ofEntries, Dict.get?_ofEntries]
        rcases hk with rfl | rfl | rfl | rfl <;> simp
    refine ⟨?_, ?_, ?_⟩
    · rw [hget _ (by simp)]
      simp [guiRunResults, Dict.get?_ofEntries]
    · rw [hget _ (by simp)]
      simp [guiRunResults, Dict.get?_ofEntries]
    · rw [errorReadable, hget _ (by simp), hget _ (by simp)]
      by_cases hfailed : lastError ≠ "" ∧ ¬ maximumIterationText.toList <:+: lastError.toList
      · simp [guiRunResults, Dict.get?_ofEntries, hfailed, PyVal.isContainer]
      · simp only [guiRunResults, Dict.get?_ofEntries, hfailed]
        simp [PyVal.truthy]
  | prorl m =>
    refine ⟨?_, ?_, ?_⟩
    · simp [prorlRunResults, Dict.get?_ofEntries, RunMessages.entries]
    · simp [prorlRunResults, Dict.get?_ofEntries, RunMessages.entries]
    · simp [errorReadable, prorlRunResults, Dict.get?_ofEntries, RunMessages.entries, PyVal.truthy]
  | prorlFailed e =>
    refine ⟨?_, ?_, ?_⟩
    · simp [prorlFailure, Dict.get?_ofEntries]
    · simp [prorlFailure, Dict.get?_ofEntries]
    · simp [errorReadable, prorlFailure, Dict.get?_ofEntries, PyVal.isContainer]

/-- Every report of an evaluation says whether the job is resolved. -/
lemma ShippedEval.hasResolved {report : EvalReport} (h : ShippedEval report) :
    report.unwrap.hasResolved := by
  cases h with
  | reward resolved reward =>
    simp [EvalReport.unwrap, EvalResults.hasResolved, Dict.get?_ofEntries]
  | resolvedOnly resolved =>
    simp [EvalReport.unwrap, EvalResults.hasResolved, Dict.get?_ofEntries]
  | report emptyGeneration resolved failedApplyPatch errorEval testTimeout =>
    simp [EvalReport.unwrap, EvalResults.hasResolved, sweReport, Dict.get?_ofEntries]

/-- What the final result takes from the dictionary of an exception. -/
structure ResultsSchema (results : ResultDict) : Prop where
  resolved : (results.get? "resolved").isSome
  finish : (results.get? "finish").isSome
  messages : (results.get? "messages").isSome
  critical : ∃ phase, results.get? "critical_error" = some (.str phase)

/-- The dictionary of an exception in a phase has its keys. -/
lemma resultsSchema_phaseException {label criticalError : String} {job : JobDetails}
    {p : Except PyError PartialResult} {e tb : String} {results : ResultDict}
    (h : phaseException label criticalError job p e tb = .ok results) : ResultsSchema results := by
  obtain ⟨m, -, h⟩ := Except.bind_eq_ok.mp h
  obtain rfl := Except.ok.inj h
  refine ⟨?_, ?_, ?_, ?_⟩ <;> simp [Dict.get?_ofEntries]

/-- The dictionary of every exception has its keys. -/
lemma ShippedResults.schema {results : ResultDict} (h : ShippedResults results) :
    ResultsSchema results := by
  cases h with
  | init job e tb =>
    refine ⟨?_, ?_, ?_, ?_⟩ <;> simp [initializeException, Dict.get?_ofEntries]
  | run job p e tb hrun h => exact resultsSchema_phaseException h
  | eval job p e tb hrun h => exact resultsSchema_phaseException h

/-! ## The final result -/

variable {job : JobDetails} {p : Except PyError PartialResult} {result : ResultDict}

/-- **The filter flag** is set exactly if the trajectory is to be filtered out. -/
theorem determineFilter_eq_ok {b : Bool} (h : determineFilter result = .ok b) :
    b = true ↔ ToFilter result := by
  unfold determineFilter at h
  unfold ToFilter
  split at h
  · next hcrit =>
    obtain rfl := Except.ok.inj h
    exact iff_of_true rfl (.inl hcrit)
  · next hcrit =>
    split at h
    · next hsuccess =>
      obtain rfl := Except.ok.inj h
      simp [hsuccess, not_not.mp hcrit]
    · next hsuccess =>
      rw [Bool.not_eq_true] at hsuccess
      split at h
      · next error herror =>
        obtain ⟨mentioned, hmentioned, h⟩ := Except.bind_eq_ok.mp h
        obtain rfl := Except.ok.inj h
        have hiff : ErrorMentions result "AgentToolCallError" ↔ mentioned = true := by
          constructor
          · rintro ⟨error', herror', hcontains⟩
            obtain rfl := Option.some.inj (herror.symm.trans herror')
            exact Except.ok.inj (hmentioned.symm.trans hcontains)
          · rintro rfl
            exact ⟨error, herror, hmentioned⟩
        rw [hiff]
        simp [not_not.mp hcrit, hsuccess]
      · next hnone =>
        obtain rfl := Except.ok.inj h
        refine iff_of_true rfl (.inr ⟨hsuccess, ?_⟩)
        rintro ⟨error, herror, -⟩
        rw [hnone] at herror
        cases herror

/-- The filter flag depends on three keys only. -/
lemma toFilter_congr {result' : ResultDict}
    (h : ∀ k ∈ ["critical_error", "success", "error"], result'.get? k = result.get? k) :
    ToFilter result' ↔ ToFilter result := by
  rw [ToFilter, ToFilter, ErrorMentions, ErrorMentions, h _ (by simp), h _ (by simp),
    h _ (by simp)]

/-- **A final result** is the dictionary it starts from, the identifiers and the filter flag. -/
lemma finalResult_spec (h : finalResult job p = .ok result) :
    ∃ base, job.baseResult p = .ok base ∧
      (∀ k, k ≠ "instance_id" → k ≠ "trajectory_id" → k ≠ "filter" →
        result.get? k = base.get? k) ∧
      ∃ b, result.get? "filter" = some (.bool b) ∧ (b = true ↔ ToFilter result) := by
  obtain ⟨base, hbase, h⟩ := Except.bind_eq_ok.mp h
  obtain ⟨b, hb, h⟩ := Except.bind_eq_ok.mp h
  obtain rfl := Except.ok.inj h
  refine ⟨base, hbase, fun k hi ht hf => ?_, b, ?_, ?_⟩
  · rw [Dict.get?_set, if_neg hf, get?_fillIn_ids _ _ hi ht]
  · rw [Dict.get?_set, if_pos rfl]
  · rw [determineFilter_eq_ok hb]
    refine (toFilter_congr fun k hk => ?_).symm
    have hne : k ≠ "filter" := by
      rintro rfl
      simp at hk
    rw [Dict.get?_set, if_neg hne]

/-- The dictionary that a final result starts from, for a job that left results or run results. -/
lemma JobDetails.Shipped.exists_base (hjob : job.Shipped) (p : Except PyError PartialResult)
    (hleft : job.results.isSome ∨ job.runResults.isSome) :
    job.Readable p ∧ ∀ base, job.baseResult p = .ok base →
      ∀ key ∈ ["resolved", "finish", "messages", "critical_error"], (base.get? key).isSome := by
  have heval : job.evalResults.hasResolved := by
    obtain h | ⟨report, hreport, h⟩ := hjob.eval
    · rw [h]
      rfl
    · rw [h]
      exact hreport.hasResolved
  unfold JobDetails.Readable JobDetails.baseResult
  cases hres : job.results with
  | some results =>
    obtain ⟨hresolved, hfinish, hmessages, phase, hcritical⟩ := (hjob.results _ hres).schema
    refine ⟨.inr (.inl (by simp [hasCriticalError, hcritical])), fun base hbase key hkey => ?_⟩
    obtain rfl := Except.ok.inj hbase
    have hkeys : (results.get? key).isSome := by
      simp only [List.mem_cons, List.not_mem_nil, or_false] at hkey
      rcases hkey with rfl | rfl | rfl | rfl
      · exact hresolved
      · exact hfinish
      · exact hmessages
      · rw [hcritical]
        rfl
    split
    · rw [Dict.get?_set]
      split
      · rfl
      · exact hkeys
    · exact hkeys
  | none =>
    cases hrun : job.runResults with
    | none => simp [hres, hrun] at hleft
    | some run =>
      obtain ⟨hfinish, ⟨items, hmessages⟩, herror⟩ := (hjob.run _ hrun).schema
      refine ⟨⟨heval, .inr herror⟩, fun base hbase key hkey => ?_⟩
      obtain ⟨resolved, -, hbase⟩ := Except.bind_eq_ok.mp hbase
      obtain rfl := Except.ok.inj hbase
      simp only [List.mem_cons, List.not_mem_nil, or_false] at hkey
      rcases hkey with rfl | rfl | rfl | rfl <;> simp [Dict.get?_set, hfinish, hmessages]

/-- Without results and run results, the final result does not say whether the run finished. -/
lemma get?_finish_eq_none (hres : job.results = none) (hrun : job.runResults = none)
    (h : finalResult job p = .ok result) : result.get? "finish" = none := by
  obtain ⟨base, hbase, hkeep, -⟩ := finalResult_spec h
  rw [hkeep _ (by decide) (by decide) (by decide)]
  unfold JobDetails.baseResult at hbase
  rw [hres, hrun] at hbase
  obtain ⟨m, -, hbase⟩ := Except.bind_eq_ok.mp hbase
  obtain ⟨resolved, -, hbase⟩ := Except.bind_eq_ok.mp hbase
  obtain rfl := Except.ok.inj hbase
  simp [Dict.get?_set]

/-- **When the final result has its schema**: for a job with what the handlers left behind, exactly
if that is a result or run results. -/
theorem resultSchema_iff (p : Except PyError PartialResult) (hjob : job.Shipped) :
    (∃ result, finalResult job p = .ok result ∧ ResultSchema job result) ↔
      (job.results.isSome ∨ job.runResults.isSome) := by
  constructor
  · rintro ⟨result, hresult, hschema⟩
    by_contra hnone
    simp only [not_or, Bool.not_eq_true, Option.isSome_eq_false_iff, Option.isNone_iff_eq_none]
      at hnone
    have hfinish := hschema.keys "finish" (by simp [collectorKeys])
    rw [get?_finish_eq_none hnone.1 hnone.2 hresult] at hfinish
    cases hfinish
  · intro hleft
    obtain ⟨hreadable, hbase⟩ := hjob.exists_base p hleft
    obtain ⟨result, hresult⟩ := exists_finalResult hreadable
    obtain ⟨base, hb, hkeep, hfilter⟩ := finalResult_spec hresult
    refine ⟨result, hresult, fun key hkey => ?_, fun ht => ?_, hfilter⟩
    · by_cases hf : key = "filter"
      · obtain ⟨b, hb, -⟩ := hfilter
        rw [hf, hb]
        rfl
      · have hmem : key ∈ ["resolved", "finish", "messages", "critical_error"] := by
          simp only [collectorKeys, List.mem_cons, List.not_mem_nil, or_false] at hkey ⊢
          tauto
        rw [hkeep key _ _ hf]
        · exact hbase base hb key hmem
        all_goals
          rintro rfl
          simp at hmem
    · exact critical_error_of_timeoutError ht hresult

/-! ### A job that timed out before its run ended -/

/-- A job that the monitor marks while the run is under way: nothing is left behind yet. -/
def timedOutJob : JobDetails where
  inst := Dict.empty
  timeoutError := true

/-- A job whose run ended. -/
def finishedJob : JobDetails where
  inst := Dict.empty
  runResults := some (mathRunResults "" true ⟨["answer"], [], true⟩)

/-- Both jobs are as a run of the phases leaves them. -/
lemma shipped_timedOutJob : timedOutJob.Shipped :=
  ⟨fun _ h => (by cases h), fun _ h => (by cases h), .inl rfl⟩

/-- **A job with a final result of the schema**. -/
theorem resultSchema_finishedJob :
    ∃ result, finalResult finishedJob (.error .indexError) = .ok result ∧
      ResultSchema finishedJob result := by
  have hjob : finishedJob.Shipped := by
    refine ⟨fun _ h => (by cases h), fun run h => ?_, .inl rfl⟩
    obtain rfl := Option.some.inj h
    exact .math _ _ _
  exact (resultSchema_iff (.error .indexError) hjob).mpr (.inr rfl)

/-- **A job without the key that the collector reads**. -/
theorem not_resultSchema_timedOutJob :
    timedOutJob.Shipped ∧
    (∃ result, finalResult timedOutJob (.ok ⟨.list [], .list [], .bool true⟩) = .ok result ∧
      result.get? "finish" = none) ∧
    ¬ ∃ result, finalResult timedOutJob (.ok ⟨.list [], .list [], .bool true⟩) = .ok result ∧
      ResultSchema timedOutJob result := by
  refine ⟨shipped_timedOutJob, ⟨_, rfl, by decide⟩, ?_⟩
  rintro ⟨result, hresult, hschema⟩
  have hfinish := hschema.keys "finish" (by simp [collectorKeys])
  rw [get?_finish_eq_none rfl rfl hresult] at hfinish
  cases hfinish

end ProRLAgent
