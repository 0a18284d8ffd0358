import Mathlib.Data.List.Infix
import ProRLAgent.Basic
import ProRLAgent.Lib.Dict
import ProRLAgent.Lib.Except

set_option relaxedAutoImplicit false
set_option autoImplicit false

/-!
# Job details and the final result

`JobDetails` is the object that the phases of a job fill in, and `final_result` of `utils.py`
turns it into the dictionary that the caller of `process` gets. `final_result` can raise: an
evaluation report without `resolved`, a partial result that cannot be read, or a run result whose
`error` is not a text.

## Main definitions

* `ProRLAgent.PyVal`, `ProRLAgent.EvalResults` — the values in these dictionaries.
* `ProRLAgent.JobDetails` — the fields of a job that the servers read and write.
* `ProRLAgent.finalResult` — the final result.
* `ProRLAgent.JobDetails.Readable` — the job can be turned into a result.

## Main results

* `ProRLAgent.exists_finalResult` — a readable job has a final result.
* `ProRLAgent.critical_error_of_timeoutError` — a job that is marked as timed out has the critical
  error `timeout`.
-/

namespace ProRLAgent

/-- The values that the result dictionaries hold. Messages and tools are lists of texts. -/
inductive PyVal where
  | none
  | bool (b : Bool)
  | int (n : ℤ)
  | str (s : String)
  | list (items : List String)
  deriving DecidableEq, Repr

/-- The truth value of a Python value. -/
def PyVal.truthy : PyVal → Bool
  | .none => false
  | .bool b => b
  | .int n => n ≠ 0
  | .str s => s ≠ ""
  | .list items => items ≠ []

/-- `text in v`. -/
def PyVal.contains (text : String) : PyVal → Except PyError Bool
  | .str s => .ok (decide (text.toList <:+: s.toList))
  | .list items => .ok (decide (text ∈ items))
  | .none => .error (.typeError "argument of type 'NoneType' is not iterable")
  | .bool _ => .error (.typeError "argument of type 'bool' is not iterable")
  | .int _ => .error (.typeError "argument of type 'int' is not iterable")

/-- A result dictionary. -/
abbrev ResultDict := Dict String PyVal

/-- What `job_details.eval_results` can be: a dictionary or any other value. -/
inductive EvalResults where
  | dict (entries : ResultDict)
  | value (v : PyVal)

/-- What an evaluation handler returns: a dictionary with the results under `report`, or the
results themselves. -/
inductive EvalReport where
  | wrapped (report : EvalResults)
  | plain (results : EvalResults)

/-- Only the `report` field is kept if it is there. -/
def EvalReport.unwrap : EvalReport → EvalResults
  | .wrapped report => report
  | .plain (.dict entries) =>
    match entries.get? "report" with
    | some v => .value v
    | none => .dict entries
  | .plain (.value v) => .value v

/-- `eval_results['resolved'] if eval_results is not None else False`. -/
def EvalResults.resolved : EvalResults → Except PyError PyVal
  | .value .none => .ok (.bool false)
  | .value (.str _) => .error (.typeError "string indices must be integers, not 'str'")
  | .value (.list _) =>
    .error (.typeError "list indices must be integers or slices, not str")
  | .value (.bool _) => .error (.typeError "'bool' object is not subscriptable")
  | .value (.int _) => .error (.typeError "'int' object is not subscriptable")
  | .dict entries =>
    match entries.get? "resolved" with
    | some v => .ok v
    | none => .error (.keyError "resolved")

/-- The fields of a job's details that the servers read and write. A runtime is named by a number;
the completion event is the flag that it is set. -/
structure JobDetails where
  inst : ResultDict
  runtime : Option ℕ := none
  runResults : Option ResultDict := none
  evalResults : EvalResults := .value .none
  results : Option ResultDict := none
  event : Bool := false
  timeoutError : Bool := false

/-- What `get_messages_from_partial_result` returns. -/
structure PartialResult where
  messages : PyVal
  tools : PyVal
  endProperly : PyVal

/-- `critical_error` of a job without results of an exception handler. -/
def JobDetails.criticalError (job : JobDetails) : PyVal :=
  if job.timeoutError then .str "timeout" else .none

/-- The dictionary that `final_result` starts from. `get_messages_from_partial_result` reads the
agent's controller, so what it gives is an argument here. -/
def JobDetails.baseResult (job : JobDetails) (p : Except PyError PartialResult) :
    Except PyError ResultDict :=
  match job.results, job.runResults with
  | some results, _ =>
    .ok (if job.timeoutError then results.set "critical_error" (.str "timeout") else results)
  | none, some run => do
    let resolved ← job.evalResults.resolved
    .ok ((run.set "resolved" resolved).set "critical_error" job.criticalError)
  | none, none => do
    let p ← p
    let resolved ← job.evalResults.resolved
    let result := (Dict.empty.set "resolved" resolved).set "critical_error" job.criticalError
    .ok (((result.set "messages" p.messages).set "tools" p.tools).set "end_properly"
      p.endProperly)

/-- A missing identifier is taken from the instance. -/
def fillIn (inst result : ResultDict) (key : String) : ResultDict :=
  match result.get? key with
  | some _ => result
  | none => result.set key ((inst.get? key).getD .none)

/-- `determine_filter`: whether the trajectory is to be filtered out. -/
def determineFilter (result : ResultDict) : Except PyError Bool :=
  if (result.get? "critical_error").getD .none ≠ .none then .ok true
  else if ((result.get? "success").getD .none).truthy then .ok false
  else
    match result.get? "error" with
    | some error => return !(← error.contains "AgentToolCallError")
    | none => .ok true

/-- **The final result** of a job. -/
def finalResult (job : JobDetails) (p : Except PyError PartialResult) :
    Except PyError ResultDict := do
  let result ← job.baseResult p
  let result := fillIn job.inst (fillIn job.inst result "instance_id") "trajectory_id"
  let filter ← determineFilter result
  .ok (result.set "filter" (.bool filter))

/-! ## When there is a final result -/

/-- The value is a container of texts. -/
def PyVal.isContainer : PyVal → Bool
  | .str _ | .list _ => true
  | _ => false

/-- The evaluation results are absent or a dictionary with `resolved`. -/
def EvalResults.hasResolved : EvalResults → Bool
  | .value v => v = .none
  | .dict entries => (entries.get? "resolved").isSome

/-- The dictionary names a critical error. -/
def hasCriticalError (result : ResultDict) : Bool :=
  (result.get? "critical_error").getD .none ≠ .none

/-- The `error` of a dictionary is a text, if it is there and the dictionary does not say that the
run was a success. -/
def errorReadable (result : ResultDict) : Bool :=
  ((result.get? "success").getD .none).truthy || (result.get? "error").all PyVal.isContainer

/-- The job can be turned into a result: the results of an exception handler name a critical error
or have a readable error; without them the evaluation results are absent or say whether the job is
resolved, and the run results have a readable error, or the partial result can be read. -/
def JobDetails.Readable (job : JobDetails) (p : Except PyError PartialResult) : Prop :=
  match job.results, job.runResults with
  | some results, _ => job.timeoutError ∨ hasCriticalError results ∨ errorReadable results
  | none, some run => job.evalResults.hasResolved ∧ (job.timeoutError ∨ errorReadable run)
  | none, none => job.evalResults.hasResolved ∧ p.toOption.isSome

instance (job : JobDetails) (p : Except PyError PartialResult) : Decidable (job.Readable p) := by
  unfold JobDetails.Readable
  split <;> infer_instance

variable {job : JobDetails} {p : Except PyError PartialResult} {result : ResultDict}

/-- Filling in an identifier changes no other key. -/
lemma get?_fillIn (inst : ResultDict) (result : ResultDict) {key k : String} (hk : k ≠ key) :
    (fillIn inst result key).get? k = result.get? k := by
  unfold fillIn
  split
  · rfl
  · rw [Dict.get?_set, if_neg hk]

/-- The identifiers that `final_result` fills in play no part elsewhere. -/
lemma get?_fillIn_ids (inst : ResultDict) (result : ResultDict) {k : String}
    (hi : k ≠ "instance_id") (ht : k ≠ "trajectory_id") :
    (fillIn inst (fillIn inst result "instance_id") "trajectory_id").get? k = result.get? k := by
  rw [get?_fillIn _ _ ht, get?_fillIn _ _ hi]

/-- A container can be searched. -/
lemma PyVal.exists_contains {v : PyVal} (h : v.isContainer) (text : String) :
    ∃ b, v.contains text = .ok b := by
  cases v <;> simp [PyVal.isContainer, PyVal.contains] at h ⊢

/-- Evaluation results that are absent or have `resolved` can be read. -/
lemma EvalResults.exists_resolved {r : EvalResults} (h : r.hasResolved) :
    ∃ v, r.resolved = .ok v := by
  cases r with
  | dict entries =>
    obtain ⟨v, hv⟩ := Option.isSome_iff_exists.mp h
    exact ⟨v, by simp [EvalResults.resolved, hv]⟩
  | value v =>
    obtain rfl : v = .none := by simpa [EvalResults.hasResolved] using h
    exact ⟨_, rfl⟩

/-- A dictionary with a critical error or a readable error can be filtered. -/
lemma exists_determineFilter (h : hasCriticalError result ∨ errorReadable result) :
    ∃ b, determineFilter result = .ok b := by
  unfold determineFilter
  split
  · exact ⟨_, rfl⟩
  · rename_i hcrit
    split
    · exact ⟨_, rfl⟩
    · rename_i hsucc
      split
      · rename_i error herr
        have hread : error.isContainer := by
          rcases h with h | h
          · exact absurd (by simpa [hasCriticalError] using h) hcrit
          · simpa [errorReadable, hsucc, herr] using h
        obtain ⟨b, hb⟩ := PyVal.exists_contains hread "AgentToolCallError"
        exact ⟨!b, by rw [hb]; rfl⟩
      · exact ⟨_, rfl⟩

/-- Filling in the identifiers does not change what the filter looks at. -/
lemma filterable_fillIn_ids (inst : ResultDict)
    (h : hasCriticalError result ∨ errorReadable result) :
    hasCriticalError (fillIn inst (fillIn inst result "instance_id") "trajectory_id") ∨
      errorReadable (fillIn inst (fillIn inst result "instance_id") "trajectory_id") := by
  unfold hasCriticalError errorReadable at *
  rwa [get?_fillIn_ids _ _ (by decide) (by decide), get?_fillIn_ids _ _ (by decide) (by decide),
    get?_fillIn_ids _ _ (by decide) (by decide)]

/-- A readable job has a dictionary to start from, and its filter can be determined. -/
lemma exists_baseResult (h : job.Readable p) :
    ∃ result, job.baseResult p = .ok result ∧ (hasCriticalError result ∨ errorReadable result) := by
  unfold JobDetails.Readable at h
  unfold JobDetails.baseResult
  split at h
  · rename_i results _ hres _
    refine ⟨_, rfl, ?_⟩
    by_cases ht : job.timeoutError
    · exact .inl (by simp [ht, hasCriticalError, Dict.get?_set])
    · simpa [ht] using h
  · rename_i run hres hrun
    obtain ⟨v, hv⟩ := EvalResults.exists_resolved h.1
    refine ⟨_, by rw [hv]; rfl, ?_⟩
    by_cases ht : job.timeoutError
    · exact .inl (by simp [ht, hasCriticalError, Dict.get?_set, JobDetails.criticalError])
    · refine .inr ?_
      simpa [ht, errorReadable, Dict.get?_set] using h.2
  · obtain ⟨v, hv⟩ := EvalResults.exists_resolved h.1
    cases p with
    | error e => exact absurd h.2 (by simp [Except.toOption])
    | ok p =>
      refine ⟨_, by rw [hv]; rfl, .inr ?_⟩
      simp [errorReadable, Dict.get?_set]

/-- **A readable job has a final result.** -/
theorem exists_finalResult (h : job.Readable p) : ∃ result, finalResult job p = .ok result := by
  obtain ⟨result, hbase, hfilter⟩ := exists_baseResult h
  obtain ⟨b, hb⟩ := exists_determineFilter (filterable_fillIn_ids job.inst hfilter)
  refine ⟨(fillIn job.inst (fillIn job.inst result "instance_id") "trajectory_id").set "filter"
    (.bool b), ?_⟩
  unfold finalResult
  rw [hbase]
  show (do let filter ← determineFilter _; _) = _
  rw [hb]
  rfl

/-- **A job that is marked as timed out** has the critical error `timeout` in its final result. -/
theorem critical_error_of_timeoutError (ht : job.timeoutError = true)
    (h : finalResult job p = .ok result) :
    result.get? "critical_error" = some (.str "timeout") := by
  unfold finalResult at h
  obtain ⟨base, hbase, h⟩ := Except.bind_eq_ok.mp h
  obtain ⟨b, -, h⟩ := Except.bind_eq_ok.mp h
  obtain rfl := Except.ok.inj h
  rw [Dict.get?_set, if_neg (by decide), get?_fillIn_ids _ _ (by decide) (by decide)]
  unfold JobDetails.baseResult at hbase
  split at hbase
  · obtain rfl := Except.ok.inj hbase
    simp [ht, Dict.get?_set]
  · obtain ⟨v, -, hbase⟩ := Except.bind_eq_ok.mp hbase
    obtain rfl := Except.ok.inj hbase
    simp [ht, Dict.get?_set, JobDetails.criticalError]
  · obtain ⟨q, -, hbase⟩ := Except.bind_eq_ok.mp hbase
    obtain ⟨v, -, hbase⟩ := Except.bind_eq_ok.mp hbase
    obtain rfl := Except.ok.inj hbase
    simp [ht, Dict.get?_set, JobDetails.criticalError]

end ProRLAgent
