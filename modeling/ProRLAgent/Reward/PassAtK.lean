import ProRLAgent.Basic
import ProRLAgent.Lib.Dict
import ProRLAgent.Lib.Except
import ProRLAgent.Lib.PyText
import ProRLAgent.Lib.Subsets
import Mathlib.Algebra.BigOperators.Group.List.Basic
import Mathlib.Data.Nat.Choose.Basic

set_option relaxedAutoImplicit false
set_option autoImplicit false

/-!
# The metric pass@k of a validation

`_validate` of `ray_trainer.py` counts the samples of each problem and those that succeed;
`compute_pass_k_metrics` of `metric_utils.py` averages, over the problems with at least `k` samples,
the part of the selections of `k` samples with a success among them. What a problem is depends on the
strategy; by default it is a hash of the input that is reduced to ten thousand numbers, so two
inputs may be one problem.

Scores are exact rationals. Python's `hash` and the functions `percentile` and `std` of numpy are
parameters.

## Main definitions

* `ProRLAgent.Reward.problemResults` — the counts of the problems.
* `ProRLAgent.Reward.computePassKMetrics` — the metrics for some numbers of samples.
* `ProRLAgent.Reward.passKMetrics` — what a validation reports.
* `ProRLAgent.Reward.empiricalPassAtK` — the part of the selections with a success, for the inputs.

## Main results

* `ProRLAgent.Reward.calculatePassAtK_eq` — the formula counts selections.
* `ProRLAgent.Reward.passKMetrics_empirical_iff` — when the reported metric is that of the inputs.
-/

namespace ProRLAgent.Reward

/-! ## Problems -/

/-- What is read of a validation sample. -/
structure Sample where
  input : List Char
  score : ℚ
  deriving DecidableEq

/-- What makes samples belong to one problem. -/
inductive ProblemIdStrategy where
  | inputHash
  | inputPrefix
  | indexBased
  | other
  deriving DecidableEq, Repr

/-- What makes a sample a success. -/
inductive SuccessMode where
  | threshold
  | positive
  | percentile
  | other
  deriving DecidableEq, Repr

/-- The options of the trainer for pass@k, with their defaults. -/
structure PassKConfig where
  passKValues : List ℕ := [1, 4, 8, 16]
  problemIdStrategy : ProblemIdStrategy := .inputHash
  samplesPerProblem : ℕ := 10
  successThreshold : ℚ := 0
  successMode : SuccessMode := .threshold
  successPercentile : ℚ := 50

/-- The name of a problem. -/
inductive ProblemId where
  | number (n : ℕ)
  | text (t : List Char)
  deriving DecidableEq, Repr

/-- The counts of a problem. -/
structure Stats where
  total : ℕ
  correct : ℕ
  deriving DecidableEq, Repr

/-- The functions of numpy that are not modelled. -/
structure Numpy where
  percentile : List ℚ → ℚ → ℚ
  std : List ℚ → ℚ

variable (numpy : Numpy) (hash : List Char → ℤ) (config : PassKConfig) (samples : List Sample)

/-- `abs(hash(input_text)) % 10000`. -/
def reducedHash (input : List Char) : ℕ := (hash input).natAbs % 10000

/-- The problem of the sample at an index. -/
def problemId (index : ℕ) (input : List Char) : Except PyError ProblemId :=
  match config.problemIdStrategy with
  | .inputHash => .ok (.number (reducedHash hash input))
  | .inputPrefix => .ok (.text (PyText.strip (input.take 50)))
  | .indexBased =>
    if config.samplesPerProblem = 0 then .error (.other "integer division or modulo by zero")
    else .ok (.number (index / config.samplesPerProblem))
  | .other => .ok (.number index)

/-- Whether a sample is a success, among some scores. -/
def isSuccess (scores : List ℚ) (score : ℚ) : Bool :=
  match config.successMode with
  | .threshold => decide (config.successThreshold < score)
  | .positive => decide (0 < score)
  | .percentile => decide (numpy.percentile scores config.successPercentile ≤ score)
  | .other => decide (config.successThreshold < score)

/-- A sample is counted. -/
def countSample (stats : Option Stats) (success : Bool) : Stats :=
  let stats := stats.getD ⟨0, 0⟩
  ⟨stats.total + 1, if success then stats.correct + 1 else stats.correct⟩

/-- **The counts of the problems.** -/
def problemResults : Except PyError (Dict ProblemId Stats) := do
  let outcomes ← samples.zipIdx.mapM fun e => do
    let problem ← problemId hash config e.2 e.1.input
    return (problem, isSuccess numpy config (samples.map Sample.score) e.1.score)
  return Dict.accumulate countSample outcomes

/-! ## Metrics -/

/-- `calculate_pass_at_k`. -/
def calculatePassAtK (n c k : ℕ) : ℚ :=
  if (n : ℤ) - c < k then 1 else 1 - ((n - c).choose k : ℚ) / (n.choose k : ℚ)

/-- The result for one number of samples. -/
structure PassAtK where
  score : ℚ
  std : ℚ
  numProblems : ℕ

/-- `np.mean`. -/
def mean (values : List ℚ) : ℚ := values.sum / values.length

/-- The result for `k` samples: zeros without a problem that has as many. -/
def passAtK (problems : Dict ProblemId Stats) (k : ℕ) : PassAtK :=
  let scores := (problems.values.filter fun stats => k ≤ stats.total).map fun stats =>
    calculatePassAtK stats.total stats.correct k
  if scores ≠ [] then ⟨mean scores, numpy.std scores, scores.length⟩ else ⟨0, 0, 0⟩

/-- The name of a result. -/
def passAtKName (k : ℕ) : List Char := "pass@".toList ++ PyText.str k

/-- **`compute_pass_k_metrics`.** -/
def computePassKMetrics (problems : Dict ProblemId Stats) (kValues : Option (List ℕ)) :
    Dict (List Char) PassAtK :=
  Dict.ofEntries ((kValues.getD [1, 5, 10, 25, 50, 100]).map fun k =>
    (passAtKName k, passAtK numpy problems k))

/-- The section of the reported scores. -/
def coreSection : List Char := "val-core/pass_k/".toList

/-- The section of the other metrics. -/
def auxSection : List Char := "val-aux/pass_k/".toList

/-- The name of the reported score of a result. -/
def scoreName (result : List Char) : List Char := coreSection ++ (result ++ "/score".toList)

/-- The names and values of the metrics of a result. -/
def metricEntries (e : List Char × PassAtK) : List (List Char × ℚ) :=
  [(scoreName e.1, e.2.score),
    (auxSection ++ (e.1 ++ "/std".toList), e.2.std),
    (auxSection ++ (e.1 ++ "/num_problems".toList), (e.2.numProblems : ℚ))]

/-- **The metrics that a validation reports** for pass@k. -/
def passKMetrics : Except PyError (Dict (List Char) ℚ) := do
  let problems ← problemResults numpy hash config samples
  let results := computePassKMetrics numpy problems (some config.passKValues)
  return Dict.ofEntries (results.entries.flatMap metricEntries)

/-! ## Selections of samples -/

/-- The positions of the samples with an input. -/
def positions (input : List Char) : Finset ℕ :=
  (Finset.range samples.length).filter fun i => samples[i]?.any fun sample => sample.input = input

/-- The sample at a position is a success. -/
def Succeeds (i : ℕ) : Prop :=
  samples[i]?.any fun sample => isSuccess numpy config (samples.map Sample.score) sample.score

instance decidableSucceeds (i : ℕ) : Decidable (Succeeds numpy config samples i) :=
  inferInstanceAs (Decidable (_ = true))

/-- **The empirical pass@k**: the mean, over the inputs with at least `k` samples, of the part of the
selections of `k` samples with a success among them. -/
def empiricalPassAtK (k : ℕ) : ℚ :=
  mean ((((samples.map Sample.input).dedup.filter fun input => k ≤ (positions samples input).card)).map
    fun input => Subsets.hitFraction (positions samples input) (Succeeds numpy config samples) k)

/-- The counts of an input. -/
def statsOf (input : List Char) : Stats :=
  ⟨(positions samples input).card,
    ((positions samples input).filter (Succeeds numpy config samples)).card⟩

/-- The positions of a list at which a test passes are as many as the elements that pass it. -/
lemma card_filter_any {α : Type} (test : α → Bool) (l : List α) :
    ((Finset.range l.length).filter fun i => l[i]?.any test).card = l.countP test := by
  induction l using List.reverseRecOn with
  | nil => rfl
  | append_singleton l a ih =>
    have hbefore : ((Finset.range l.length).filter fun i => (l ++ [a])[i]?.any test) =
        (Finset.range l.length).filter fun i => l[i]?.any test :=
      Finset.filter_congr fun i hi => by
        rw [List.getElem?_append_left (Finset.mem_range.mp hi)]
    rw [List.length_append, List.length_singleton, Finset.range_add_one, Finset.filter_insert, hbefore,
      List.countP_append, List.countP_singleton, List.getElem?_concat_length, Option.any_some]
    split_ifs with ha
    · rw [Finset.card_insert_of_notMem (by simp), ih]
    · rw [ih, Nat.add_zero]

/-- The counts of an input, as numbers of samples. -/
lemma statsOf_eq (input : List Char) : statsOf numpy config samples input =
    ⟨samples.countP fun sample => sample.input = input,
      (samples.filter fun sample => sample.input = input).countP fun sample =>
        isSuccess numpy config (samples.map Sample.score) sample.score⟩ := by
  have hboth : (positions samples input).filter (Succeeds numpy config samples) =
      (Finset.range samples.length).filter fun i => samples[i]?.any fun sample =>
        isSuccess numpy config (samples.map Sample.score) sample.score &&
          decide (sample.input = input) := by
    rw [positions, Finset.filter_filter]
    refine Finset.filter_congr fun i _ => ?_
    cases h : samples[i]? <;> simp [Succeeds, h, and_comm]
  rw [statsOf, hboth, positions, card_filter_any, card_filter_any, List.countP_filter]

variable {samples}

/-- The two cases of the formula are one. -/
lemma calculatePassAtK_of_le {n c : ℕ} (hle : c ≤ n) (k : ℕ) :
    calculatePassAtK n c k = 1 - ((n - c).choose k : ℚ) / (n.choose k : ℚ) := by
  rw [calculatePassAtK]
  split_ifs with hfew
  · rw [Nat.choose_eq_zero_of_lt (by omega), Nat.cast_zero, zero_div, sub_zero]
  · rfl

/-- **The formula counts selections.** -/
theorem calculatePassAtK_eq {input : List Char} {k : ℕ} (hk : k ≤ (positions samples input).card) :
    calculatePassAtK (statsOf numpy config samples input).total
      (statsOf numpy config samples input).correct k =
        Subsets.hitFraction (positions samples input) (Succeeds numpy config samples) k := by
  rw [Subsets.hitFraction_eq _ hk]
  exact calculatePassAtK_of_le ((positions samples input).card_filter_le _) k

/-! ## Counting -/

/-- The problems of the samples. -/
lemma problemResults_inputHash (hstrategy : config.problemIdStrategy = .inputHash) :
    problemResults numpy hash config samples = .ok (Dict.accumulate countSample
      (samples.map fun sample => (.number (reducedHash hash sample.input),
        isSuccess numpy config (samples.map Sample.score) sample.score))) := by
  have hid (index : ℕ) (input : List Char) :
      problemId hash config index input = .ok (.number (reducedHash hash input)) := by
    rw [problemId, hstrategy]
  have houtcomes : (samples.zipIdx.mapM fun e => do
      let problem ← problemId hash config e.2 e.1.input
      return (problem, isSuccess numpy config (samples.map Sample.score) e.1.score)) =
        (.ok ((samples.zipIdx.map Prod.fst).map fun sample =>
          (.number (reducedHash hash sample.input),
            isSuccess numpy config (samples.map Sample.score) sample.score)) :
          Except PyError (List (ProblemId × Bool))) := by
    rw [Except.mapM_eq_ok_iff, List.map_map, List.forall₂_map_right_iff, List.forall₂_same]
    intro e _
    rw [hid]
    rfl
  rw [problemResults, houtcomes, List.zipIdx_map_fst]
  rfl

/-- The counts of a problem with samples. -/
lemma foldl_countSample (outcomes : List Bool) (stats : Stats) :
    outcomes.foldl (fun o success => some (countSample o success)) (some stats) =
      some ⟨stats.total + outcomes.length, stats.correct + outcomes.count true⟩ := by
  induction outcomes generalizing stats with
  | nil => rfl
  | cons success outcomes ih =>
    rw [List.foldl_cons, ih, List.length_cons, List.count_cons]
    cases success
    · simp [countSample]
      omega
    · simp [countSample]
      omega

/-- The counts of a problem, from the outcomes of its samples. -/
lemma foldl_countSample_none {outcomes : List Bool} (hne : outcomes ≠ []) :
    outcomes.foldl (fun o success => some (countSample o success)) none =
      some ⟨outcomes.length, outcomes.count true⟩ := by
  obtain ⟨success, outcomes, rfl⟩ := List.exists_cons_of_ne_nil hne
  rw [List.foldl_cons, foldl_countSample, List.length_cons, List.count_cons]
  cases success
  · simp [countSample, Nat.add_comm]
  · simp [countSample, Nat.add_comm]

/-- **The counts of a problem** are those of the samples whose inputs have the hash. -/
lemma get?_problems (reduced : ℕ) :
    (Dict.accumulate countSample (samples.map fun sample =>
      (ProblemId.number (reducedHash hash sample.input),
        isSuccess numpy config (samples.map Sample.score) sample.score))).get? (.number reduced) =
      if ∃ sample ∈ samples, reducedHash hash sample.input = reduced then
        some ⟨samples.countP fun sample => reducedHash hash sample.input = reduced,
          (samples.filter fun sample => reducedHash hash sample.input = reduced).countP fun sample =>
            isSuccess numpy config (samples.map Sample.score) sample.score⟩
      else none := by
  rw [Dict.get?_accumulate, List.filter_map, List.map_map, List.countP_eq_length_filter]
  simp only [Function.comp_def, ProblemId.number.injEq]
  split_ifs with hsome
  · rw [foldl_countSample_none, List.length_map, List.count, List.countP_map]
    · simp only [Function.comp_def, beq_true]
    · obtain ⟨sample, hsample, hreduced⟩ := hsome
      refine List.ne_nil_of_mem (List.mem_map_of_mem (List.mem_filter.mpr ⟨hsample, ?_⟩))
      simpa using hreduced
  · rw [List.filter_eq_nil_iff.mpr]
    · rfl
    · exact fun sample hsample => by simpa using fun heq => hsome ⟨sample, hsample, heq⟩

/-- **Samples of different inputs are never counted as one problem**: the problem of a sample has the
counts of its input. -/
def CountedApart (numpy : Numpy) (hash : List Char → ℤ) (config : PassKConfig)
    (samples : List Sample) : Prop :=
  ∃ problems, problemResults numpy hash config samples = .ok problems ∧
    ∀ sample ∈ samples, problems.get? (.number (reducedHash hash sample.input)) =
      some (statsOf numpy config samples sample.input)

/-- **The reported metric is the empirical one**, for every number of samples in the options. -/
def ReportsEmpirical (numpy : Numpy) (hash : List Char → ℤ) (config : PassKConfig)
    (samples : List Sample) : Prop :=
  ∃ metrics, passKMetrics numpy hash config samples = .ok metrics ∧
    ∀ k ∈ config.passKValues, metrics.get? (scoreName (passAtKName k)) =
      some (empiricalPassAtK numpy config samples k)

/-- No two different inputs have the same reduced hash. -/
def HashesDiffer (hash : List Char → ℤ) (samples : List Sample) : Prop :=
  ∀ a ∈ samples, ∀ b ∈ samples, reducedHash hash a.input = reducedHash hash b.input →
    a.input = b.input

instance decidableHashesDiffer (hash : List Char → ℤ) (samples : List Sample) :
    Decidable (HashesDiffer hash samples) :=
  inferInstanceAs (Decidable (∀ a ∈ samples, ∀ b ∈ samples, _ → _))

/-- Inputs without collisions have problems of their own. -/
lemma countedApart_iff (hstrategy : config.problemIdStrategy = .inputHash) :
    CountedApart numpy hash config samples ↔ HashesDiffer hash samples := by
  simp only [CountedApart, problemResults_inputHash numpy hash config hstrategy, Except.ok.injEq,
    exists_eq_left', get?_problems, statsOf_eq]
  constructor
  · intro h a ha b hb heq
    have hcounts := h a ha
    rw [if_pos ⟨a, ha, rfl⟩, Option.some.injEq, Stats.mk.injEq, List.countP_eq_length_filter,
      List.countP_eq_length_filter] at hcounts
    -- The samples of the input are among those of the problem, and they are as many.
    have hsub : (samples.filter fun sample => sample.input = a.input).Sublist
        (samples.filter fun sample => reducedHash hash sample.input = reducedHash hash a.input) := by
      refine List.monotone_filter_right samples fun sample hsample => ?_
      simpa using congrArg (reducedHash hash) (of_decide_eq_true hsample)
    have hsame := hsub.eq_of_length hcounts.1.symm
    have hmem : b ∈ samples.filter fun sample => sample.input = a.input := by
      rw [hsame]
      exact List.mem_filter.mpr ⟨hb, by simpa using heq.symm⟩
    have hinput := (List.mem_filter.mp hmem).2
    exact (of_decide_eq_true hinput).symm
  · intro h a ha
    have hfilter : ∀ sample ∈ samples,
        decide (reducedHash hash sample.input = reducedHash hash a.input) =
          decide (sample.input = a.input) := fun sample hsample =>
      decide_eq_decide.mpr ⟨h sample hsample a ha, fun heq => congrArg (reducedHash hash) heq⟩
    rw [if_pos ⟨a, ha, rfl⟩, List.countP_congr fun sample hsample => by rw [hfilter sample hsample],
      List.filter_congr hfilter]

/-! ## Averages -/

/-- **The problems are the inputs** if no two of them have the same reduced hash. -/
lemma entries_perm_inputs (hdiffer : HashesDiffer hash samples)
    (hstrategy : config.problemIdStrategy = .inputHash) {problems : Dict ProblemId Stats}
    (hproblems : problemResults numpy hash config samples = .ok problems) :
    problems.entries.Perm ((samples.map Sample.input).dedup.map fun input =>
      (.number (reducedHash hash input), statsOf numpy config samples input)) := by
  obtain ⟨_, hsame, hcounts⟩ := (countedApart_iff numpy hash config hstrategy).mpr hdiffer
  obtain rfl := Except.ok.inj (hproblems.symm.trans hsame)
  rw [problemResults_inputHash numpy hash config hstrategy, Except.ok.injEq] at hproblems
  refine (List.perm_ext_iff_of_nodup problems.nodup_entries ?_).mpr fun e => ?_
  · refine (List.nodup_map_iff_inj_on (List.nodup_dedup _)).mpr fun a ha b hb heq => ?_
    obtain ⟨sample, hsample, rfl⟩ := List.mem_map.mp (List.mem_dedup.mp ha)
    obtain ⟨other, hother, rfl⟩ := List.mem_map.mp (List.mem_dedup.mp hb)
    exact hdiffer sample hsample other hother (ProblemId.number.inj (Prod.mk.inj heq).1)
  · obtain ⟨problem, stats⟩ := e
    simp only [← Dict.get?_eq_some_iff, List.mem_map, List.mem_dedup, Prod.mk.injEq]
    constructor
    · intro hget
      have hkey : problem ∈ problems.keys := Dict.mem_keys_iff.mpr ⟨stats, hget⟩
      rw [← hproblems, Dict.mem_keys_accumulate, List.map_map, List.mem_map] at hkey
      obtain ⟨sample, hsample, rfl⟩ := hkey
      have heq := (hcounts sample hsample).symm.trans hget
      exact ⟨sample.input, ⟨sample, hsample, rfl⟩, rfl, Option.some.inj heq⟩
    · rintro ⟨_, ⟨sample, hsample, rfl⟩, rfl, rfl⟩
      exact hcounts sample hsample

/-- The mean does not depend on the order. -/
lemma mean_perm {l l' : List ℚ} (h : l.Perm l') : mean l = mean l' := by
  rw [mean, mean, h.sum_eq, h.length_eq]

/-- The score is the mean, also if there is no problem with as many samples. -/
lemma passAtK_score (problems : Dict ProblemId Stats) (k : ℕ) :
    (passAtK numpy problems k).score =
      mean ((problems.values.filter fun stats => k ≤ stats.total).map fun stats =>
        calculatePassAtK stats.total stats.correct k) := by
  simp only [passAtK]
  split_ifs with hne
  · rfl
  · rw [not_not.mp hne, mean, List.sum_nil, zero_div]

/-- **The score is the empirical one** if no two inputs have the same reduced hash. -/
lemma passAtK_empirical (hdiffer : HashesDiffer hash samples)
    (hstrategy : config.problemIdStrategy = .inputHash) {problems : Dict ProblemId Stats}
    (hproblems : problemResults numpy hash config samples = .ok problems) (k : ℕ) :
    (passAtK numpy problems k).score = empiricalPassAtK numpy config samples k := by
  have hvalues : problems.values.Perm
      ((samples.map Sample.input).dedup.map (statsOf numpy config samples)) := by
    have hperm := (entries_perm_inputs numpy hash config hdiffer hstrategy hproblems).map Prod.snd
    rwa [List.map_map] at hperm
  rw [passAtK_score, empiricalPassAtK, mean_perm ((hvalues.filter _).map _), List.filter_map,
    List.map_map]
  refine congrArg mean (List.map_congr_left fun input hinput => ?_)
  have hk := (List.mem_filter.mp hinput).2
  exact calculatePassAtK_eq numpy config (of_decide_eq_true hk)

/-! ## Names of metrics -/

/-- Different numbers give results of different names. -/
lemma passAtKName_injective : Function.Injective passAtKName := fun k l h => by
  have hsame := congrArg PyText.int? (List.append_cancel_left h)
  rw [PyText.int?_str, PyText.int?_str] at hsame
  exact_mod_cast Option.some.inj hsame

/-- Different results have scores of different names. -/
lemma scoreName_injective : Function.Injective scoreName := fun _ _ h =>
  List.append_cancel_right (List.append_cancel_left h)

/-- The name of a score is no name of another metric. -/
lemma scoreName_ne (result rest : List Char) : scoreName result ≠ auxSection ++ rest := by
  intro h
  have hcore : coreSection[4]? = some 'c' := by decide +kernel
  have haux : auxSection[4]? = some 'a' := by decide +kernel
  have hletter := congrArg (fun name => name[4]?) h
  simp only [scoreName, List.getElem?_append_left (List.getElem?_eq_some_iff.mp hcore).1,
    List.getElem?_append_left (List.getElem?_eq_some_iff.mp haux).1, hcore, haux] at hletter
  exact absurd hletter (by decide)

/-- The results for the numbers. -/
lemma get?_computePassKMetrics {problems : Dict ProblemId Stats} {kValues : List ℕ} {k : ℕ}
    (hk : k ∈ kValues) : (computePassKMetrics numpy problems (some kValues)).get? (passAtKName k) =
      some (passAtK numpy problems k) := by
  have hkey : passAtKName k ∈ (computePassKMetrics numpy problems (some kValues)).keys := by
    rw [computePassKMetrics, Dict.mem_keys_ofEntries, List.map_map]
    exact List.mem_map_of_mem hk
  obtain ⟨result, hresult⟩ := Dict.mem_keys_iff.mp hkey
  obtain ⟨l, -, heq⟩ := List.mem_map.mp (Dict.mem_of_get?_ofEntries hresult)
  obtain ⟨hname, rfl⟩ := Prod.mk.inj heq
  rw [hresult, passAtKName_injective hname]

/-- **The reported score** of a number is that of its result. -/
lemma get?_scoreName {results : Dict (List Char) PassAtK} {name : List Char} {result : PassAtK}
    (hresult : results.get? name = some result) :
    (Dict.ofEntries (results.entries.flatMap metricEntries)).get? (scoreName name) =
      some result.score := by
  have hentry := Dict.get?_eq_some_iff.mp hresult
  have hkey : scoreName name ∈ (Dict.ofEntries (results.entries.flatMap metricEntries)).keys := by
    rw [Dict.mem_keys_ofEntries, List.mem_map]
    exact ⟨(scoreName name, result.score),
      List.mem_flatMap.mpr ⟨(name, result), hentry, List.mem_cons_self⟩, rfl⟩
  obtain ⟨value, hvalue⟩ := Dict.mem_keys_iff.mp hkey
  rw [hvalue]
  obtain ⟨⟨name', result'⟩, hentry', hmem⟩ :=
    List.mem_flatMap.mp (Dict.mem_of_get?_ofEntries hvalue)
  simp only [metricEntries, List.mem_cons, List.not_mem_nil, or_false, Prod.mk.injEq] at hmem
  rcases hmem with ⟨hname, rfl⟩ | ⟨hname, -⟩ | ⟨hname, -⟩
  · obtain rfl := scoreName_injective hname
    rw [← Dict.get?_eq_some_iff, hresult, Option.some.injEq] at hentry'
    rw [hentry']
  · exact absurd hname (scoreName_ne _ _)
  · exact absurd hname (scoreName_ne _ _)

/-! ## The reported metric -/

/-- **The reported metric is that of the inputs**, and every problem that of one input, exactly if no
two different inputs have the same reduced hash. -/
theorem passKMetrics_empirical_iff (hstrategy : config.problemIdStrategy = .inputHash) :
    ReportsEmpirical numpy hash config samples ∧ CountedApart numpy hash config samples ↔
      HashesDiffer hash samples := by
  rw [countedApart_iff numpy hash config hstrategy, and_iff_right_iff_imp]
  intro hdiffer
  have hproblems : problemResults numpy hash config samples = _ :=
    problemResults_inputHash numpy hash config hstrategy
  rw [ReportsEmpirical, passKMetrics, hproblems]
  refine ⟨_, rfl, fun k hk => ?_⟩
  rw [get?_scoreName (get?_computePassKMetrics numpy hk),
    passAtK_empirical numpy hash config hdiffer hstrategy hproblems]

/-- Two samples of one input and one of another, with different hashes. -/
theorem passKMetrics_empirical_two :
    ReportsEmpirical ⟨fun _ _ => 0, fun _ => 0⟩ (fun input => input.length) {}
        [⟨['a'], 1⟩, ⟨['a', 'b'], 0⟩, ⟨['a'], 0⟩] ∧
      CountedApart ⟨fun _ _ => 0, fun _ => 0⟩ (fun input => input.length) {}
        [⟨['a'], 1⟩, ⟨['a', 'b'], 0⟩, ⟨['a'], 0⟩] :=
  (passKMetrics_empirical_iff ⟨fun _ _ => 0, fun _ => 0⟩ (fun input => input.length) {} rfl).mpr
    (by decide)

/-- Two inputs whose hashes differ by ten thousand are one problem: the reported score is `2 / 3`
instead of `1 / 2`. -/
theorem not_passKMetrics_empirical_collision :
    ¬ ReportsEmpirical ⟨fun _ _ => 0, fun _ => 0⟩ (fun input => if input = ['b'] then 10001 else 1) {}
      [⟨['a'], 1⟩, ⟨['a'], 1⟩, ⟨['b'], 0⟩] := by
  rintro ⟨metrics, hmetrics, hscores⟩
  have hreported : (passKMetrics ⟨fun _ _ => 0, fun _ => 0⟩
      (fun input => if input = ['b'] then 10001 else 1) {}
      [⟨['a'], 1⟩, ⟨['a'], 1⟩, ⟨['b'], 0⟩]).toOption.bind (·.get? (scoreName (passAtKName 1))) =
        some (2 / 3) := by decide +kernel
  have hempirical : empiricalPassAtK ⟨fun _ _ => 0, fun _ => 0⟩ {}
      [⟨['a'], 1⟩, ⟨['a'], 1⟩, ⟨['b'], 0⟩] 1 = 1 / 2 := by decide +kernel
  rw [hmetrics] at hreported
  have heq := (hscores 1 (by decide)).symm.trans hreported
  rw [hempirical] at heq
  exact absurd heq (by decide +kernel)

end ProRLAgent.Reward
