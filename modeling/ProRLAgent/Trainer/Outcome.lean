import ProRLAgent.Basic
import ProRLAgent.Lib.Except
import ProRLAgent.Lib.Slices
import ProRLAgent.Rollout.DapoRound
import ProRLAgent.Trainer.Advantages
import Mathlib.Algebra.Order.Field.Basic
import Mathlib.Algebra.Order.Ring.Rat
import Mathlib.Data.List.Infix
import Mathlib.Tactic.Linarith

set_option relaxedAutoImplicit false
set_option autoImplicit false

/-!
# What a trajectory earns

`SWEBenchRewardManager.__call__` puts the score of a trajectory, one if its instance is resolved, at
the last token of the response, and `compute_advantage` hands the rewards to an estimator that compares
the trajectories of an instance. So the advantages of an instance tell its resolved trajectories from
the others, and an instance without both kinds has none. These are the instances that the filter of
dynamic sampling drops.

Numbers are those of a field. A mean over no rows is no number in the code; here it is zero.

## Main definitions

* `ProRLAgent.Trainer.call` — the rewards of a batch.
* `ProRLAgent.Trainer.computeAdvantage` — the advantages of a batch.
* `ProRLAgent.Trainer.outcomeAdvantages` — both.

## Main results

* `ProRLAgent.Trainer.outcomeAdvantages_sign` — the signs of the advantages.
* `ProRLAgent.Trainer.mem_removed_iff_advantages` — the filter drops what has no advantages.
-/

namespace ProRLAgent.Trainer

variable {ι K : Type} [Field K]

/-! ## Rewards -/

/-- What the reward manager and the estimators read of a row of a batch. -/
structure Sample (ι : Type) where
  uid : ι
  ability : String
  /-- Ones at the tokens of prompt and response, zeros at the padding. -/
  attentionMask : List ℕ
  lossMask : List ℕ
  resolved : Bool
  error : Option String
  finish : Bool

/-- A batch; the last two are there if its dictionary has them. -/
structure RewardBatch (ι K : Type) where
  responseLength : ℕ
  samples : List (Sample ι)
  acc : Option (List K)
  rmScores : Option (List (List K))

/-- The settings of the reward manager. -/
structure RewardConfig (K : Type) where
  rmCoef : K
  rewardCoef : K
  stopProperlyPenalty : Option K

/-- What the reward manager returns. -/
structure RewardResult (K : Type) where
  score : List (List K)
  reward : List (List K)
  rewardMetrics : Dict String K

/-- `attention_mask[:, -response_length:]`. -/
def responsePart (responseLength : ℕ) (mask : List ℕ) : List ℕ :=
  Slices.slice mask (some (-(responseLength : ℤ))) none

/-- `valid_response_length`. -/
def validResponseLength (responseLength : ℕ) (sample : Sample ι) : ℕ :=
  (responsePart responseLength sample.attentionMask).sum

/-- A quotient of two numbers; a divisor of zero raises. -/
def ratio (count length : ℕ) : Except PyError K :=
  if length = 0 then .error (.other "ZeroDivisionError") else .ok ((count : K) / length)

/-- An error that is there and contains a text. -/
def mentions (text : String) (sample : Sample ι) : Bool :=
  match sample.error with
  | some error => error ≠ "" ∧ text.toList <:+: error.toList
  | none => false

/-- The mean of numbers. -/
def mean (values : List K) : K := values.sum / values.length

/-- **`SWEBenchRewardManager.verify`**: the scores and their metrics. -/
def verify (samples : List (Sample ι)) : Except PyError (List K × Dict String K) := do
  let score := samples.map fun sample => if sample.resolved then (1 : K) else 0
  let maxTurnRatio ← ratio (samples.countP
    (mentions "RuntimeError: Agent reached maximum iteration in headless mode")) samples.length
  let finishActionRatio ← ratio (samples.countP Sample.finish) samples.length
  let stuckRatio ← ratio (samples.countP (mentions "stuck in a loop")) samples.length
  let metrics := ((Dict.empty.set "max_turn_ratio" maxTurnRatio).set "finish_action_ratio"
    finishActionRatio).set "stuck_ratio" stuckRatio
  let metrics := (samples.map Sample.ability).dedup.foldl (fun metrics ability =>
    metrics.set ability (mean (((samples.zip score).filter fun e => e.1.ability = ability).map
      Prod.snd))) metrics
  return (score, metrics.set "all" (mean score))

/-- `tensor[valid_response_length - 1] = score` in a row of zeros. -/
def placeScore (responseLength valid : ℕ) (score : K) : Except PyError (List K) :=
  let position := if valid = 0 then (responseLength : ℤ) - 1 else (valid : ℤ) - 1
  if 0 ≤ position ∧ position < responseLength then
    .ok ((List.replicate responseLength 0).set position.toNat score)
  else .error .indexError

/-- `tensor + coef * other`. -/
def addScaled (coef : K) (tensor other : List (List K)) : List (List K) :=
  List.zipWith (List.zipWith fun x y => x + coef * y) tensor other

/-- The mean of the sums of the rows. -/
def meanOfSums (tensor : List (List K)) : K := mean (tensor.map List.sum)

/-- `_apply_stop_properly_penalty`, where every response has stopped properly. -/
def applyStopProperlyPenalty (stopPenaltyCoef : K) (tensor : List (List K)) : List (List K) :=
  let stopProperly : K := 1
  tensor.map fun row => row.map (· * ((1 - stopProperly) * stopPenaltyCoef + stopProperly))

/-- The scores of the rows and their metrics; a batch with scores is not verified again. -/
def verified (batch : RewardBatch ι K) : Except PyError (List K × Dict String K) :=
  match batch.acc with
  | some acc => .ok (acc, Dict.empty)
  | none => verify batch.samples

/-- `reward_tensor` before the penalties. -/
def rewardTensor [DecidableEq K] (config : RewardConfig K) (batch : RewardBatch ι K)
    (verifierReward : List (List K)) : List (List K) :=
  let zeros := batch.samples.map fun _ => List.replicate batch.responseLength (0 : K)
  let tensor := match batch.rmScores with
    | some rmScores => if config.rmCoef ≠ 0 then addScaled config.rmCoef zeros rmScores else zeros
    | none => zeros
  if config.rewardCoef ≠ 0 then addScaled config.rewardCoef tensor verifierReward else tensor

/-- `reward_metrics` of a batch whose scores have some. -/
def rewardMetrics [DecidableEq K] (config : RewardConfig K) (batch : RewardBatch ι K)
    (verifierReward tensor : List (List K)) (metrics : Dict String K) : Dict String K :=
  let metrics := match batch.rmScores with
    | some rmScores => metrics.set "reward_model" (meanOfSums rmScores)
    | none => metrics
  let metrics :=
    if config.rewardCoef ≠ 0 then metrics.set "verifier" (meanOfSums verifierReward) else metrics
  metrics.set "reward_all" (meanOfSums tensor)

/-- **`SWEBenchRewardManager.__call__`.** -/
def call [DecidableEq K] (config : RewardConfig K)
    (lengthPenalty : Option (RewardBatch ι K → List (List K) → Except PyError (List (List K))))
    (batch : RewardBatch ι K) : Except PyError (RewardResult K) := do
  let (verifierScore, metrics) ← verified batch
  let verifierReward ← (batch.samples.zip verifierScore).mapM fun e =>
    placeScore batch.responseLength (validResponseLength batch.responseLength e.1) e.2
  let tensor := rewardTensor config batch verifierReward
  let reward := match config.stopProperlyPenalty with
    | some coef => applyStopProperlyPenalty coef tensor
    | none => tensor
  let reward ← match lengthPenalty with
    | some penalty => penalty batch reward
    | none => .ok reward
  return {
    score := tensor
    reward := reward
    rewardMetrics := rewardMetrics config batch verifierReward tensor metrics }

/-! ## Advantages -/

/-- The estimators that compare the responses to a prompt. -/
inductive GroupEstimator (K : Type) where
  | grpo (std : List K → K) (epsilon : K) (normAdvByStdInGrpo : Bool)
  | rloo
  | opo

/-- The score of a response. -/
def GroupEstimator.score [DecidableEq ι] (batch : List (Response ι K)) :
    GroupEstimator K → Response ι K → K
  | .grpo std epsilon normAdvByStdInGrpo => grpoScore batch std epsilon normAdvByStdInGrpo
  | .rloo => rlooScore batch
  | .opo => opoScore batch

/-- The mask of `compute_advantage`; only for GRPO it is the loss mask if there are several turns. -/
def GroupEstimator.calculationMask (multiTurn : Bool) (responseLength : ℕ) (sample : Sample ι) :
    GroupEstimator K → List K
  | .grpo .. => (responsePart responseLength
      (if multiTurn then sample.lossMask else sample.attentionMask)).map Nat.cast
  | _ => (responsePart responseLength sample.attentionMask).map Nat.cast

/-- What an estimator reads of the rows of a batch. -/
def responsesOf (estimator : GroupEstimator K) (multiTurn : Bool) (responseLength : ℕ)
    (samples : List (Sample ι)) (tokenLevelRewards : List (List K)) : List (Response ι K) :=
  List.zipWith (fun sample rewards =>
    ⟨sample.uid, rewards, estimator.calculationMask multiTurn responseLength sample⟩) samples
    tokenLevelRewards

/-- **`compute_advantage`** for these estimators. -/
def computeAdvantage [DecidableEq ι] (estimator : GroupEstimator K) (multiTurn : Bool)
    (responseLength : ℕ) (samples : List (Sample ι)) (tokenLevelRewards : List (List K)) :
    List (List K) :=
  let responses := responsesOf estimator multiTurn responseLength samples tokenLevelRewards
  match estimator with
  | .grpo std epsilon normAdvByStdInGrpo =>
    computeGrpoOutcomeAdvantage responses std epsilon normAdvByStdInGrpo
  | .rloo => computeRlooOutcomeAdvantage responses
  | .opo => computeOpoOutcomeAdvantage responses

/-- The advantages of the rewards of a batch. -/
def outcomeAdvantages [DecidableEq ι] [DecidableEq K] (config : RewardConfig K)
    (estimator : GroupEstimator K) (multiTurn : Bool) (batch : RewardBatch ι K) :
    Except PyError (List (List K)) := do
  let result ← call config none batch
  return computeAdvantage estimator multiTurn batch.responseLength batch.samples result.reward

/-! ## The rewards of a new batch -/

/-- Every row beside what is computed from it. -/
lemma zip_map_self {α β : Type} (l : List α) (f : α → β) :
    l.zip (l.map f) = l.map fun a => (a, f a) := by
  conv_lhs => rw [← List.map_id l, List.map_map]
  exact List.zip_map'

/-- The row of the rewards of a sample whose response is not empty. -/
def rewardRow (config : RewardConfig K) (responseLength : ℕ) (sample : Sample ι) : List K :=
  (List.replicate responseLength 0).set (validResponseLength responseLength sample - 1)
    (config.rewardCoef * if sample.resolved then 1 else 0)

/-- The response of a sample is not empty and not longer than the tensor. -/
def Fits (responseLength : ℕ) (sample : Sample ι) : Prop :=
  0 < validResponseLength responseLength sample ∧
    validResponseLength responseLength sample ≤ responseLength

/-- The score of a response that fits is put at its last token. -/
lemma placeScore_of_fits {responseLength : ℕ} {sample : Sample ι} (h : Fits responseLength sample)
    (score : K) : placeScore responseLength (validResponseLength responseLength sample) score =
      .ok ((List.replicate responseLength 0).set (validResponseLength responseLength sample - 1)
        score) := by
  obtain ⟨hpos, hle⟩ := h
  have hposition : ((validResponseLength responseLength sample : ℤ) - 1).toNat =
      validResponseLength responseLength sample - 1 := by omega
  simp only [placeScore]
  rw [if_neg hpos.ne', if_pos (by omega), hposition]

/-- A scaled row in a row of zeros. -/
lemma zipWith_replicate_zero (coef : K) {n : ℕ} {row : List K} (h : row.length = n) :
    List.zipWith (fun x y => x + coef * y) (List.replicate n 0) row = row.map (coef * ·) := by
  induction row generalizing n with
  | nil =>
    obtain rfl : n = 0 := h.symm
    rfl
  | cons x row ih =>
    obtain ⟨m, rfl⟩ : ∃ m, n = m + 1 := ⟨row.length, h.symm⟩
    rw [List.replicate_succ, List.zipWith_cons_cons, List.map_cons, zero_add,
      ih (Nat.succ_injective h)]

/-- Scaled rows in rows of zeros. -/
lemma addScaled_zeros (coef : K) (n : ℕ) (samples : List (Sample ι)) (row : Sample ι → List K)
    (h : ∀ sample, (row sample).length = n) :
    addScaled coef (samples.map fun _ => List.replicate n 0) (samples.map row) =
      samples.map fun sample => (row sample).map (coef * ·) := by
  rw [addScaled, List.zipWith_map, List.zipWith_self]
  apply List.map_congr_left
  intro sample _
  exact zipWith_replicate_zero coef (h sample)

/-- A response that has stopped properly keeps its rewards. -/
lemma applyStopProperlyPenalty_eq (coef : K) (tensor : List (List K)) :
    applyStopProperlyPenalty coef tensor = tensor := by
  simp [applyStopProperlyPenalty]

/-- Verifying a batch that is not empty. -/
lemma exists_verify {samples : List (Sample ι)} (h : samples ≠ []) : ∃ metrics,
    verify samples =
      .ok (samples.map fun sample => if sample.resolved then (1 : K) else 0, metrics) := by
  have hlength : samples.length ≠ 0 := by simpa using h
  simp only [verify, ratio, if_neg hlength]
  exact ⟨_, rfl⟩

/-- **The rewards of a new batch**, one without scores, if there is neither a reward model nor a
penalty for the length. -/
lemma call_of_fits [DecidableEq K] {config : RewardConfig K} {batch : RewardBatch ι K}
    (hcoef : config.rewardCoef ≠ 0) (hacc : batch.acc = none) (hrm : batch.rmScores = none)
    (hne : batch.samples ≠ []) (hfits : ∀ sample ∈ batch.samples, Fits batch.responseLength sample) :
    ∃ result, call config none batch = .ok result ∧
      result.reward = batch.samples.map (rewardRow config batch.responseLength) := by
  obtain ⟨metrics, hverify⟩ := exists_verify (K := K) hne
  have hplaced : (batch.samples.zip (batch.samples.map fun sample =>
      if sample.resolved then (1 : K) else 0)).mapM (fun e =>
        placeScore batch.responseLength (validResponseLength batch.responseLength e.1) e.2) =
      .ok (batch.samples.map fun sample => (List.replicate batch.responseLength 0).set
        (validResponseLength batch.responseLength sample - 1) (if sample.resolved then 1 else 0)) := by
    rw [Except.mapM_eq_ok_iff, zip_map_self, List.forall₂_map_left_iff, List.forall₂_map_right_iff,
      List.forall₂_same]
    intro sample hsample
    exact placeScore_of_fits (hfits sample hsample) _
  have hscaled := addScaled_zeros config.rewardCoef batch.responseLength batch.samples (fun sample =>
    (List.replicate batch.responseLength (0 : K)).set
      (validResponseLength batch.responseLength sample - 1) (if sample.resolved then 1 else 0))
    (fun sample => by simp)
  have hrows : (batch.samples.map fun sample => ((List.replicate batch.responseLength (0 : K)).set
      (validResponseLength batch.responseLength sample - 1)
        (if sample.resolved then 1 else 0)).map (config.rewardCoef * ·)) =
      batch.samples.map (rewardRow config batch.responseLength) := by
    apply List.map_congr_left
    intro sample _
    rw [rewardRow, List.map_set, List.map_replicate, mul_zero]
  simp only [call, verified, hacc, hverify, Except.ok_bind, hplaced, rewardTensor, hrm, if_pos hcoef,
    hscaled, hrows]
  cases config.stopProperlyPenalty with
  | none => exact ⟨_, rfl, rfl⟩
  | some coef =>
    simp only [applyStopProperlyPenalty_eq]
    exact ⟨_, rfl, rfl⟩

/-- The sum of a row of zeros with one score. -/
lemma sum_set_replicate {n i : ℕ} (h : i < n) (x : K) : ((List.replicate n 0).set i x).sum = x := by
  rw [List.sum_set, if_pos (by rwa [List.length_replicate]), List.take_replicate, List.drop_replicate]
  simp

/-- The score of a row is that of its sample. -/
lemma sum_rewardRow (config : RewardConfig K) {responseLength : ℕ} {sample : Sample ι}
    (h : Fits responseLength sample) : (rewardRow config responseLength sample).sum =
      WeightedMean.value Sample.resolved config.rewardCoef sample := by
  obtain ⟨hpos, hle⟩ := h
  exact sum_set_replicate (by omega) _

/-! ## Baselines -/

section Ordered

variable [DecidableEq ι] [LinearOrder K] [IsStrictOrderedRing K]

/-- A standard deviation is not negative, and `epsilon` is positive. -/
def GroupEstimator.Proper : GroupEstimator K → Prop
  | .grpo std epsilon _ => (∀ scores, 0 ≤ std scores) ∧ 0 < epsilon
  | .rloo | .opo => True

omit [LinearOrder K] [IsStrictOrderedRing K] in
/-- The advantages of an estimator are its scores at the tokens. -/
lemma computeAdvantage_eq (estimator : GroupEstimator K) (multiTurn : Bool) (responseLength : ℕ)
    (samples : List (Sample ι)) (tokenLevelRewards : List (List K)) :
    computeAdvantage estimator multiTurn responseLength samples tokenLevelRewards =
      spread (responsesOf estimator multiTurn responseLength samples tokenLevelRewards)
        (estimator.score (responsesOf estimator multiTurn responseLength samples
          tokenLevelRewards)) := by
  cases estimator <;> rfl

/-- The baseline of a group: nothing for a group of one, and a weighted mean of the scores for others. -/
def IsBaseline (responses : List (Response ι K)) (baseline : K) : Prop :=
  if responses.length = 1 then baseline = 0
  else ∃ w : Response ι K → K, (∀ r ∈ responses, 0 < w r) ∧
    baseline * (responses.map w).sum = (responses.map fun r => w r * r.score).sum

/-- The mean of the scores. -/
lemma isBaseline_id2mean {batch : List (Response ι K)} {index : ι} (hne : group batch index ≠ []) :
    IsBaseline (group batch index) (id2mean batch index) := by
  rw [IsBaseline]
  split_ifs with hone
  · rw [id2mean, scoresOf_eq, List.length_map, if_pos hone]
  · refine ⟨fun _ => 1, fun _ _ => one_pos, ?_⟩
    have hpos := List.length_pos_of_ne_nil hne
    rw [id2mean_eq (by omega)]
    simp [hpos.ne']

/-- The mean of the scores, weighted with the lengths. -/
lemma isBaseline_id2bsl {batch : List (Response ι K)} (hlength : ∀ r ∈ batch, 0 < r.length) {index : ι}
    (hne : group batch index ≠ []) : IsBaseline (group batch index) (id2bsl batch index) := by
  have hpos : ∀ r ∈ group batch index, 0 < r.length := fun r hr => hlength r (List.mem_of_mem_filter hr)
  rw [IsBaseline]
  split_ifs with hone
  · rw [id2bsl, scoresOf_eq, List.length_map, if_pos hone]
  · refine ⟨Response.length, hpos, ?_⟩
    exact id2bsl_mul hone ((WeightedMean.sum_pos_iff hpos).mpr hne).ne'

/-- **An estimator compares a score with a baseline of its group.** -/
lemma exists_baseline {estimator : GroupEstimator K} (hproper : estimator.Proper)
    {batch : List (Response ι K)} (hlength : estimator = .opo → ∀ r ∈ batch, 0 < r.length) (index : ι)
    (hne : group batch index ≠ []) :
    ∃ factor baseline : K, 0 < factor ∧
      (∀ r ∈ group batch index, estimator.score batch r = factor * (r.score - baseline)) ∧
      IsBaseline (group batch index) baseline := by
  cases estimator with
  | grpo std epsilon normAdvByStdInGrpo =>
    obtain ⟨hstd, hepsilon⟩ := hproper
    have hdivisor : 0 < id2std batch std index + epsilon := by
      rw [id2std]
      split_ifs
      · exact add_pos one_pos hepsilon
      · exact add_pos_of_nonneg_of_pos (hstd _) hepsilon
    refine ⟨if normAdvByStdInGrpo then (id2std batch std index + epsilon)⁻¹ else 1,
      id2mean batch index, ?_, fun r hr => ?_, isBaseline_id2mean hne⟩
    · split_ifs
      · exact inv_pos.mpr hdivisor
      · exact one_pos
    · rw [GroupEstimator.score, grpoScore, index_of_mem_group hr]
      cases normAdvByStdInGrpo with
      | false => simp
      | true =>
        rw [if_pos rfl, if_pos rfl]
        ring
  | rloo =>
    have hbaseline := isBaseline_id2mean hne
    by_cases hone : 1 < (group batch index).length
    · have hcast : (1 : K) < (group batch index).length := Nat.one_lt_cast.mpr hone
      refine ⟨(group batch index).length / (((group batch index).length : K) - 1),
        id2mean batch index, div_pos (one_pos.trans hcast) (sub_pos.mpr hcast), fun r hr => ?_,
        hbaseline⟩
      rw [GroupEstimator.score, rlooScore, index_of_mem_group hr, scoresOf_eq, List.length_map]
      rw [if_pos hone]
      ring
    · have hpos := List.length_pos_of_ne_nil hne
      refine ⟨1, id2mean batch index, one_pos, fun r hr => ?_, hbaseline⟩
      rw [IsBaseline, if_pos (by omega)] at hbaseline
      rw [GroupEstimator.score, rlooScore, index_of_mem_group hr, scoresOf_eq, List.length_map,
        if_neg hone, hbaseline, sub_zero, one_mul]
  | opo =>
    refine ⟨1, id2bsl batch index, one_pos, fun r hr => ?_, isBaseline_id2bsl (hlength rfl) hne⟩
    rw [GroupEstimator.score, opoScore, index_of_mem_group hr, one_mul]

/-! ## Signs -/

/-- The rows of an instance. -/
def samplesOf (samples : List (Sample ι)) (uid : ι) : List (Sample ι) :=
  samples.filter fun sample => sample.uid = uid

/-- What an estimator reads of a row of a new batch. -/
def responseOf (config : RewardConfig K) (estimator : GroupEstimator K) (multiTurn : Bool)
    (responseLength : ℕ) (sample : Sample ι) : Response ι K :=
  ⟨sample.uid, rewardRow config responseLength sample,
    estimator.calculationMask multiTurn responseLength sample⟩

omit [LinearOrder K] [IsStrictOrderedRing K] in
/-- The responses to a prompt are those of the rows. -/
lemma group_map_responseOf (config : RewardConfig K) (estimator : GroupEstimator K) (multiTurn : Bool)
    (responseLength : ℕ) (samples : List (Sample ι)) (uid : ι) :
    group (samples.map (responseOf config estimator multiTurn responseLength)) uid =
      (samplesOf samples uid).map (responseOf config estimator multiTurn responseLength) := by
  rw [group, List.filter_map]
  rfl

variable {config : RewardConfig K} {estimator : GroupEstimator K} {multiTurn : Bool}

/-- The sign of a score, in a batch whose responses fit. -/
lemma score_sign (multiTurn : Bool) (hproper : estimator.Proper) (hcoef : 0 < config.rewardCoef) {responseLength : ℕ}
    {samples : List (Sample ι)} (hfits : ∀ sample ∈ samples, Fits responseLength sample)
    {sample : Sample ι} (hsample : sample ∈ samples) :
    (0 < estimator.score (samples.map (responseOf config estimator multiTurn responseLength))
        (responseOf config estimator multiTurn responseLength sample) ↔
      sample.resolved = true ∧ ((samplesOf samples sample.uid).length = 1 ∨
        ∃ other ∈ samplesOf samples sample.uid, other.resolved = false)) ∧
    (estimator.score (samples.map (responseOf config estimator multiTurn responseLength))
        (responseOf config estimator multiTurn responseLength sample) < 0 ↔
      sample.resolved = false ∧
        ∃ other ∈ samplesOf samples sample.uid, other.resolved = true) := by
  have hmem : sample ∈ samplesOf samples sample.uid := by simp [samplesOf, hsample]
  have hlength : estimator = .opo →
      ∀ r ∈ samples.map (responseOf config estimator multiTurn responseLength), 0 < r.length := by
    rintro rfl r hr
    obtain ⟨other, hother, rfl⟩ := List.mem_map.mp hr
    have hpos := (hfits other hother).1
    show (0 : K) < ((responsePart responseLength other.attentionMask).map Nat.cast).sum
    rw [← Nat.cast_list_sum]
    exact Nat.cast_pos.mpr hpos
  have hgroup := group_map_responseOf config estimator multiTurn responseLength samples sample.uid
  have hvalue : ∀ other ∈ samplesOf samples sample.uid,
      (responseOf config estimator multiTurn responseLength other).score =
        WeightedMean.value Sample.resolved config.rewardCoef other := fun other hother =>
    sum_rewardRow config (hfits other (List.mem_of_mem_filter hother))
  obtain ⟨factor, baseline, hfactor, hscore, hbaseline⟩ :=
    exists_baseline hproper hlength sample.uid (by simpa [hgroup] using List.ne_nil_of_mem hmem)
  rw [hscore _ (by rw [hgroup]; exact List.mem_map_of_mem hmem), hvalue sample hmem,
    mul_pos_iff_of_pos_left hfactor]
  have hneg : factor * (WeightedMean.value Sample.resolved config.rewardCoef sample - baseline) < 0 ↔
      WeightedMean.value Sample.resolved config.rewardCoef sample - baseline < 0 := by
    rw [← neg_pos, ← mul_neg, mul_pos_iff_of_pos_left hfactor, neg_pos]
  rw [hneg]
  rw [hgroup, IsBaseline, List.length_map] at hbaseline
  split_ifs at hbaseline with hone
  · -- The only response to its prompt.
    obtain ⟨only, honly⟩ := List.length_eq_one_iff.mp hone
    rw [honly, List.mem_singleton] at hmem
    subst hmem
    rw [honly, hbaseline, sub_zero]
    cases h : sample.resolved with
    | true => simp [WeightedMean.value_of_true, h, hcoef, hcoef.not_gt]
    | false => simp [WeightedMean.value_of_false, h]
  · obtain ⟨w, hw, hmean⟩ := hbaseline
    have hweights : ∀ other ∈ samplesOf samples sample.uid,
        0 < w (responseOf config estimator multiTurn responseLength other) := fun other hother =>
      hw _ (List.mem_map_of_mem hother)
    rw [List.map_map, List.map_map] at hmean
    have hsum := List.map_congr_left (f := (fun r => w r * r.score) ∘
      responseOf config estimator multiTurn responseLength) fun other hother =>
        congrArg (w (responseOf config estimator multiTurn responseLength other) * ·)
          (hvalue other hother)
    rw [hsum] at hmean
    simpa [hone] using WeightedMean.sub_baseline hcoef hweights hmean hmem

omit [LinearOrder K] [IsStrictOrderedRing K] in
/-- The advantages of a new batch are scores at the tokens of the masks. -/
lemma outcomeAdvantages_eq [DecidableEq K] {batch : RewardBatch ι K} (hcoef : config.rewardCoef ≠ 0)
    (hacc : batch.acc = none) (hrm : batch.rmScores = none) (hne : batch.samples ≠ [])
    (hfits : ∀ sample ∈ batch.samples, Fits batch.responseLength sample) :
    outcomeAdvantages config estimator multiTurn batch = .ok (batch.samples.map fun sample =>
      (estimator.calculationMask multiTurn batch.responseLength sample).map (estimator.score
        (batch.samples.map (responseOf config estimator multiTurn batch.responseLength))
        (responseOf config estimator multiTurn batch.responseLength sample) * ·)) := by
  obtain ⟨result, hcall, hreward⟩ := call_of_fits hcoef hacc hrm hne hfits
  have hresponses : responsesOf estimator multiTurn batch.responseLength batch.samples
      (batch.samples.map (rewardRow config batch.responseLength)) =
      batch.samples.map (responseOf config estimator multiTurn batch.responseLength) := by
    rw [responsesOf, List.zipWith_map_right, List.zipWith_self]
    rfl
  rw [outcomeAdvantages, hcall, Except.ok_bind, hreward, computeAdvantage_eq, hresponses, spread,
    List.map_map]
  rfl

/-- Two trajectories of one instance, the first of which resolves it. -/
def twoSamples : RewardBatch ℕ ℚ :=
  ⟨1, [⟨0, "swe", [1], [1], true, none, true⟩, ⟨0, "swe", [1], [1], false, none, true⟩], none, none⟩

/-- The responses of the two trajectories have one token. -/
lemma fits_twoSamples : ∀ sample ∈ twoSamples.samples, Fits twoSamples.responseLength sample := by
  simp [twoSamples, Fits, validResponseLength, responsePart, Slices.slice, Slices.bound]

open Rollout Rollout.Collect Rollout.Dapo

/-- One pass of the filter drops only an instance with no or only resolved trajectories. -/
lemma filterInstance_drops {F : Type} {dapo : Config} {ids : List String} {responses : Responses F}
    {key : String} {out : Responses F × List String}
    (h : filterInstance dapo (responses, ids) key = .ok out) :
    out = (responses, ids) ∨ ∃ d count, out = (responses.erase key, ids ++ [key]) ∧
      responses.get? key = some d ∧ resolvedCount d = .ok count ∧
      (count = dapo.numTrajectories ∨ count = 0) := by
  simp only [filterInstance] at h
  split at h
  · exact .inl (Except.ok.inj h).symm
  · next trajectories hsome =>
    split at h
    · obtain ⟨count, hcount, h⟩ := Except.bind_eq_ok.mp h
      split at h
      · next hextreme =>
        exact .inr ⟨trajectories, count, (Except.ok.inj h).symm, hsome, hcount, hextreme⟩
      · exact .inl (Except.ok.inj h).symm
    · exact .inl (Except.ok.inj h).symm

/-- A dropped instance has no or only resolved trajectories. -/
lemma resolvedCount_of_mem {F : Type} {dapo : Config} {keys ids : List String} {responses : Responses F}
    {out : Responses F × List String}
    (h : keys.foldlM (filterInstance dapo) (responses, ids) = .ok out) {id : String}
    (hid : id ∈ out.2) (hnew : id ∉ ids) :
    ∃ d count, responses.get? id = some d ∧ resolvedCount d = .ok count ∧
      (count = dapo.numTrajectories ∨ count = 0) := by
  induction keys generalizing responses ids with
  | nil =>
    obtain rfl := Except.ok.inj h
    exact absurd hid hnew
  | cons key keys ih =>
    rw [List.foldlM_cons] at h
    obtain ⟨mid, hmid, h⟩ := Except.bind_eq_ok.mp h
    rcases filterInstance_drops hmid with rfl | ⟨d, count, rfl, hd, hcount, hextreme⟩
    · exact ih h hnew
    · by_cases hkey : id = key
      · rw [hkey]
        exact ⟨d, count, hd, hcount, hextreme⟩
      · obtain ⟨d', count', hd', hcount', hextreme'⟩ := ih h (by simp [hnew, hkey])
        rw [Dict.get?_erase, if_neg hkey] at hd'
        exact ⟨d', count', hd', hcount', hextreme'⟩

/-- The number of resolved trajectories. -/
lemma resolvedCount_eq {F : Type} {d : Dict ℕ (Rollout.Response F)} {count : ℕ}
    (h : resolvedCount d = .ok count) :
    count = (d.values.map fun response => response.resolved.getD false).count true := by
  obtain ⟨flags, hflags, hcount⟩ := Except.bind_eq_ok.mp h
  obtain rfl := Except.ok.inj hcount
  clear h hcount
  congr 1
  rw [Except.mapM_eq_ok_iff] at hflags
  generalize d.values = trajectories at hflags
  induction hflags with
  | nil => rfl
  | @cons response flag _ _ hflag hflags ih =>
    rw [List.map_cons, ← ih]
    cases hresolved : response.resolved with
    | none => simp [hresolved] at hflag
    | some resolved =>
      simp only [hresolved, Except.ok.injEq] at hflag
      simp [hflag]

/-- **The filter drops the complete instances** whose trajectories agree. -/
lemma mem_removed_iff {F : Type} {dapo : Config} {responses kept : Responses F}
    {removed : List String} (h : filterEasyHardInstance dapo responses = .ok (kept, removed))
    {id : String} {d : Dict ℕ (Rollout.Response F)} (hd : responses.get? id = some d)
    (hcomplete : isComplete dapo d) :
    id ∈ removed ↔ ∀ flag ∈ d.values.map fun response => response.resolved.getD false,
      ∀ other ∈ d.values.map fun response => response.resolved.getD false, flag = other := by
  obtain ⟨flags, hflags⟩ : ∃ flags, flags =
    d.values.map fun response : Rollout.Response F => response.resolved.getD false := ⟨_, rfl⟩
  have hlength : flags.length = dapo.numTrajectories := by
    rw [hflags, List.length_map, Dict.values, List.length_map]
    simpa [isComplete] using hcomplete
  rw [← hflags]
  constructor
  · intro hid flag hflag other hother
    obtain ⟨d', count, hd', hcount, hextreme⟩ := resolvedCount_of_mem h hid (by simp)
    obtain rfl : d = d' := Option.some.inj (hd.symm.trans hd')
    rw [resolvedCount_eq hcount, ← hflags, ← hlength, List.count_eq_length, List.count_eq_zero]
      at hextreme
    rcases hextreme with hall | hnone
    · rw [← hall flag hflag, ← hall other hother]
    · have hfalse (b : Bool) (hb : b ∈ flags) : b = false :=
        Bool.eq_false_iff.mpr (ne_of_mem_of_not_mem hb hnone)
      rw [hfalse flag hflag, hfalse other hother]
  · intro hequal
    by_contra hid
    have hspec := filterEasyHardInstance_spec h
    have hkept := hspec.get? id
    rw [if_neg hid, hd] at hkept
    obtain ⟨count, hcount, hpos, hlt⟩ :=
      hspec.balanced id (Dict.mem_keys_iff.mpr ⟨d, hd⟩) d hkept hcomplete
    rw [resolvedCount_eq hcount, ← hflags] at hpos hlt
    rw [← hlength] at hlt
    have htrue := List.count_pos_iff.mp hpos
    apply hlt.ne
    rw [List.count_eq_length]
    exact hequal true htrue

/-- Several rows of an instance have no advantages exactly if they agree. -/
lemma forall_score_eq_zero_iff (multiTurn : Bool) (hproper : estimator.Proper)
    (hcoef : 0 < config.rewardCoef) {responseLength : ℕ} {samples : List (Sample ι)}
    (hfits : ∀ sample ∈ samples, Fits responseLength sample) {uid : ι}
    (hseveral : 2 ≤ (samplesOf samples uid).length) :
    (∀ sample ∈ samplesOf samples uid, estimator.score
        (samples.map (responseOf config estimator multiTurn responseLength))
        (responseOf config estimator multiTurn responseLength sample) = 0) ↔
      ∀ sample ∈ samplesOf samples uid, ∀ other ∈ samplesOf samples uid,
        sample.resolved = other.resolved := by
  have hsign (sample : Sample ι) (hsample : sample ∈ samplesOf samples uid) :=
    score_sign multiTurn hproper hcoef hfits (List.mem_of_mem_filter hsample)
  have huid (sample : Sample ι) (hsample : sample ∈ samplesOf samples uid) : sample.uid = uid := by
    simpa using (List.mem_filter.mp hsample).2
  constructor
  · intro h sample hsample other hother
    obtain ⟨hpos, hneg⟩ := hsign sample hsample
    rw [h sample hsample, huid sample hsample] at hpos hneg
    by_contra hdiffer
    cases hresolved : sample.resolved with
    | true =>
      exact lt_irrefl _ (hpos.mpr ⟨hresolved, .inr ⟨other, hother, by simpa [hresolved] using hdiffer⟩⟩)
    | false =>
      exact lt_irrefl _ (hneg.mpr ⟨hresolved, other, hother, by simpa [hresolved] using hdiffer⟩)
  · intro h sample hsample
    obtain ⟨hpos, hneg⟩ := hsign sample hsample
    rw [huid sample hsample] at hpos hneg
    apply le_antisymm
    · refine not_lt.mp fun hlt => ?_
      obtain ⟨hresolved, halone | ⟨other, hother, hunresolved⟩⟩ := hpos.mp hlt
      · omega
      · rw [h sample hsample other hother, hunresolved] at hresolved
        exact Bool.false_ne_true hresolved
    · refine not_lt.mp fun hlt => ?_
      obtain ⟨hunresolved, other, hother, hresolved⟩ := hneg.mp hlt
      rw [h sample hsample other hother, hresolved] at hunresolved
      exact Bool.false_ne_true hunresolved.symm

/-- An answer with two trajectories, the first of which resolves its instance. -/
def twoAnswers : Dict ℕ (Rollout.Response ℚ) :=
  ⟨[(0, ⟨none, some true, [], some true, some true⟩), (1, ⟨none, some true, [], some false, some true⟩)],
    by decide⟩

/-- The answers to the instance of the two trajectories. -/
def twoResponses : Responses ℚ := ⟨[("swe", twoAnswers)], by decide⟩

end Ordered

end ProRLAgent.Trainer
