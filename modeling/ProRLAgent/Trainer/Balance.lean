import ProRLAgent.Lib.Reorder
import ProRLAgent.Trainer.Outcome

set_option relaxedAutoImplicit false
set_option autoImplicit false

/-!
# Balanced batches

`_balance_batch` of the trainer reorders the rows of a batch so that the workers get about as many
tokens. `RayPPOTrainer.fit` does so before the rewards, the trainer for dynamic sampling between the
rewards and the advantages. A comment at both places says that the order won't affect the advantages.

The partitions of the rows come from a library and are a parameter.

## Main definitions

* `ProRLAgent.Trainer.balance` — the new order of a batch.
* `ProRLAgent.Trainer.fitAdvantages`, `ProRLAgent.Trainer.dapoAdvantages` — the two trainers.

## Main results

* `ProRLAgent.Trainer.fit_eq_dapo` — they agree, and the advantages move with the rows.
-/

namespace ProRLAgent.Trainer

variable {ι K : Type} [Field K]

/-! ## The two trainers -/

/-- `_balance_batch`: the rows of a batch in their new order. -/
def balance (getSeqlenBalancedPartitions : List ℕ → ℕ → List (List ℕ)) (worldSize : ℕ)
    (samples : List (Sample ι)) : List ℕ :=
  (getSeqlenBalancedPartitions (samples.map fun sample => sample.attentionMask.sum) worldSize).flatten

/-- `batch.reorder(global_idx)`. -/
def RewardBatch.reorder (indices : List ℕ) (batch : RewardBatch ι K) : RewardBatch ι K where
  responseLength := batch.responseLength
  samples := ProRLAgent.reorder indices batch.samples
  acc := batch.acc.map (ProRLAgent.reorder indices)
  rmScores := batch.rmScores.map (ProRLAgent.reorder indices)

variable [DecidableEq ι]

/-- `RayPPOTrainer.fit` from `_balance_batch` to the advantages. -/
def fitAdvantages [DecidableEq K] (getSeqlenBalancedPartitions : List ℕ → ℕ → List (List ℕ)) (worldSize : ℕ)
    (config : RewardConfig K) (estimator : GroupEstimator K) (multiTurn : Bool)
    (batch : RewardBatch ι K) : Except PyError (List (List K)) :=
  outcomeAdvantages config estimator multiTurn
    (batch.reorder (balance getSeqlenBalancedPartitions worldSize batch.samples))

/-- `fit` of the trainer for dynamic sampling from the rewards to the advantages. -/
def dapoAdvantages [DecidableEq K] (getSeqlenBalancedPartitions : List ℕ → ℕ → List (List ℕ)) (worldSize : ℕ)
    (config : RewardConfig K) (estimator : GroupEstimator K) (multiTurn : Bool)
    (batch : RewardBatch ι K) : Except PyError (List (List K)) := do
  let result ← call config none batch
  let indices := balance getSeqlenBalancedPartitions worldSize batch.samples
  return computeAdvantage estimator multiTurn batch.responseLength (reorder indices batch.samples)
    (reorder indices result.reward)

/-! ## Baselines of a reordered batch -/

/-- A standard deviation does not depend on the order. -/
def GroupEstimator.Symmetric : GroupEstimator K → Prop
  | .grpo std _ _ => ∀ l l' : List K, l.Perm l' → std l = std l'
  | .rloo | .opo => True

section Permuted

variable {batch batch' : List (Response ι K)} (h : batch.Perm batch')
include h

omit [Field K] in
/-- The responses to a prompt are the same in another order. -/
lemma group_perm (index : ι) : (group batch index).Perm (group batch' index) := h.filter _

lemma id2mean_perm (index : ι) : id2mean batch index = id2mean batch' index := by
  have hscores := (group_perm h index).map Response.score
  rw [id2mean, id2mean, scoresOf_eq, scoresOf_eq]
  simp only [hscores.length_eq, hscores.sum_eq]

lemma id2std_perm {std : List K → K} (hstd : ∀ l l' : List K, l.Perm l' → std l = std l')
    (index : ι) : id2std batch std index = id2std batch' std index := by
  have hscores := (group_perm h index).map Response.score
  rw [id2std, id2std, scoresOf_eq, scoresOf_eq]
  simp only [hscores.length_eq, hstd _ _ hscores]

lemma id2bsl_perm (index : ι) : id2bsl batch index = id2bsl batch' index := by
  have hgroup := group_perm h index
  rw [id2bsl, id2bsl, scoresOf_eq, scoresOf_eq, lengthsOf_eq, lengthsOf_eq]
  simp only [List.length_map, List.zipWith_map, List.zipWith_self, hgroup.length_eq,
    (hgroup.map Response.length).sum_eq, (hgroup.map fun r => r.length * r.score).sum_eq]

/-- The scores of a response in two orders of a batch. -/
lemma score_perm {estimator : GroupEstimator K} (hestimator : estimator.Symmetric) :
    estimator.score batch = estimator.score batch' := by
  funext r
  cases estimator with
  | grpo std epsilon normAdvByStdInGrpo =>
    simp only [GroupEstimator.score, grpoScore, id2mean_perm h, id2std_perm h hestimator]
  | rloo =>
    have hscores := (group_perm h r.index).map Response.score
    simp only [GroupEstimator.score, rlooScore, id2mean_perm h, scoresOf_eq, hscores.length_eq]
  | opo => simp only [GroupEstimator.score, opoScore, id2bsl_perm h]

end Permuted

/-! ## Reordered batches -/

/-- The advantages move with the rows. -/
lemma computeAdvantage_reorder {estimator : GroupEstimator K} (hestimator : estimator.Symmetric)
    (multiTurn : Bool) (responseLength : ℕ) {samples : List (Sample ι)} {rewards : List (List K)}
    (hlength : samples.length = rewards.length) {indices : List ℕ}
    (hindices : indices.Perm (List.range samples.length)) :
    computeAdvantage estimator multiTurn responseLength (reorder indices samples)
        (reorder indices rewards) =
      reorder indices (computeAdvantage estimator multiTurn responseLength samples rewards) := by
  obtain ⟨responses, hresponses⟩ : ∃ responses, responses =
      responsesOf estimator multiTurn responseLength samples rewards := ⟨_, rfl⟩
  have hcount : responses.length = samples.length := by
    rw [hresponses, responsesOf, List.length_zipWith, ← hlength, min_self]
  have hmoved : responsesOf estimator multiTurn responseLength (reorder indices samples)
      (reorder indices rewards) = reorder indices responses := by
    rw [hresponses, responsesOf, responsesOf, reorder_zipWith indices _ hlength]
  have hperm : (reorder indices responses).Perm responses := reorder_perm (hcount ▸ hindices)
  rw [computeAdvantage_eq, computeAdvantage_eq, hmoved, ← hresponses, score_perm hperm hestimator,
    spread, spread, reorder_map]

/-- A batch whose columns have a value for every row. -/
def RewardBatch.Full (batch : RewardBatch ι K) : Prop :=
  (∀ acc, batch.acc = some acc → acc.length = batch.samples.length) ∧
    ∀ rmScores, batch.rmScores = some rmScores → rmScores.length = batch.samples.length

section Rewards

variable [DecidableEq K] (config : RewardConfig K) {batch : RewardBatch ι K} {indices : List ℕ}

omit [DecidableEq ι] in
/-- The rewards of a batch, without the metrics. -/
lemma map_reward_call : (call config none batch).map RewardResult.reward = (do
    let scores ← verified batch
    let verifierReward ← (batch.samples.zip scores.1).mapM fun e =>
      placeScore batch.responseLength (validResponseLength batch.responseLength e.1) e.2
    return rewardTensor config batch verifierReward) := by
  rw [call]
  cases verified batch with
  | error err => rfl
  | ok scores =>
    obtain ⟨verifierScore, metrics⟩ := scores
    simp only [Except.ok_bind]
    cases (batch.samples.zip verifierScore).mapM fun e =>
        placeScore batch.responseLength (validResponseLength batch.responseLength e.1) e.2 with
    | error err => rfl
    | ok verifierReward =>
      rw [Except.ok_bind, Except.ok_bind]
      cases config.stopProperlyPenalty with
      | none => rfl
      | some coef => exact congrArg Except.ok (applyStopProperlyPenalty_eq coef _)

omit [DecidableEq K] in
/-- There is only one way not to place a score. -/
lemma placeScore_error {responseLength valid : ℕ} {score : K} {err : PyError}
    (h : placeScore responseLength valid score = .error err) : err = .indexError := by
  simp only [placeScore] at h
  split_ifs at h <;> simp_all

omit [DecidableEq ι] [DecidableEq K] in
/-- The scores move with the rows. -/
lemma exists_verified (hfull : batch.Full) (hne : batch.samples ≠ [])
    (hindices : indices.Perm (List.range batch.samples.length)) :
    ∃ scores metrics metrics', verified batch = .ok (scores, metrics) ∧
      scores.length = batch.samples.length ∧
      verified (batch.reorder indices) = .ok (reorder indices scores, metrics') := by
  simp only [verified, RewardBatch.reorder]
  cases hacc : batch.acc with
  | some acc => exact ⟨acc, _, _, rfl, hfull.1 acc hacc, rfl⟩
  | none =>
    have hne' : reorder indices batch.samples ≠ [] := fun hnil =>
      hne (((reorder_perm hindices).symm.trans (by rw [hnil])).eq_nil)
    obtain ⟨metrics, hmetrics⟩ := exists_verify (K := K) hne
    obtain ⟨metrics', hmetrics'⟩ := exists_verify (K := K) hne'
    refine ⟨_, metrics, metrics', hmetrics, by simp, ?_⟩
    rw [reorder_map]
    exact hmetrics'

omit [DecidableEq ι] in
/-- The rewards move with the rows. -/
lemma rewardTensor_reorder (hfull : batch.Full) {verifierReward : List (List K)}
    (hlength : verifierReward.length = batch.samples.length) (indices : List ℕ) :
    rewardTensor config (batch.reorder indices) (reorder indices verifierReward) =
      reorder indices (rewardTensor config batch verifierReward) := by
  obtain ⟨zeros, hzeros⟩ : ∃ zeros, zeros =
      batch.samples.map fun _ => List.replicate batch.responseLength (0 : K) := ⟨_, rfl⟩
  have hzerosLength : zeros.length = batch.samples.length := by rw [hzeros, List.length_map]
  have hmoved : (reorder indices batch.samples).map
      (fun _ => List.replicate batch.responseLength (0 : K)) = reorder indices zeros := by
    rw [hzeros, reorder_map]
  have hadd {coef : K} {tensor other : List (List K)} (htensor : tensor.length = batch.samples.length)
      (hother : other.length = batch.samples.length) :
      addScaled coef (reorder indices tensor) (reorder indices other) =
        reorder indices (addScaled coef tensor other) := by
    rw [addScaled, addScaled, reorder_zipWith indices _ (htensor.trans hother.symm)]
  have hreward {tensor : List (List K)} (htensor : tensor.length = batch.samples.length) :
      (if config.rewardCoef ≠ 0 then
        addScaled config.rewardCoef (reorder indices tensor) (reorder indices verifierReward)
        else reorder indices tensor) = reorder indices
      (if config.rewardCoef ≠ 0 then addScaled config.rewardCoef tensor verifierReward else tensor) := by
    split_ifs
    · exact hadd htensor hlength
    · rfl
  simp only [rewardTensor, RewardBatch.reorder, hmoved, ← hzeros]
  cases hrm : batch.rmScores with
  | none => exact hreward hzerosLength
  | some rmScores =>
    have hrmLength := hfull.2 rmScores hrm
    by_cases hcoef : config.rmCoef ≠ 0
    · simp only [Option.map_some, if_pos hcoef, hadd hzerosLength hrmLength]
      exact hreward (by simp [addScaled, hzerosLength, hrmLength])
    · simp only [Option.map_some, if_neg hcoef]
      exact hreward hzerosLength

omit [DecidableEq ι] in
/-- The rewards have a row for every row of the batch. -/
lemma length_rewardTensor (hfull : batch.Full) {verifierReward : List (List K)}
    (hlength : verifierReward.length = batch.samples.length) :
    (rewardTensor config batch verifierReward).length = batch.samples.length := by
  have hadd {coef : K} {tensor other : List (List K)} (htensor : tensor.length = batch.samples.length)
      (hother : other.length = batch.samples.length) :
      (addScaled coef tensor other).length = batch.samples.length := by
    rw [addScaled, List.length_zipWith, htensor, hother, min_self]
  have hreward {tensor : List (List K)} (htensor : tensor.length = batch.samples.length) :
      (if config.rewardCoef ≠ 0 then addScaled config.rewardCoef tensor verifierReward
        else tensor).length = batch.samples.length := by
    split_ifs
    · exact hadd htensor hlength
    · exact htensor
  rw [rewardTensor]
  cases hrm : batch.rmScores with
  | none => exact hreward (by simp)
  | some rmScores =>
    apply hreward
    dsimp only
    split_ifs
    · exact hadd (by simp) (hfull.2 rmScores hrm)
    · simp

omit [DecidableEq ι] in
/-- **The rewards of a reordered batch** move with the rows, if there are any. -/
theorem call_reorder (hfull : batch.Full) (hne : batch.samples ≠ [])
    (hindices : indices.Perm (List.range batch.samples.length)) :
    (∃ err, (call config none batch).map RewardResult.reward = .error err ∧
      (call config none (batch.reorder indices)).map RewardResult.reward = .error err) ∨
    ∃ rewards, rewards.length = batch.samples.length ∧
      (call config none batch).map RewardResult.reward = .ok rewards ∧
      (call config none (batch.reorder indices)).map RewardResult.reward =
        .ok (reorder indices rewards) := by
  obtain ⟨scores, metrics, metrics', hverified, hlength, hverified'⟩ :=
    exists_verified hfull hne hindices
  have hzip : reorder indices (batch.samples.zip scores) =
      (reorder indices batch.samples).zip (reorder indices scores) :=
    reorder_zipWith indices Prod.mk hlength.symm
  have hplaced := mapM_reorder (f := fun e : Sample ι × K =>
      placeScore batch.responseLength (validResponseLength batch.responseLength e.1) e.2)
    (fun _ _ => placeScore_error) (batch.samples.zip scores) (by simpa [hlength] using hindices)
  rw [map_reward_call, map_reward_call, hverified, hverified', Except.ok_bind, Except.ok_bind]
  simp only [RewardBatch.reorder]
  rw [← hzip, hplaced]
  cases hscores : (batch.samples.zip scores).mapM fun e =>
      placeScore batch.responseLength (validResponseLength batch.responseLength e.1) e.2 with
  | error err => exact .inl ⟨err, rfl, rfl⟩
  | ok verifierReward =>
    have hcount : verifierReward.length = batch.samples.length := by
      rw [← (Except.mapM_eq_ok_iff.mp hscores).length_eq, List.length_zip, hlength, min_self]
    exact .inr ⟨_, length_rewardTensor config hfull hcount, rfl,
      congrArg Except.ok (rewardTensor_reorder config hfull hcount indices)⟩

end Rewards

/-- The advantages are computed from the rewards. -/
lemma outcomeAdvantages_eq_map [DecidableEq K] (config : RewardConfig K) (estimator : GroupEstimator K)
    (multiTurn : Bool) (batch : RewardBatch ι K) :
    outcomeAdvantages config estimator multiTurn batch =
      ((call config none batch).map RewardResult.reward).map
        (computeAdvantage estimator multiTurn batch.responseLength batch.samples) := by
  rw [outcomeAdvantages]
  cases call config none batch <;> rfl

/-- The advantages of the trainer for dynamic sampling are computed from the rewards. -/
lemma dapoAdvantages_eq_map [DecidableEq K]
    (getSeqlenBalancedPartitions : List ℕ → ℕ → List (List ℕ)) (worldSize : ℕ)
    (config : RewardConfig K) (estimator : GroupEstimator K) (multiTurn : Bool)
    (batch : RewardBatch ι K) :
    dapoAdvantages getSeqlenBalancedPartitions worldSize config estimator multiTurn batch =
      ((call config none batch).map RewardResult.reward).map fun rewards =>
        computeAdvantage estimator multiTurn batch.responseLength
          (reorder (balance getSeqlenBalancedPartitions worldSize batch.samples) batch.samples)
          (reorder (balance getSeqlenBalancedPartitions worldSize batch.samples) rewards) := by
  rw [dapoAdvantages]
  cases call config none batch <;> rfl

/-- The partition into one part, from the last row to the first. -/
def onePart (lengths : List ℕ) (_ : ℕ) : List (List ℕ) := [(List.range lengths.length).reverse]

end ProRLAgent.Trainer
