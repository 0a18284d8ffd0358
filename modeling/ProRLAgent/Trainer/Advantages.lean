import ProRLAgent.Lib.Dict
import ProRLAgent.Lib.WeightedMean
import Mathlib.Algebra.BigOperators.Field
import Mathlib.Algebra.BigOperators.Ring.List
import Mathlib.Algebra.BigOperators.Intervals
import Mathlib.Algebra.Field.Rat
import Mathlib.Tactic.FieldSimp
import Mathlib.Tactic.LinearCombination
import Mathlib.Tactic.Ring

set_option relaxedAutoImplicit false
set_option autoImplicit false

/-!
# Advantages

The estimators of `verl_custom/trainer/ppo/core_algos.py`, over a field instead of floats. For the
estimators with groups a response has one score, the sum of its token rewards, and its advantage is
the score without a baseline that the group gives; a group of one has no baseline. The others go over
the tokens from the last to the first.

Whitening and the standard deviation come from libraries and are parameters. In the code a divisor of
zero gives no number; here a standard deviation is not negative and `epsilon` is positive, and only
responses without tokens make the divisor of `compute_opo_outcome_advantage` zero.

## Main definitions

* `ProRLAgent.Trainer.grpoScore`, `ProRLAgent.Trainer.rlooScore`, `ProRLAgent.Trainer.opoScore` — the
  scores of a group without their baseline.
* `ProRLAgent.Trainer.gaeAdvantages`, `ProRLAgent.Trainer.reinforceReturns`,
  `ProRLAgent.Trainer.remaxReturns` — the estimators over the tokens.
* `ProRLAgent.Trainer.rewardToGo` — the discounted rewards from a token on.

## Main results

* `ProRLAgent.Trainer.rlooScore_eq` — the baseline is the mean of the other responses.
* `ProRLAgent.Trainer.sum_scores` — the advantages of a group cancel.
* `ProRLAgent.Trainer.returns_gae` — the returns do not depend on the values if `lam` is one.
* `ProRLAgent.Trainer.reinforce_eq_remax` — two estimators agree.
-/

namespace ProRLAgent.Trainer

variable {ι K : Type} [Field K]

/-! ## Groups -/

/-- What the estimators with groups read of a response. -/
structure Response (ι K : Type) where
  /-- The prompt that it answers. -/
  index : ι
  tokenLevelRewards : List K
  responseMask : List K

/-- `token_level_rewards.sum(dim=-1)`. -/
def Response.score (r : Response ι K) : K := r.tokenLevelRewards.sum

/-- `response_mask.sum(dim=-1)`. -/
def Response.length (r : Response ι K) : K := r.responseMask.sum

section Grouped

variable [DecidableEq ι] (batch : List (Response ι K))

/-- `id2score`. -/
def id2score : Dict ι (List K) := Dict.group (batch.map fun r => (r.index, r.score))

/-- `id2len`. -/
def id2len : Dict ι (List K) := Dict.group (batch.map fun r => (r.index, r.length))

/-- The values of an index; every index of the batch has some. -/
def valuesOf (d : Dict ι (List K)) (index : ι) : List K := (d.get? index).getD []

/-- `id2mean`. -/
def id2mean (index : ι) : K :=
  let scores := valuesOf (id2score batch) index
  if scores.length = 1 then 0 else scores.sum / scores.length

/-- `id2std`. -/
def id2std (std : List K → K) (index : ι) : K :=
  let scores := valuesOf (id2score batch) index
  if scores.length = 1 then 1 else std scores

/-- `id2bsl`. -/
def id2bsl (index : ι) : K :=
  let scores := valuesOf (id2score batch) index
  let lengths := valuesOf (id2len batch) index
  if scores.length = 1 then 0 else (List.zipWith (· * ·) lengths scores).sum / lengths.sum

/-- The score of a response in `compute_grpo_outcome_advantage`. -/
def grpoScore (std : List K → K) (epsilon : K) (normAdvByStdInGrpo : Bool) (r : Response ι K) : K :=
  if normAdvByStdInGrpo then
    (r.score - id2mean batch r.index) / (id2std batch std r.index + epsilon)
  else r.score - id2mean batch r.index

/-- The score of a response in `compute_rloo_outcome_advantage`. -/
def rlooScore (r : Response ι K) : K :=
  let responseNum := (valuesOf (id2score batch) r.index).length
  if 1 < responseNum then
    r.score * responseNum / ((responseNum : K) - 1) -
      id2mean batch r.index * responseNum / ((responseNum : K) - 1)
  else r.score

/-- The score of a response in `compute_opo_outcome_advantage`. -/
def opoScore (r : Response ι K) : K := r.score - id2bsl batch r.index

/-- `scores.unsqueeze(-1) * response_mask`. -/
def spread (score : Response ι K → K) : List (List K) :=
  batch.map fun r => r.responseMask.map (score r * ·)

/-- **`compute_grpo_outcome_advantage`**: the advantages, which are also the returns. -/
def computeGrpoOutcomeAdvantage (std : List K → K) (epsilon : K) (normAdvByStdInGrpo : Bool) :
    List (List K) :=
  spread batch (grpoScore batch std epsilon normAdvByStdInGrpo)

/-- **`compute_rloo_outcome_advantage`.** -/
def computeRlooOutcomeAdvantage : List (List K) := spread batch (rlooScore batch)

/-- **`compute_opo_outcome_advantage`.** -/
def computeOpoOutcomeAdvantage : List (List K) := spread batch (opoScore batch)

/-- The responses of an index. -/
def group (index : ι) : List (Response ι K) := batch.filter fun r => r.index = index

/-! ### Baselines -/

omit [Field K] in
/-- The values of an index are those of its responses. -/
lemma valuesOf_group (f : Response ι K → K) (index : ι) :
    valuesOf (Dict.group (batch.map fun r => (r.index, f r))) index = (group batch index).map f := by
  rw [valuesOf, Dict.get?_group]
  split_ifs with h
  · simp [group, List.filter_map, Function.comp_def]
  · have hnone : group batch index = [] := by
      simp only [List.map_map, List.mem_map, Function.comp_apply, not_exists, not_and] at h
      simpa [group, List.filter_eq_nil_iff] using h
    simp [hnone]

lemma scoresOf_eq (index : ι) :
    valuesOf (id2score batch) index = (group batch index).map Response.score :=
  valuesOf_group batch Response.score index

lemma lengthsOf_eq (index : ι) :
    valuesOf (id2len batch) index = (group batch index).map Response.length :=
  valuesOf_group batch Response.length index

variable {batch}

omit [Field K] in
/-- A response has the index of its group. -/
lemma index_of_mem_group {r : Response ι K} {index : ι} (h : r ∈ group batch index) :
    r.index = index := by
  simpa using (List.mem_filter.mp h).2

/-- The length of a group of at least two is a number other than zero and one. -/
lemma cast_length_ne [CharZero K] {n : ℕ} (h : 2 ≤ n) : (n : K) ≠ 0 ∧ (n : K) - 1 ≠ 0 := by
  constructor
  · rw [Nat.cast_ne_zero]
    omega
  · rw [sub_ne_zero, Nat.cast_ne_one]
    omega

/-- **The baseline of RLOO is the mean of the other responses** to the prompt. A response without
others keeps its score. -/
theorem rlooScore_eq [CharZero K] {before after : List (Response ι K)} {r : Response ι K}
    (hbatch : batch = before ++ r :: after) :
    rlooScore batch r =
      r.score - ((group (before ++ after) r.index).map Response.score).sum /
        (group (before ++ after) r.index).length := by
  have hgroup : group batch r.index = group before r.index ++ r :: group after r.index := by
    simp [group, hbatch]
  have hothers : group (before ++ after) r.index = group before r.index ++ group after r.index := by
    simp [group]
  obtain ⟨s, hs⟩ : ∃ s, s = ((group (before ++ after) r.index).map Response.score).sum := ⟨_, rfl⟩
  obtain ⟨n, hn⟩ : ∃ n, n = (group (before ++ after) r.index).length := ⟨_, rfl⟩
  have hsum : ((group batch r.index).map Response.score).sum = s + r.score := by
    rw [hs, hgroup, hothers]
    simp only [List.map_append, List.map_cons, List.sum_append, List.sum_cons]
    ring
  have hlength : (group batch r.index).length = n + 1 := by
    rw [hn, hgroup, hothers]
    simp only [List.length_append, List.length_cons]
    omega
  rw [rlooScore, id2mean, scoresOf_eq, List.length_map, hlength, hsum, ← hs, ← hn]
  rcases Nat.eq_zero_or_pos n with rfl | hpos
  · simp
  · obtain ⟨hne, hne'⟩ := cast_length_ne (K := K) (show 2 ≤ n + 1 by omega)
    have hn0 : (n : K) ≠ 0 := Nat.cast_ne_zero.mpr hpos.ne'
    rw [if_pos (by omega), if_neg (by omega)]
    push_cast at hne hne' ⊢
    rw [add_sub_cancel_right]
    field_simp
    ring

/-- Two answers to one prompt, one of them correct, and one to another. -/
def threeAnswers : List (Response ℕ ℚ) := [⟨0, [1], [1]⟩, ⟨0, [0, 0], [1, 1]⟩, ⟨1, [1], [1]⟩]

/-- The correct answer is compared with the other one. -/
theorem rlooScore_eq_three : rlooScore threeAnswers ⟨0, [1], [1]⟩ =
    (⟨0, [1], [1]⟩ : Response ℕ ℚ).score -
      ((group ([] ++ [⟨0, [0, 0], [1, 1]⟩, ⟨1, [1], [1]⟩]) 0).map Response.score).sum /
        (group ([] ++ [(⟨0, [0, 0], [1, 1]⟩ : Response ℕ ℚ), ⟨1, [1], [1]⟩]) 0).length :=
  rlooScore_eq rfl

/-- The mean of a group of at least two. -/
lemma id2mean_eq {index : ι} (h : 2 ≤ (group batch index).length) :
    id2mean batch index =
      ((group batch index).map Response.score).sum / (group batch index).length := by
  rw [id2mean, scoresOf_eq, List.length_map]
  exact if_neg (by omega)

/-- The baseline of a group of several is the mean with the lengths as weights. -/
lemma id2bsl_mul {index : ι} (h : (group batch index).length ≠ 1)
    (hlength : ((group batch index).map Response.length).sum ≠ 0) :
    id2bsl batch index * ((group batch index).map Response.length).sum =
      ((group batch index).map fun r => r.length * r.score).sum := by
  rw [id2bsl, scoresOf_eq, lengthsOf_eq]
  rw [List.length_map, if_neg h, div_mul_cancel₀ _ hlength, List.zipWith_map, List.zipWith_self]

/-- The scores of a group without its mean cancel. -/
lemma sum_sub_mean [CharZero K] {index : ι} (h : 2 ≤ (group batch index).length) :
    ((group batch index).map fun r => r.score - id2mean batch index).sum = 0 := by
  have hsum := WeightedMean.sum_mul_sub (group batch index) (fun _ => 1) Response.score (id2mean batch index)
  simp only [one_mul, List.map_const', List.sum_replicate, nsmul_eq_mul, mul_one] at hsum
  rw [hsum, id2mean_eq h, div_mul_cancel₀ _ (cast_length_ne h).1, sub_self]

/-- A multiple of the differences of a group to its mean cancels too. -/
lemma sum_eq_zero_of_forall [CharZero K] {index : ι} (h : 2 ≤ (group batch index).length)
    {score : Response ι K → K} (c : K)
    (hscore : ∀ r ∈ group batch index, score r = c * (r.score - id2mean batch index)) :
    ((group batch index).map score).sum = 0 := by
  rw [List.map_congr_left hscore, List.sum_map_mul_left, sum_sub_mean h, mul_zero]

/-- **The advantages of a group cancel**: with GRPO, scaled or not, and with RLOO the scores of at
least two responses, with OPO the advantages of their tokens. -/
theorem sum_scores [CharZero K] {index : ι} (h : 2 ≤ (group batch index).length)
    (std : List K → K) (epsilon : K) (normAdvByStdInGrpo : Bool) :
    ((group batch index).map (grpoScore batch std epsilon normAdvByStdInGrpo)).sum = 0 ∧
    ((group batch index).map (rlooScore batch)).sum = 0 ∧
    (((group batch index).map Response.length).sum ≠ 0 →
      ((group batch index).map fun r => (r.responseMask.map (opoScore batch r * ·)).sum).sum = 0) := by
  refine ⟨?_, ?_, fun hlength => ?_⟩
  · cases normAdvByStdInGrpo with
    | false =>
      apply sum_eq_zero_of_forall h 1
      intro r hr
      rw [grpoScore, if_neg Bool.false_ne_true, index_of_mem_group hr, one_mul]
    | true =>
      apply sum_eq_zero_of_forall h (id2std batch std index + epsilon)⁻¹
      intro r hr
      rw [grpoScore, if_pos rfl, index_of_mem_group hr]
      ring
  · apply sum_eq_zero_of_forall h
      ((group batch index).length / (((group batch index).length : K) - 1))
    intro r hr
    rw [rlooScore, index_of_mem_group hr, scoresOf_eq, List.length_map]
    rw [if_pos (by omega)]
    ring
  · have htokens : ∀ r ∈ group batch index, (r.responseMask.map (opoScore batch r * ·)).sum =
        r.length * (r.score - id2bsl batch index) := by
      intro r hr
      rw [List.sum_map_mul_left, List.map_id', opoScore, index_of_mem_group hr, Response.length]
      ring
    rw [List.map_congr_left htokens, WeightedMean.sum_mul_sub, id2bsl_mul (by omega) hlength, sub_self]

/-- The two answers to one prompt. -/
theorem sum_scores_three :
    ((group threeAnswers 0).map (grpoScore threeAnswers (fun _ => 1) 0 true)).sum = 0 ∧
    ((group threeAnswers 0).map (rlooScore threeAnswers)).sum = 0 ∧
    (((group threeAnswers 0).map Response.length).sum ≠ 0 →
      ((group threeAnswers 0).map fun r =>
        (r.responseMask.map (opoScore threeAnswers r * ·)).sum).sum = 0) :=
  sum_scores (by decide) (fun _ => 1) 0 true

end Grouped

/-! ## Tokens -/

section Tokens

/-- A token of `compute_gae_advantage_return`, from the last one on: its value, the advantage, and
the advantages so far. -/
def gaeStep (gamma lam : K) (e : K × K) (state : K × K × List K) : K × K × List K :=
  let (nextvalues, lastgaelam, advantages) := state
  let delta := e.1 + gamma * nextvalues - e.2
  let lastgaelam := delta + gamma * lam * lastgaelam
  (e.2, lastgaelam, lastgaelam :: advantages)

/-- The advantages of a response before they are whitened. -/
def gaeAdvantages (gamma lam : K) (rewards values : List K) : List K :=
  ((rewards.zip values).foldr (gaeStep gamma lam) (0, 0, [])).2.2

/-- The returns of a response. -/
def gaeReturns (gamma lam : K) (rewards values : List K) : List K :=
  List.zipWith (· + ·) (gaeAdvantages gamma lam rewards values) values

/-- **`compute_gae_advantage_return`**: the advantages and the returns. -/
def computeGaeAdvantageReturn (maskedWhiten : List (List K) → List (List K) → List (List K))
    (gamma lam : K) (tokenLevelRewards values responseMask : List (List K)) :
    List (List K) × List (List K) :=
  (maskedWhiten (List.zipWith (gaeAdvantages gamma lam) tokenLevelRewards values) responseMask,
    List.zipWith (gaeReturns gamma lam) tokenLevelRewards values)

/-- A token of `compute_reinforce_plus_plus_outcome_advantage`: the return that goes on, which is
reset behind the end of the response, and the returns so far. -/
def reinforceStep (gamma : K) (e : K × K) (state : K × List K) : K × List K :=
  let runningReturn := e.1 + gamma * state.1
  (runningReturn * e.2, runningReturn :: state.2)

/-- The returns of a response. -/
def reinforceReturns (gamma : K) (rewards mask : List K) : List K :=
  ((rewards.zip mask).foldr (reinforceStep gamma) (0, [])).2

/-- **`compute_reinforce_plus_plus_outcome_advantage`**: the advantages and the returns. -/
def computeReinforcePlusPlusOutcomeAdvantage
    (maskedWhiten : List (List K) → List (List K) → List (List K)) (gamma : K)
    (tokenLevelRewards responseMask : List (List K)) : List (List K) × List (List K) :=
  let returns := List.zipWith (reinforceReturns gamma) tokenLevelRewards responseMask
  (List.zipWith (List.zipWith (· * ·)) (maskedWhiten returns responseMask) responseMask, returns)

/-- `tensor.cumsum(dim=-1)`. -/
def cumsum (l : List K) : List K := (l.scanl (· + ·) 0).tail

/-- The returns of a response. -/
def remaxReturns (rewards mask : List K) : List K :=
  (cumsum (List.zipWith (· * ·) rewards mask).reverse).reverse

/-- **`compute_remax_outcome_advantage`**: the advantages and the returns. -/
def computeRemaxOutcomeAdvantage (tokenLevelRewards : List (List K)) (rewardBaselines : List K)
    (responseMask : List (List K)) : List (List K) × List (List K) :=
  let returns := List.zipWith remaxReturns tokenLevelRewards responseMask
  (List.zipWith (List.zipWith (· - ·)) returns
    (List.zipWith (fun baseline mask => mask.map (baseline * ·)) rewardBaselines responseMask), returns)

/-! ### Rewards to go -/

/-- The discounted sum of rewards. -/
def discounted (gamma : K) (rewards : List K) : K :=
  ((List.range rewards.length).map fun k => gamma ^ k * rewards.getD k 0).sum

/-- **The discounted rewards from each token on.** -/
def rewardToGo (gamma : K) (rewards : List K) : List K :=
  (List.range rewards.length).map fun t => discounted gamma (rewards.drop t)

@[simp] lemma discounted_nil (gamma : K) : discounted gamma [] = 0 := rfl

@[simp] lemma discounted_cons (gamma r : K) (rewards : List K) :
    discounted gamma (r :: rewards) = r + gamma * discounted gamma rewards := by
  rw [discounted, List.length_cons, List.range_succ_eq_map, List.map_cons, List.sum_cons, List.map_map,
    discounted, ← List.sum_map_mul_left]
  simp [Function.comp_def, pow_succ', mul_assoc]

@[simp] lemma rewardToGo_nil (gamma : K) : rewardToGo gamma [] = [] := rfl

@[simp] lemma rewardToGo_cons (gamma r : K) (rewards : List K) :
    rewardToGo gamma (r :: rewards) = discounted gamma (r :: rewards) :: rewardToGo gamma rewards := by
  rw [rewardToGo, List.length_cons, List.range_succ_eq_map]
  simp [rewardToGo, Function.comp_def]

/-- Behind the first token the rewards to go begin with the discounted sum. -/
lemma headD_rewardToGo (gamma : K) (rewards : List K) :
    (rewardToGo gamma rewards).headD 0 = discounted gamma rewards := by
  cases rewards with
  | nil => rfl
  | cons r rewards => simp

/-- The rewards to go are as many as the rewards. -/
@[simp] lemma length_rewardToGo (gamma : K) (rewards : List K) :
    (rewardToGo gamma rewards).length = rewards.length := by
  simp [rewardToGo]

/-- Nothing is to come of zeros. -/
lemma rewardToGo_replicate (gamma : K) (p : ℕ) :
    rewardToGo gamma (List.replicate p 0) = List.replicate p 0 := by
  have hzero (n : ℕ) : discounted gamma (List.replicate n (0 : K)) = 0 := by
    induction n with
    | zero => rfl
    | succ n ih => simp [List.replicate_succ, ih]
  induction p with
  | zero => rfl
  | succ p ih =>
    rw [List.replicate_succ, rewardToGo_cons, ih, ← List.replicate_succ, hzero, List.replicate_succ]

/-- Zeros behind the rewards add nothing. -/
lemma rewardToGo_append_replicate (gamma : K) (rewards : List K) (p : ℕ) :
    rewardToGo gamma (rewards ++ List.replicate p 0) =
      rewardToGo gamma rewards ++ List.replicate p 0 := by
  have hsum : discounted gamma (List.replicate p (0 : K)) = 0 := by
    rw [← headD_rewardToGo, rewardToGo_replicate]
    cases p <;> rfl
  have hadd (l : List K) :
      discounted gamma (l ++ List.replicate p 0) = discounted gamma l := by
    induction l with
    | nil => simpa using hsum
    | cons r l ih => simp [ih]
  induction rewards with
  | nil => simpa using rewardToGo_replicate gamma p
  | cons r rewards ih =>
    have hfirst := hadd (r :: rewards)
    rw [List.cons_append] at hfirst
    rw [List.cons_append, rewardToGo_cons, ih, hfirst, rewardToGo_cons, List.cons_append]

/-! ### Generalized advantages -/

/-- The advantages before a token. -/
lemma gaeAdvantages_cons (gamma lam r v : K) {rewards values : List K}
    (hlength : rewards.length = values.length) :
    gaeAdvantages gamma lam (r :: rewards) (v :: values) =
      (r + gamma * values.headD 0 - v +
        gamma * lam * (gaeAdvantages gamma lam rewards values).headD 0) ::
        gaeAdvantages gamma lam rewards values := by
  have hstate : (rewards.zip values).foldr (gaeStep gamma lam) (0, 0, []) =
      (values.headD 0, (gaeAdvantages gamma lam rewards values).headD 0,
        gaeAdvantages gamma lam rewards values) := by
    cases rewards with
    | nil =>
      obtain rfl := List.eq_nil_of_length_eq_zero hlength.symm
      rfl
    | cons r rewards =>
      cases values with
      | nil => simp at hlength
      | cons v values => rfl
  rw [gaeAdvantages, List.zip_cons_cons, List.foldr_cons, hstate]
  rfl

/-- The rewards with what is left of the values behind them. -/
def bootstrapped (gamma lam : K) (rewards values : List K) : List K :=
  List.zipWith (fun r nextvalues => r + gamma * (1 - lam) * nextvalues) rewards (values.tail ++ [0])

/-- **The returns are rewards to go**, of the rewards with what is left of the values. -/
theorem gaeReturns_eq (gamma lam : K) {rewards values : List K}
    (hlength : rewards.length = values.length) :
    gaeReturns gamma lam rewards values =
      rewardToGo (gamma * lam) (bootstrapped gamma lam rewards values) := by
  induction rewards generalizing values with
  | nil =>
    obtain rfl := List.eq_nil_of_length_eq_zero hlength.symm
    rfl
  | cons r rewards ih =>
    cases values with
    | nil => simp at hlength
    | cons v values =>
      have hlength' : rewards.length = values.length := by simpa using hlength
      have hrest := ih hlength'
      have hboot : bootstrapped gamma lam (r :: rewards) (v :: values) =
          (r + gamma * (1 - lam) * values.headD 0) :: bootstrapped gamma lam rewards values := by
        cases values with
        | nil =>
          obtain rfl := List.eq_nil_of_length_eq_zero hlength'
          rfl
        | cons w values => rfl
      have hhead : (gaeAdvantages gamma lam rewards values).headD 0 + values.headD 0 =
          discounted (gamma * lam) (bootstrapped gamma lam rewards values) := by
        rw [← headD_rewardToGo, ← hrest, gaeReturns]
        cases rewards with
        | nil =>
          obtain rfl := List.eq_nil_of_length_eq_zero hlength'.symm
          simp [gaeAdvantages]
        | cons r' rewards =>
          cases values with
          | nil => simp at hlength'
          | cons w values =>
            rw [gaeAdvantages_cons _ _ _ _ (by simpa using hlength')]
            simp
      rw [gaeReturns, gaeAdvantages_cons _ _ _ _ hlength', List.zipWith_cons_cons, ← gaeReturns, hrest,
        hboot, rewardToGo_cons, discounted_cons, ← hhead]
      congr 1
      ring

/-- **The returns of GAE** are the rewards to go of the rewards with what is left of the values. If
`lam` is one, nothing is left of them. -/
theorem returns_gae (maskedWhiten : List (List K) → List (List K) → List (List K)) (gamma lam : K)
    {tokenLevelRewards values : List (List K)} (responseMask : List (List K))
    (hlength : List.Forall₂ (fun rewards values => rewards.length = values.length)
      tokenLevelRewards values) :
    (computeGaeAdvantageReturn maskedWhiten gamma lam tokenLevelRewards values responseMask).2 =
        List.zipWith (fun rewards values =>
          rewardToGo (gamma * lam) (bootstrapped gamma lam rewards values)) tokenLevelRewards values ∧
      (lam = 1 → (computeGaeAdvantageReturn maskedWhiten gamma lam tokenLevelRewards values
        responseMask).2 = tokenLevelRewards.map (rewardToGo gamma)) := by
  have hboot {rewards values : List K} (h : rewards.length = values.length) :
      bootstrapped gamma 1 rewards values = rewards := by
    have hle : rewards.length ≤ (values.tail ++ [0]).length := by
      simp
      omega
    rw [bootstrapped]
    simp only [sub_self, mul_zero, zero_mul, add_zero]
    have hfst := List.map_fst_zip hle
    rw [List.map_zip_eq_zipWith] at hfst
    exact hfst
  refine ⟨?_, ?_⟩
  · show List.zipWith (gaeReturns gamma lam) tokenLevelRewards values = _
    induction hlength with
    | nil => rfl
    | cons h hlength ih => rw [List.zipWith_cons_cons, List.zipWith_cons_cons, ih, gaeReturns_eq _ _ h]
  · rintro rfl
    show List.zipWith (gaeReturns gamma 1) tokenLevelRewards values = _
    induction hlength with
    | nil => rfl
    | cons h hlength ih =>
      rw [List.zipWith_cons_cons, List.map_cons, ih, gaeReturns_eq _ _ h, hboot h, mul_one]

/-- Two tokens with a reward at the last. -/
theorem returns_gae_two :
    (computeGaeAdvantageReturn (fun advantages _ => advantages) (1 / 2 : ℚ) 1 [[0, 1]] [[3, 5]]
        [[1, 1]]).2 =
        List.zipWith (fun rewards values =>
          rewardToGo (1 / 2 * 1) (bootstrapped (1 / 2) 1 rewards values)) [[0, 1]] [[3, 5]] ∧
      ((1 : ℚ) = 1 → (computeGaeAdvantageReturn (fun advantages _ => advantages) (1 / 2 : ℚ) 1 [[0, 1]]
        [[3, 5]] [[1, 1]]).2 = [[0, 1]].map (rewardToGo (1 / 2))) :=
  returns_gae _ _ _ _ (.cons rfl .nil)

/-! ### Returns of a padded response -/

/-- The returns before a token. -/
lemma reinforceReturns_cons (gamma r m : K) {rewards mask : List K}
    (hlength : rewards.length = mask.length) :
    reinforceReturns gamma (r :: rewards) (m :: mask) =
      (r + gamma * ((reinforceReturns gamma rewards mask).headD 0 * mask.headD 0)) ::
        reinforceReturns gamma rewards mask := by
  have hstate : (rewards.zip mask).foldr (reinforceStep gamma) (0, []) =
      ((reinforceReturns gamma rewards mask).headD 0 * mask.headD 0,
        reinforceReturns gamma rewards mask) := by
    cases rewards with
    | nil =>
      obtain rfl := List.eq_nil_of_length_eq_zero hlength.symm
      simp [reinforceReturns]
    | cons r rewards =>
      cases mask with
      | nil => simp at hlength
      | cons m mask => rfl
  rw [reinforceReturns, List.zip_cons_cons, List.foldr_cons, hstate]
  rfl

/-- The mask of a response that is padded on the right. -/
def paddedMask (n p : ℕ) : List K := List.replicate n 1 ++ List.replicate p 0

/-- Behind the response every reward is a return. -/
lemma reinforceReturns_replicate_zero (gamma : K) (rewards : List K) :
    reinforceReturns gamma rewards (List.replicate rewards.length 0) = rewards := by
  induction rewards with
  | nil => rfl
  | cons r rewards ih =>
    rw [List.length_cons, List.replicate_succ, reinforceReturns_cons _ _ _ (by simp), ih]
    cases rewards <;> simp [List.replicate_succ]

/-- **The returns of REINFORCE++** are the rewards to go of the response, whatever rewards stand at
the padding. -/
theorem reinforceReturns_padded (gamma : K) {n p : ℕ} {rewards : List K}
    (hlength : rewards.length = n + p) :
    reinforceReturns gamma rewards (paddedMask n p) =
      rewardToGo gamma (rewards.take n) ++ rewards.drop n := by
  induction n generalizing rewards with
  | zero =>
    obtain rfl : p = rewards.length := by omega
    simpa [paddedMask] using reinforceReturns_replicate_zero gamma rewards
  | succ n ih =>
    cases rewards with
    | nil =>
      rw [List.length_nil] at hlength
      omega
    | cons r rewards =>
      have hlength' : rewards.length = n + p := by
        rw [List.length_cons] at hlength
        omega
      have hmask : (paddedMask (n + 1) p : List K) = 1 :: paddedMask n p := rfl
      rw [hmask, reinforceReturns_cons _ _ _ (by simpa [paddedMask] using hlength'), ih hlength',
        List.take_succ_cons, List.drop_succ_cons, rewardToGo_cons, List.cons_append, discounted_cons,
        ← headD_rewardToGo]
      congr 3
      cases n with
      | zero => cases p <;> simp [paddedMask, List.replicate_succ]
      | succ n =>
        cases rewards with
        | nil =>
          rw [List.length_nil] at hlength'
          omega
        | cons r' rewards => simp [paddedMask, List.replicate_succ]

/-- The cumulative sum from the last token on. -/
lemma reverse_cumsum_reverse (l : List K) : (cumsum l.reverse).reverse = rewardToGo 1 l := by
  have hscan : (cumsum l.reverse).reverse = (l.scanr (fun r sum => sum + r) 0).dropLast := by
    rw [cumsum, List.scanl_reverse, List.tail_reverse, List.reverse_reverse]
    rfl
  have hfold (l : List K) : l.foldr (fun r sum => sum + r) 0 = discounted 1 l := by
    induction l with
    | nil => rfl
    | cons r l ih =>
      rw [List.foldr_cons, ih, discounted_cons]
      ring
  rw [hscan]
  clear hscan
  induction l with
  | nil => simp
  | cons r l ih =>
    rw [List.scanr_cons, List.dropLast_cons_of_ne_nil List.scanr_ne_nil, ih, hfold, rewardToGo_cons]

/-- The rewards of a padded response. -/
lemma zipWith_paddedMask {n p : ℕ} {rewards : List K} (hlength : rewards.length = n + p) :
    List.zipWith (· * ·) rewards (paddedMask n p) = rewards.take n ++ List.replicate p 0 := by
  have hzero (l : List K) : List.zipWith (· * ·) l (List.replicate l.length 0) =
      List.replicate l.length 0 := by
    induction l with
    | nil => rfl
    | cons r l ih => simp [List.replicate_succ, ih]
  have hone (l : List K) : List.zipWith (· * ·) l (List.replicate l.length 1) = l := by
    induction l with
    | nil => rfl
    | cons r l ih => simp [List.replicate_succ, ih]
  have htake : (rewards.take n).length = n := by
    rw [List.length_take]
    omega
  have hdrop : (rewards.drop n).length = p := by
    rw [List.length_drop]
    omega
  have hfirst := hone (rewards.take n)
  have hrest := hzero (rewards.drop n)
  rw [htake] at hfirst
  rw [hdrop] at hrest
  conv_lhs => rw [← List.take_append_drop n rewards]
  rw [paddedMask, List.zipWith_append (by simp [htake]), hfirst, hrest]

/-- **REINFORCE++ and ReMax agree** on responses that are padded on the right: with discount one the
returns of the one at the response are those of the other, which has none at the padding. -/
theorem reinforce_eq_remax (maskedWhiten : List (List K) → List (List K) → List (List K))
    (rewardBaselines : List K) {tokenLevelRewards responseMask : List (List K)}
    (hmask : List.Forall₂ (fun rewards mask => ∃ n p, rewards.length = n + p ∧ mask = paddedMask n p)
      tokenLevelRewards responseMask) :
    List.zipWith (List.zipWith (· * ·))
        (computeReinforcePlusPlusOutcomeAdvantage maskedWhiten 1 tokenLevelRewards responseMask).2
        responseMask =
      (computeRemaxOutcomeAdvantage tokenLevelRewards rewardBaselines responseMask).2 := by
  show List.zipWith (List.zipWith (· * ·))
    (List.zipWith (reinforceReturns 1) tokenLevelRewards responseMask) responseMask =
      List.zipWith remaxReturns tokenLevelRewards responseMask
  induction hmask with
  | nil => rfl
  | @cons rewards _ _ _ h hmask ih =>
    obtain ⟨n, p, hlength, rfl⟩ := h
    have htake : (rewardToGo 1 (rewards.take n)).length = n := by
      rw [length_rewardToGo, List.length_take, min_eq_left]
      omega
    rw [List.zipWith_cons_cons, List.zipWith_cons_cons, List.zipWith_cons_cons, ih, remaxReturns,
      reinforceReturns_padded 1 hlength, reverse_cumsum_reverse, zipWith_paddedMask hlength,
      rewardToGo_append_replicate, zipWith_paddedMask (by simp; omega), List.take_left' htake]

/-- Two tokens and one of padding. -/
theorem reinforce_eq_remax_two :
    List.zipWith (List.zipWith (· * ·))
        (computeReinforcePlusPlusOutcomeAdvantage (fun returns _ => returns) (1 : ℚ) [[1, 2, 4]]
          [paddedMask 2 1]).2 [paddedMask 2 1] =
      (computeRemaxOutcomeAdvantage [[1, 2, 4]] [3] [paddedMask 2 1]).2 :=
  reinforce_eq_remax _ _ (.cons ⟨2, 1, rfl, rfl⟩ .nil)

end Tokens

end ProRLAgent.Trainer
