import ProRLAgent.Basic
import Mathlib.Algebra.Order.BigOperators.GroupWithZero.List
import Mathlib.Algebra.Order.Field.Basic
import Mathlib.Algebra.Order.Ring.Rat
import Mathlib.Algebra.BigOperators.Group.List.Basic
import Mathlib.Tactic.Linarith
import Mathlib.Tactic.FieldSimp
import Mathlib.Tactic.Ring

set_option relaxedAutoImplicit false
set_option autoImplicit false

/-!
# The coefficient of the KL penalty

`apply_kl_penalty` of `verl_custom/trainer/ppo/ray_trainer.py` subtracts the divergence of the policy
from the rewards, times the coefficient of a controller (`core_algos.py`), and updates the controller
with the mean divergence and the size of the batch. An adaptive controller multiplies its coefficient
by a factor that is clipped before it is scaled with the size of the batch over the horizon. So large
batches can make the coefficient negative, and then the divergence is rewarded.

Numbers are those of an ordered field; the divergence and the masked mean are parameters.

## Main definitions

* `ProRLAgent.Trainer.KlController` — a fixed or an adaptive controller.
* `ProRLAgent.Trainer.applyKlPenalty` — a step of the training.
* `ProRLAgent.Trainer.train` — a training.

## Main results

* `ProRLAgent.Trainer.update_pos_iff` — the batches that keep the coefficient positive.
* `ProRLAgent.Trainer.value_train` — how far a training can move it.
-/

namespace ProRLAgent.Trainer

variable {K : Type} [Field K] [LinearOrder K] [IsStrictOrderedRing K]

/-! ## Controllers -/

/-- What both kinds of controllers are made from. -/
structure KlCtrl (K : Type) where
  type : String
  klCoef : K
  targetKl : K
  horizon : K

/-- **`AdaptiveKLController`**, as `get_kl_controller` makes it. -/
structure AdaptiveKLController (K : Type) [Zero K] [LT K] where
  value : K
  target : K
  horizon : K
  horizon_pos : 0 < horizon

/-- A fixed or an adaptive controller. -/
inductive KlController (K : Type) [Zero K] [LT K] where
  | fixed (value : K)
  | adaptive (controller : AdaptiveKLController K)

/-- `get_kl_controller`. -/
def getKlController (klCtrl : KlCtrl K) : Except PyError (KlController K) :=
  if klCtrl.type = "fixed" then .ok (.fixed klCtrl.klCoef)
  else if klCtrl.type = "adaptive" then
    if h : 0 < klCtrl.horizon then
      .ok (.adaptive ⟨klCtrl.klCoef, klCtrl.targetKl, klCtrl.horizon, h⟩)
    else .error (.other "AssertionError")
  else .error (.other "NotImplementedError")

/-- `np.clip`. -/
def clip (x low high : K) : K := min (max x low) high

/-- The factor of an update. -/
def AdaptiveKLController.mult (c : AdaptiveKLController K) (currentKl : K) (nSteps : ℕ) : K :=
  1 + clip (currentKl / c.target - 1) (-1 / 5) (1 / 5) * nSteps / c.horizon

/-- `AdaptiveKLController.update`. -/
def AdaptiveKLController.update (c : AdaptiveKLController K) (currentKl : K) (nSteps : ℕ) :
    AdaptiveKLController K :=
  { c with value := c.value * c.mult currentKl nSteps }

/-- The coefficient of a controller. -/
def KlController.value : KlController K → K
  | .fixed value => value
  | .adaptive c => c.value

/-- The update of a controller. -/
def KlController.update (currentKl : K) (nSteps : ℕ) : KlController K → KlController K
  | .fixed value => .fixed value
  | .adaptive c => .adaptive (c.update currentKl nSteps)

/-! ## Training -/

/-- What the penalty reads of a response. -/
structure KlRow (K : Type) where
  tokenLevelScores : List K
  oldLogProbs : List K
  refLogProb : List K
  responseMask : List K

/-- The divergence of a response at its tokens. -/
def KlRow.kld (klPenalty : K → K → K) (row : KlRow K) : List K :=
  List.zipWith (· * ·) (List.zipWith klPenalty row.oldLogProbs row.refLogProb) row.responseMask

/-- The mean divergence of a batch. -/
def currentKl (klPenalty : K → K → K) (maskedMean : List K → List K → K) (batch : List (KlRow K)) : K :=
  (batch.map fun row => maskedMean (row.kld klPenalty) row.responseMask).sum / batch.length

/-- **`apply_kl_penalty`**: the rewards of the tokens, and the controller behind the step. -/
def applyKlPenalty (klPenalty : K → K → K) (maskedMean : List K → List K → K) (batch : List (KlRow K))
    (klCtrl : KlController K) : List (List K) × KlController K :=
  (batch.map fun row => List.zipWith (fun score kld => score - klCtrl.value * kld)
      row.tokenLevelScores (row.kld klPenalty),
    klCtrl.update (currentKl klPenalty maskedMean batch) batch.length)

/-- The controller behind the batches of a training. -/
def train (klPenalty : K → K → K) (maskedMean : List K → List K → K) (batches : List (List (KlRow K)))
    (klCtrl : KlController K) : KlController K :=
  batches.foldl (fun klCtrl batch => (applyKlPenalty klPenalty maskedMean batch klCtrl).2) klCtrl

/-! ## The coefficient -/

omit [Field K] [IsStrictOrderedRing K] in
/-- What is clipped lies between the bounds. -/
lemma clip_mem (x : K) {low high : K} (h : low ≤ high) : low ≤ clip x low high ∧ clip x low high ≤ high :=
  ⟨le_min (le_max_right x low) h, min_le_right _ _⟩

variable (c : AdaptiveKLController K) {nSteps : ℕ}

/-- The factor of an update. -/
lemma mult_mem (kl : K) (nSteps : ℕ) :
    1 - nSteps / (5 * c.horizon) ≤ c.mult kl nSteps ∧
      c.mult kl nSteps ≤ 1 + nSteps / (5 * c.horizon) := by
  have hh := c.horizon_pos
  have hn : (0 : K) ≤ nSteps / c.horizon := by positivity
  have hfifth : (nSteps : K) / (5 * c.horizon) = 1 / 5 * (nSteps / c.horizon) := by
    field_simp
  obtain ⟨hlow, hhigh⟩ := clip_mem (kl / c.target - 1) (show (-1 / 5 : K) ≤ 1 / 5 by norm_num)
  rw [AdaptiveKLController.mult, hfifth, mul_div_assoc]
  constructor
  · have := mul_le_mul_of_nonneg_right hlow hn
    linarith
  · have := mul_le_mul_of_nonneg_right hhigh hn
    linarith

/-- The factors of batches that are smaller than five horizons are positive. -/
lemma lower_pos (h : (nSteps : K) < 5 * c.horizon) : 0 < 1 - (nSteps : K) / (5 * c.horizon) := by
  have hh := c.horizon_pos
  rw [sub_pos, div_lt_one (by positivity)]
  exact h

variable {c}

/-- **The coefficient stays positive** whatever the divergence is exactly if the batch is smaller than
five horizons. -/
theorem update_pos_iff (hvalue : 0 < c.value) :
    (∀ kl, 0 < (c.update kl nSteps).value) ↔ (nSteps : K) < 5 * c.horizon := by
  have hh := c.horizon_pos
  constructor
  · intro h
    have hzero := (mul_pos_iff_of_pos_left hvalue).mp (h 0)
    have hclip : clip (0 / c.target - 1) (-1 / 5) (1 / 5) = (-1 / 5 : K) := by
      rw [clip, zero_div, max_eq_right (by norm_num), min_eq_left (by norm_num)]
    rw [AdaptiveKLController.mult, hclip] at hzero
    have hfifth : -1 / 5 * (nSteps : K) / c.horizon = -(nSteps / (5 * c.horizon)) := by
      field_simp
    rw [hfifth, ← sub_eq_add_neg, sub_pos, div_lt_one (by positivity)] at hzero
    exact hzero
  · intro h kl
    exact mul_pos hvalue ((lower_pos c h).trans_le (mult_mem c kl nSteps).1)

/-- **How far a training can move the coefficient**, if its batches are smaller than five horizons. -/
theorem value_train (klPenalty : K → K → K) (maskedMean : List K → List K → K)
    {batches : List (List (KlRow K))} (hvalue : 0 < c.value)
    (hbatches : ∀ batch ∈ batches, (batch.length : K) < 5 * c.horizon) :
    0 < (train klPenalty maskedMean batches (.adaptive c)).value ∧
    c.value * (batches.map fun batch => 1 - (batch.length : K) / (5 * c.horizon)).prod ≤
      (train klPenalty maskedMean batches (.adaptive c)).value ∧
    (train klPenalty maskedMean batches (.adaptive c)).value ≤
      c.value * (batches.map fun batch => 1 + (batch.length : K) / (5 * c.horizon)).prod := by
  induction batches generalizing c with
  | nil => simpa [train, KlController.value] using hvalue
  | cons batch batches ih =>
    obtain ⟨hbatch, hbatches⟩ := List.forall_mem_cons.mp hbatches
    obtain ⟨kl, hkl⟩ : ∃ kl, kl = currentKl klPenalty maskedMean batch := ⟨_, rfl⟩
    have hstep : train klPenalty maskedMean (batch :: batches) (.adaptive c) =
        train klPenalty maskedMean batches (.adaptive (c.update kl batch.length)) := by
      rw [hkl]
      rfl
    have hpos : 0 < (c.update kl batch.length).value :=
      mul_pos hvalue ((lower_pos c hbatch).trans_le (mult_mem c kl batch.length).1)
    obtain ⟨htrain, hlow, hhigh⟩ := ih hpos hbatches
    have hhorizon : (c.update kl batch.length).horizon = c.horizon := rfl
    have hmult : (c.update kl batch.length).value = c.value * c.mult kl batch.length := rfl
    obtain ⟨hmultLow, hmultHigh⟩ := mult_mem c kl batch.length
    have hh := c.horizon_pos
    rw [hhorizon, hmult] at hlow hhigh
    rw [hstep, List.map_cons, List.map_cons, List.prod_cons, List.prod_cons, ← mul_assoc, ← mul_assoc]
    refine ⟨htrain, le_trans ?_ hlow, hhigh.trans ?_⟩
    · apply mul_le_mul_of_nonneg_right (mul_le_mul_of_nonneg_left hmultLow hvalue.le)
      apply List.prod_nonneg
      intro a ha
      obtain ⟨b, hb, rfl⟩ := List.mem_map.mp ha
      exact (lower_pos c (hbatches b hb)).le
    · apply mul_le_mul_of_nonneg_right (mul_le_mul_of_nonneg_left hmultHigh hvalue.le)
      apply List.prod_nonneg
      intro a ha
      obtain ⟨b, hb, rfl⟩ := List.mem_map.mp ha
      positivity

/-- One batch of one response with a large divergence. -/
def oneBatch : List (List (KlRow ℚ)) := [[⟨[1], [3], [1], [1]⟩]]

/-- A controller with a horizon of ten steps. -/
def tenSteps : AdaptiveKLController ℚ := ⟨1, 1, 10, by norm_num⟩

/-- The coefficient behind one batch. -/
theorem value_train_one :
    0 < (train (· - ·) (fun kld mask => kld.sum / mask.sum) oneBatch (.adaptive tenSteps)).value ∧
    tenSteps.value * (oneBatch.map fun batch => 1 - (batch.length : ℚ) / (5 * tenSteps.horizon)).prod ≤
      (train (· - ·) (fun kld mask => kld.sum / mask.sum) oneBatch (.adaptive tenSteps)).value ∧
    (train (· - ·) (fun kld mask => kld.sum / mask.sum) oneBatch (.adaptive tenSteps)).value ≤
      tenSteps.value *
        (oneBatch.map fun batch => 1 + (batch.length : ℚ) / (5 * tenSteps.horizon)).prod :=
  value_train _ _ (by norm_num [tenSteps]) (by norm_num [oneBatch, tenSteps])

end ProRLAgent.Trainer
