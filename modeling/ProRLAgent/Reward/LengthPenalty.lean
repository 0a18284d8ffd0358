import ProRLAgent.Basic
import ProRLAgent.Lib.Dict
import ProRLAgent.Lib.Except
import ProRLAgent.Lib.ExactFloat
import Mathlib.Algebra.BigOperators.Group.List.Basic

set_option relaxedAutoImplicit false
set_option autoImplicit false

/-!
# The penalty for long responses

The `instance_linear` branch of `LengthPenalty.__call__` in `length_penalty.py` of the reward
manager. Responses of one `uid` belong together; in a group with a solved response, one with score
`1`, every response gets a weight that falls linearly with its length, from one at the shortest
solved response to zero at the length limit. The weight stands at the last token of a response, where
`SWEBenchRewardManager` puts the score.

If the shortest solved response of a group is as long as the limit allows, the weights are quotients
with divisor zero. Python's `min(1.0, coef)` then keeps the `1.0`.

Tensors are lists, with exact rationals in place of rounded numbers.

## Main definitions

* `ProRLAgent.Reward.instanceLinear` — the penalized scores of a batch.
* `ProRLAgent.Reward.Placed` — a score at the last token of a response that fits.

## Main results

* `ProRLAgent.Reward.get?_id2min` — the shortest solved responses.
* `ProRLAgent.Reward.penalize_eq` — the penalized scores of one response.
* `ProRLAgent.Reward.instanceLinear_fair` — what the penalty does to a batch.
-/

namespace ProRLAgent.Reward

variable {ι : Type}

/-! ## Batches -/

/-- What the penalty reads of one response. -/
structure Row (ι : Type) where
  /-- The name of the group. -/
  uid : ι
  /-- Ones at the tokens of prompt and response, zeros at the padding. -/
  attentionMask : List ℕ
  /-- The scores of the tokens of the response, with padding. -/
  tokenLevelScores : List ℚ
  deriving DecidableEq

/-- A batch: responses that are padded to one length, behind prompts that are. -/
structure Batch (ι : Type) where
  promptLength : ℕ
  responseLength : ℕ
  rows : List (Row ι)

/-- `scores.sum(dim=-1)`. -/
def Row.instanceScore (row : Row ι) : ℚ := row.tokenLevelScores.sum

/-- `attention_mask[:, prompt_length:].sum(dim=-1)`. -/
def validResponseLength (promptLength : ℕ) (row : Row ι) : ℕ :=
  (row.attentionMask.drop promptLength).sum

/-- `tensor[index] = value`, where a negative index counts from the end. -/
def scatter (tensor : List ExactFloat) (index : ℤ) (value : ExactFloat) :
    Except PyError (List ExactFloat) :=
  let position := if index < 0 then index + tensor.length else index
  if 0 ≤ position ∧ position < tensor.length then .ok (tensor.set position.toNat value)
  else .error .indexError

variable [DecidableEq ι]

/-- The length of the shortest solved response of each group. -/
def id2min (batch : Batch ι) : Dict ι ℕ :=
  batch.rows.foldl (fun d row =>
    if 1 ≤ row.instanceScore then
      d.set row.uid (match d.get? row.uid with
        | none => validResponseLength batch.promptLength row
        | some shortest => min shortest (validResponseLength batch.promptLength row))
    else d) Dict.empty

/-- What a weight is divided by. -/
def divisor (maxLength shortest : ℕ) : ℚ := (maxLength : ℚ) - shortest

/-- The weight of a response. -/
def lengthCoef (maxLength : ℕ) (batch : Batch ι) (row : Row ι) : ExactFloat :=
  match (id2min batch).get? row.uid with
  | none => .finite 1
  | some shortest =>
    .minWith 1 (.subFrom 1 (.div ((validResponseLength batch.promptLength row : ℚ) - shortest)
      (divisor maxLength shortest)))

/-- The penalized scores of one response: the weight is put at the last token, and the scores are
multiplied. -/
def penalize (maxLength : ℕ) (batch : Batch ι) (row : Row ι) : Except PyError (List ExactFloat) := do
  let modulatedScores ← scatter (List.replicate batch.responseLength (.finite 0))
    ((validResponseLength batch.promptLength row : ℤ) - 1) (lengthCoef maxLength batch row)
  return List.zipWith ExactFloat.scale row.tokenLevelScores modulatedScores

/-- **The `instance_linear` branch of `LengthPenalty.__call__`.** -/
def instanceLinear (maxLength : ℕ) (batch : Batch ι) : Except PyError (List (List ExactFloat)) :=
  batch.rows.mapM (penalize maxLength batch)

/-! ## Groups -/

/-- The lengths of the solved responses of a group. -/
def solvedLengths (batch : Batch ι) (uid : ι) : List ℕ :=
  (batch.rows.filter fun row => 1 ≤ row.instanceScore ∧ row.uid = uid).map
    (validResponseLength batch.promptLength)

/-- The loop for the minimum. -/
lemma foldl_min (values : List ℕ) :
    values.foldl (fun o v => some (match o with | none => v | some shortest => min shortest v)) none =
      values.min? := by
  cases values with
  | nil => rfl
  | cons v values =>
    rw [List.foldl_cons, List.min?_cons']
    induction values generalizing v with
    | nil => rfl
    | cons w values ih => exact ih (min v w)

/-- **The shortest solved responses** are those of the groups that have one. -/
theorem get?_id2min (batch : Batch ι) (uid : ι) :
    (id2min batch).get? uid = (solvedLengths batch uid).min? := by
  have hloop : id2min batch = Dict.accumulate
      (fun o v => match o with | none => v | some shortest => min shortest v)
      ((batch.rows.filter fun row => 1 ≤ row.instanceScore).map fun row =>
        (row.uid, validResponseLength batch.promptLength row)) := by
    rw [Dict.accumulate, List.foldl_map, List.foldl_filter]
    simp only [id2min, decide_eq_true_eq]
  rw [hloop, Dict.get?_accumulate, foldl_min, solvedLengths, List.filter_map, List.filter_filter,
    List.map_map]
  simp [Function.comp_def, and_comm]

/-- A response is the shortest solved one of its group. -/
def Shortest (batch : Batch ι) (row : Row ι) : Prop :=
  row ∈ batch.rows ∧ row.instanceScore = 1 ∧
    ∀ other ∈ batch.rows, other.uid = row.uid → other.instanceScore = 1 →
      validResponseLength batch.promptLength row ≤ validResponseLength batch.promptLength other

/-- A weight of the response is divided by zero. -/
def DividesByZero (maxLength : ℕ) (batch : Batch ι) (row : Row ι) : Prop :=
  ∃ shortest, (id2min batch).get? row.uid = some shortest ∧ divisor maxLength shortest = 0

/-- **A score at the last token of a response that fits**: the response is not empty and not longer
than the limit, and the score is between zero and one. -/
structure Placed (maxLength : ℕ) (batch : Batch ι) (row : Row ι) : Prop where
  length_mask : row.attentionMask.length = batch.promptLength + batch.responseLength
  le_one_of_mem_mask : ∀ token ∈ row.attentionMask, token ≤ 1
  nonempty : 1 ≤ validResponseLength batch.promptLength row
  le_maxLength : validResponseLength batch.promptLength row ≤ maxLength
  scores : row.tokenLevelScores = (List.replicate batch.responseLength 0).set
    (validResponseLength batch.promptLength row - 1) row.instanceScore
  nonneg : 0 ≤ row.instanceScore
  le_one : row.instanceScore ≤ 1

variable {maxLength : ℕ} {batch : Batch ι} {row : Row ι}

omit [DecidableEq ι] in
/-- Ones and zeros have no larger sum than number. -/
lemma sum_le_length {l : List ℕ} (h : ∀ n ∈ l, n ≤ 1) : l.sum ≤ l.length := by
  induction l with
  | nil => exact le_rfl
  | cons n l ih =>
    have hn := h n List.mem_cons_self
    have hl := ih fun m hm => h m (List.mem_cons_of_mem _ hm)
    rw [List.sum_cons, List.length_cons]
    omega

omit [DecidableEq ι] in
/-- A response is not longer than the tensor. -/
lemma Placed.le_responseLength (h : Placed maxLength batch row) :
    validResponseLength batch.promptLength row ≤ batch.responseLength := by
  have hle : (row.attentionMask.drop batch.promptLength).sum ≤
      (row.attentionMask.drop batch.promptLength).length :=
    sum_le_length fun token htoken => h.le_one_of_mem_mask token (List.mem_of_mem_drop htoken)
  rw [List.length_drop, h.length_mask, Nat.add_sub_cancel_left] at hle
  exact hle

/-- The shortest solved response of a group, if scores are not above one. -/
lemma get?_id2min_eq_some_iff (h : ∀ row ∈ batch.rows, Placed maxLength batch row) {uid : ι}
    {shortest : ℕ} : (id2min batch).get? uid = some shortest ↔
      ∃ row, Shortest batch row ∧ row.uid = uid ∧
        validResponseLength batch.promptLength row = shortest := by
  have hsolved (other : Row ι) (hother : other ∈ batch.rows) :
      1 ≤ other.instanceScore ↔ other.instanceScore = 1 :=
    ⟨fun hle => le_antisymm (h other hother).le_one hle, fun heq => heq.ge⟩
  have hmem (length : ℕ) : length ∈ solvedLengths batch uid ↔
      ∃ other ∈ batch.rows, (other.instanceScore = 1 ∧ other.uid = uid) ∧
        validResponseLength batch.promptLength other = length := by
    simp only [solvedLengths, List.mem_map, List.mem_filter, decide_eq_true_eq, and_assoc]
    refine exists_congr fun other => and_congr_right fun hother => ?_
    rw [hsolved other hother]
  rw [get?_id2min, List.min?_eq_some_iff, hmem]
  constructor
  · rintro ⟨⟨row, hrow, ⟨hscore, rfl⟩, rfl⟩, hmin⟩
    refine ⟨row, ⟨hrow, hscore, fun other hother huid hother' => ?_⟩, rfl, rfl⟩
    exact hmin _ ((hmem _).mpr ⟨other, hother, ⟨hother', huid⟩, rfl⟩)
  · rintro ⟨row, ⟨hrow, hscore, hmin⟩, rfl, rfl⟩
    refine ⟨⟨row, hrow, ⟨hscore, rfl⟩, rfl⟩, fun length hlength => ?_⟩
    obtain ⟨other, hother, ⟨hother', huid⟩, rfl⟩ := (hmem length).mp hlength
    exact hmin other hother huid hother'

/-! ## Weights -/

/-- The weight of a response, as a number. -/
def weight (maxLength : ℕ) (batch : Batch ι) (row : Row ι) : ℚ :=
  match (id2min batch).get? row.uid with
  | none => 1
  | some shortest =>
    ExactFloat.weight shortest maxLength (validResponseLength batch.promptLength row)

/-- A weight is a number. -/
lemma lengthCoef_eq (h : Placed maxLength batch row) :
    lengthCoef maxLength batch row = .finite (weight maxLength batch row) := by
  rw [lengthCoef, weight]
  cases (id2min batch).get? row.uid with
  | none => rfl
  | some shortest => exact ExactFloat.interpolate_eq (Nat.cast_le.mpr h.le_maxLength)

omit [DecidableEq ι] in
/-- The index of the last token. -/
lemma scatter_pred (tensor : List ExactFloat) (value : ExactFloat) {n : ℕ} (hpos : 1 ≤ n)
    (hle : n ≤ tensor.length) :
    scatter tensor ((n : ℤ) - 1) value = .ok (tensor.set (n - 1) value) := by
  have hindex : ((n : ℤ) - 1).toNat = n - 1 := by omega
  have hneg : ¬ (n : ℤ) - 1 < 0 := by omega
  simp only [scatter, if_neg hneg, hindex]
  exact if_pos (by omega)

/-- The penalized scores, as numbers. -/
def penalizedScores (maxLength : ℕ) (batch : Batch ι) (row : Row ι) : List ℚ :=
  (List.replicate batch.responseLength 0).set (validResponseLength batch.promptLength row - 1)
    (row.instanceScore * weight maxLength batch row)

/-- **The penalized scores of one response.** -/
theorem penalize_eq (h : Placed maxLength batch row) :
    penalize maxLength batch row = .ok ((penalizedScores maxLength batch row).map .finite) := by
  have hpos := h.nonempty
  have hle := h.le_responseLength
  have hscatter := scatter_pred (List.replicate batch.responseLength (.finite 0))
    (lengthCoef maxLength batch row) hpos (by rwa [List.length_replicate])
  rw [lengthCoef_eq h] at hscatter
  rw [penalize, lengthCoef_eq h, hscatter, Except.ok_bind, h.scores, penalizedScores]
  refine congrArg Except.ok (List.ext_getElem? fun i => ?_)
  rw [List.getElem?_zipWith, List.getElem?_map]
  simp only [List.getElem?_set, List.getElem?_replicate, List.length_replicate]
  by_cases hi : validResponseLength batch.promptLength row - 1 = i
  · subst hi
    simp [show validResponseLength batch.promptLength row - 1 < batch.responseLength by omega]
  · simp only [if_neg hi]
    split_ifs <;> simp

/-- The sum of the penalized scores. -/
lemma sum_penalizedScores (h : Placed maxLength batch row) :
    (penalizedScores maxLength batch row).sum = row.instanceScore * weight maxLength batch row := by
  have hpos := h.nonempty
  have hle := h.le_responseLength
  rw [penalizedScores, List.sum_set, if_pos (by rw [List.length_replicate]; omega),
    List.take_replicate, List.drop_replicate, List.sum_replicate, List.sum_replicate]
  simp

/-- A response with weight one keeps its scores. -/
lemma penalizedScores_of_weight (h : Placed maxLength batch row)
    (hweight : weight maxLength batch row = 1) :
    penalizedScores maxLength batch row = row.tokenLevelScores := by
  rw [penalizedScores, hweight, mul_one, ← h.scores]

/-- The weight of a response lies between zero and one. -/
lemma weight_mem (h : ∀ row ∈ batch.rows, Placed maxLength batch row) (hrow : row ∈ batch.rows) :
    0 ≤ weight maxLength batch row ∧ weight maxLength batch row ≤ 1 := by
  rw [weight]
  split
  · exact ⟨zero_le_one, le_rfl⟩
  · rename_i shortest hget
    obtain ⟨first, hfirst, -, rfl⟩ := (get?_id2min_eq_some_iff h).mp hget
    exact ⟨ExactFloat.weight_nonneg (Nat.cast_le.mpr (h first hfirst.1).le_maxLength)
      (Nat.cast_le.mpr (h row hrow).le_maxLength), ExactFloat.weight_le_one⟩

/-- A weight is divided by zero exactly if the shortest solved response of the group is as long as
the limit allows. -/
lemma dividesByZero_iff (h : ∀ row ∈ batch.rows, Placed maxLength batch row) :
    DividesByZero maxLength batch row ↔ ∃ first, Shortest batch first ∧ first.uid = row.uid ∧
      validResponseLength batch.promptLength first = maxLength := by
  simp only [DividesByZero, get?_id2min_eq_some_iff h, divisor, sub_eq_zero, Nat.cast_inj]
  constructor
  · rintro ⟨_, ⟨first, hfirst, huid, rfl⟩, heq⟩
    exact ⟨first, hfirst, huid, heq.symm⟩
  · rintro ⟨first, hfirst, huid, heq⟩
    exact ⟨_, ⟨first, hfirst, huid, rfl⟩, heq.symm⟩

/-! ## Fairness -/

/-- **What the penalty does to one response** of a batch, if responses get new scores. -/
structure FairlyPenalized (maxLength : ℕ) (batch : Batch ι) (modulated : Row ι → List ℚ)
    (row : Row ι) : Prop where
  /-- A group without a solved response keeps its scores. -/
  of_unsolved : (∀ other ∈ batch.rows, other.uid = row.uid → other.instanceScore ≠ 1) →
    modulated row = row.tokenLevelScores
  /-- The shortest solved response keeps its scores. -/
  of_shortest : Shortest batch row → modulated row = row.tokenLevelScores
  /-- Weights are divided by zero only if a shortest solved response is as long as the limit. -/
  dividesByZero_iff : DividesByZero maxLength batch row ↔ ∃ first, Shortest batch first ∧
    first.uid = row.uid ∧ validResponseLength batch.promptLength first = maxLength
  /-- Then the group keeps its scores. -/
  of_dividesByZero : DividesByZero maxLength batch row → modulated row = row.tokenLevelScores
  nonneg : 0 ≤ (modulated row).sum
  le : (modulated row).sum ≤ row.instanceScore
  /-- A longer response of the group with the same score does not get more. -/
  antitone : ∀ other ∈ batch.rows, other.uid = row.uid →
    other.instanceScore = row.instanceScore →
    validResponseLength batch.promptLength row ≤ validResponseLength batch.promptLength other →
    (modulated other).sum ≤ (modulated row).sum

/-- What the penalty does to a response of a batch. -/
lemma fairlyPenalized (h : ∀ row ∈ batch.rows, Placed maxLength batch row)
    (hrow : row ∈ batch.rows) :
    FairlyPenalized maxLength batch (penalizedScores maxLength batch) row where
  dividesByZero_iff := dividesByZero_iff h
  of_unsolved hunsolved := by
    refine penalizedScores_of_weight (h row hrow) ?_
    rw [weight]
    split
    · rfl
    · rename_i shortest hget
      obtain ⟨first, hfirst, huid, -⟩ := (get?_id2min_eq_some_iff h).mp hget
      exact absurd hfirst.2.1 (hunsolved first hfirst.1 huid)
  of_shortest hshortest := by
    refine penalizedScores_of_weight (h row hrow) ?_
    rw [weight, (get?_id2min_eq_some_iff h).mpr ⟨row, hshortest, rfl, rfl⟩]
    exact ExactFloat.weight_low
  of_dividesByZero := by
    rintro ⟨shortest, hget, hzero⟩
    refine penalizedScores_of_weight (h row hrow) ?_
    rw [weight, hget]
    exact if_pos (sub_eq_zero.mp hzero)
  nonneg := by
    rw [sum_penalizedScores (h row hrow)]
    exact mul_nonneg (h row hrow).nonneg (weight_mem h hrow).1
  le := by
    rw [sum_penalizedScores (h row hrow)]
    exact mul_le_of_le_one_right (h row hrow).nonneg (weight_mem h hrow).2
  antitone other hother huid hscore hlength := by
    rw [sum_penalizedScores (h row hrow), sum_penalizedScores (h other hother), hscore]
    refine mul_le_mul_of_nonneg_left ?_ (h row hrow).nonneg
    rw [weight, weight, huid]
    split
    · exact le_rfl
    · rename_i shortest hget
      obtain ⟨first, hfirst, -, rfl⟩ := (get?_id2min_eq_some_iff h).mp hget
      exact ExactFloat.weight_antitone (Nat.cast_le.mpr (h first hfirst.1).le_maxLength)
        (Nat.cast_le.mpr hlength)

/-- **The penalty is fair** to every batch whose scores are at the last tokens. -/
theorem instanceLinear_fair (h : ∀ row ∈ batch.rows, Placed maxLength batch row) :
    ∃ modulated : Row ι → List ℚ, instanceLinear maxLength batch =
        .ok (batch.rows.map fun row => (modulated row).map .finite) ∧
      ∀ row ∈ batch.rows, FairlyPenalized maxLength batch modulated row := by
  refine ⟨penalizedScores maxLength batch, ?_, fun row hrow => fairlyPenalized h hrow⟩
  rw [instanceLinear, Except.mapM_eq_ok_iff, List.forall₂_map_right_iff, List.forall₂_same]
  exact fun row hrow => penalize_eq (h row hrow)

/-- A batch of two solved responses and a failed one: the longer solved one loses half its score. -/
def threeResponses : Batch ℕ :=
  ⟨1, 3, [⟨7, [1, 1, 0, 0], [1, 0, 0]⟩, ⟨7, [1, 1, 1, 0], [0, 1, 0]⟩, ⟨8, [1, 1, 1, 1], [0, 0, 0]⟩]⟩

/-- The penalty is fair to the three responses. -/
theorem instanceLinear_fair_three : ∃ modulated : Row ℕ → List ℚ,
    instanceLinear 3 threeResponses =
        .ok (threeResponses.rows.map fun row => (modulated row).map .finite) ∧
      ∀ row ∈ threeResponses.rows, FairlyPenalized 3 threeResponses modulated row := by
  refine instanceLinear_fair fun row hrow => ?_
  simp only [threeResponses, List.mem_cons, List.not_mem_nil, or_false] at hrow
  rcases hrow with rfl | rfl | rfl
  · exact ⟨by decide, by decide, by decide, by decide, by decide +kernel, by decide +kernel,
      by decide +kernel⟩
  · exact ⟨by decide, by decide, by decide, by decide, by decide +kernel, by decide +kernel,
      by decide +kernel⟩
  · exact ⟨by decide, by decide, by decide, by decide, by decide +kernel, by decide +kernel,
      by decide +kernel⟩

/-- A single response with score one, as long as the limit allows: its weight is divided by zero. -/
theorem instanceLinear_divides_by_zero :
    ∃ batch : Batch ℕ, (∀ row ∈ batch.rows, Placed 1 batch row) ∧
      ∃ row ∈ batch.rows, DividesByZero 1 batch row := by
  refine ⟨⟨1, 1, [⟨7, [1, 1], [1]⟩]⟩, fun row hrow => ?_, _, List.mem_singleton_self _, 1, ?_, ?_⟩
  · obtain rfl := List.mem_singleton.mp hrow
    exact ⟨by decide, by decide, by decide, by decide, by decide +kernel, by decide +kernel,
      by decide +kernel⟩
  · decide +kernel
  · decide +kernel

end ProRLAgent.Reward
