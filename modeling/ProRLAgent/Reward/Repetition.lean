import ProRLAgent.Basic
import ProRLAgent.Lib.Dict
import Mathlib.Data.List.Dedup
import Mathlib.Algebra.Ring.Int.Defs
import Mathlib.Data.List.Lex

set_option relaxedAutoImplicit false
set_option autoImplicit false

/-!
# Two penalties for repetition

The server and the trainer give a penalty to every position at which an n-gram starts that started
before. The server (`ngram_repetition_reward` of `openhands/nvidia/utils.py`) collects the positions
of each n-gram in a dictionary; the trainer (`_ngram_repetition_reward` of the reward manager) counts
the different n-grams and looks for the positions of those that occur more than once. Only the
server has an answer for sequences that are shorter than an n-gram.

Rewards are of any type with a zero, so nothing depends on how numbers are rounded.

## Main definitions

* `ProRLAgent.Reward.ngramRepetitionReward` — the penalty of the server.
* `ProRLAgent.Reward.lengthPenaltyRepetitionReward` — the penalty of the trainer.
* `ProRLAgent.Reward.StartsAgain` — an n-gram that starts at a position and started before.

## Main results

* `ProRLAgent.Reward.ngramRepetitionReward_spec` — what the server computes.
* `ProRLAgent.Reward.repetitionRewards_agree_iff` — when the trainer computes the same.
-/

namespace ProRLAgent.Reward

variable {ρ : Type} [Zero ρ]

/-! ## N-grams -/

/-- The n-grams of a sequence that is not shorter than one, in the order of their starts. -/
def windows (size : ℕ) (sequence : List Token) : List (List Token) :=
  (List.range (sequence.length - size + 1)).map fun i => (sequence.drop i).take size

/-- The positions of an n-gram. -/
def positionsOf (ngrams : List (List Token)) (ngram : List Token) : List ℕ :=
  (ngrams.zipIdx.filter fun e => e.1 = ngram).map Prod.snd

/-- The penalty at some positions. -/
def setPenalty (penalty : ρ) (reward : List ρ) (positions : List ℕ) : List ρ :=
  positions.foldl (fun reward pos => reward.set pos penalty) reward

/-! ## The server -/

/-- **`ngram_repetition_reward`.** -/
def ngramRepetitionReward (sequence : List Token) (ngramSize : ℕ) (penalty : ρ) :
    Except PyError (List ρ) :=
  if ngramSize = 0 then .error (.valueError "ngram_size must be >= 1")
  else if sequence.length < ngramSize then .ok (List.replicate sequence.length 0)
  else
    let positionsByNgram := Dict.group (windows ngramSize sequence).zipIdx
    .ok (positionsByNgram.values.foldl (fun reward positions =>
      if 1 < positions.length then setPenalty penalty reward positions.tail else reward)
      (List.replicate sequence.length 0))

/-! ## The trainer -/

/-- `sequence.unfold(0, size, 1)`. -/
def unfold (sequence : List Token) (size : ℕ) : Except PyError (List (List Token)) :=
  if sequence.length < size then
    .error (.runtimeError s!"maximum size for tensor at dimension 0 is {sequence.length} but size is {size}")
  else .ok (windows size sequence)

/-- `torch.unique(rows, dim=0, return_counts=True)`: the different rows in order, with the number of
their occurrences. -/
def unique (rows : List (List Token)) : List (List Token × ℕ) :=
  (rows.dedup.mergeSort fun a b => decide (a ≤ b)).map fun row => (row, rows.count row)

/-- **`LengthPenalty._ngram_repetition_reward`.** -/
def lengthPenaltyRepetitionReward (sequence : List Token) (ngramSize : ℕ) (penalty : ρ) :
    Except PyError (List ρ) := do
  let ngramArray ← unfold sequence ngramSize
  let repeatedNgrams := (unique ngramArray).filter fun e => 1 < e.2
  if repeatedNgrams = [] then return List.replicate sequence.length 0
  return repeatedNgrams.foldl (fun reward e =>
    setPenalty penalty reward (positionsOf ngramArray e.1).tail)
    (List.replicate sequence.length 0)

/-! ## Positions -/

/-- **An n-gram starts again**: it starts at the position, and the same one at an earlier one. -/
def StartsAgain (size : ℕ) (sequence : List Token) (i : ℕ) : Prop :=
  i + size ≤ sequence.length ∧
    ∃ j < i, (sequence.drop j).take size = (sequence.drop i).take size

instance decidableStartsAgain (size : ℕ) (sequence : List Token) (i : ℕ) :
    Decidable (StartsAgain size sequence i) :=
  inferInstanceAs (Decidable (_ ∧ ∃ j < i, _ = _))

variable {sequence : List Token} {size : ℕ}

/-- The n-gram at a position. -/
lemma getElem?_windows (h : size ≤ sequence.length) {i : ℕ} {ngram : List Token} :
    (windows size sequence)[i]? = some ngram ↔
      i + size ≤ sequence.length ∧ (sequence.drop i).take size = ngram := by
  rw [windows, List.getElem?_map]
  by_cases hi : i < sequence.length - size + 1
  · rw [List.getElem?_range hi, Option.map_some, Option.some.injEq]
    exact ⟨fun heq => ⟨by omega, heq⟩, fun heq => heq.2⟩
  · rw [List.getElem?_eq_none (by simpa using hi)]
    simp only [Option.map_none, reduceCtorEq, false_iff, not_and]
    intro hle
    omega

/-- The positions of an n-gram are those at which it stands. -/
lemma mem_positionsOf {ngrams : List (List Token)} {ngram : List Token} {i : ℕ} :
    i ∈ positionsOf ngrams ngram ↔ ngrams[i]? = some ngram := by
  simp only [positionsOf, List.mem_map, List.mem_filter, decide_eq_true_eq, Prod.exists,
    List.mem_zipIdx_iff_getElem?]
  constructor
  · rintro ⟨a, b, ⟨hget, rfl⟩, rfl⟩
    exact hget
  · exact fun h => ⟨ngram, i, ⟨h, rfl⟩, rfl⟩

/-- The positions of an n-gram increase. -/
lemma pairwise_positionsOf (ngrams : List (List Token)) (ngram : List Token) :
    (positionsOf ngrams ngram).Pairwise (· < ·) := by
  have hsub : (positionsOf ngrams ngram).Sublist (ngrams.zipIdx.map Prod.snd) :=
    List.filter_sublist.map Prod.snd
  rw [List.zipIdx_map_snd, ← List.range_eq_range'] at hsub
  exact List.pairwise_lt_range.sublist hsub

/-- All but the first of some increasing numbers. -/
lemma mem_tail_iff {positions : List ℕ} (h : positions.Pairwise (· < ·)) {i : ℕ} :
    i ∈ positions.tail ↔ i ∈ positions ∧ ∃ j ∈ positions, j < i := by
  cases positions with
  | nil => simp
  | cons first rest =>
    obtain ⟨hfirst, -⟩ := List.pairwise_cons.mp h
    rw [List.tail_cons]
    constructor
    · exact fun hi => ⟨List.mem_cons_of_mem _ hi, first, List.mem_cons_self, hfirst i hi⟩
    · rintro ⟨hi, j, hj, hlt⟩
      rcases List.mem_cons.mp hi with rfl | hi
      · rcases List.mem_cons.mp hj with rfl | hj
        · omega
        · have hlt' := hfirst j hj
          omega
      · exact hi

/-- **The positions that get the penalty** are those at which the n-gram starts again. -/
theorem mem_tail_positionsOf (h : size ≤ sequence.length) {ngram : List Token} {i : ℕ} :
    i ∈ (positionsOf (windows size sequence) ngram).tail ↔
      (sequence.drop i).take size = ngram ∧ StartsAgain size sequence i := by
  rw [mem_tail_iff (pairwise_positionsOf _ _)]
  simp only [mem_positionsOf, getElem?_windows h, StartsAgain]
  constructor
  · rintro ⟨⟨hi, rfl⟩, j, ⟨-, hj⟩, hlt⟩
    exact ⟨rfl, hi, j, hlt, hj⟩
  · rintro ⟨rfl, hi, j, hlt, hj⟩
    exact ⟨⟨hi, rfl⟩, j, ⟨by omega, hj⟩, hlt⟩

/-! ## Rewards -/

/-- The penalty keeps the length. -/
lemma length_setPenalty (penalty : ρ) (reward : List ρ) (positions : List ℕ) :
    (setPenalty penalty reward positions).length = reward.length := by
  induction positions generalizing reward with
  | nil => rfl
  | cons pos positions ih => rw [setPenalty, List.foldl_cons, ← setPenalty, ih, List.length_set]

/-- The penalty stands at the positions. -/
lemma getElem?_setPenalty (penalty : ρ) (reward : List ρ) (positions : List ℕ) {i : ℕ}
    (hi : i < reward.length) :
    (setPenalty penalty reward positions)[i]? =
      if i ∈ positions then some penalty else reward[i]? := by
  induction positions generalizing reward with
  | nil => rfl
  | cons pos positions ih =>
    rw [setPenalty, List.foldl_cons, ← setPenalty, ih _ (by rwa [List.length_set]),
      List.getElem?_set]
    by_cases hmem : i ∈ positions
    · rw [if_pos hmem, if_pos (List.mem_cons_of_mem _ hmem)]
    · rw [if_neg hmem]
      by_cases hpos : pos = i
      · subst hpos
        rw [if_pos rfl, if_pos hi, if_pos List.mem_cons_self]
      · have hcons : i ∉ pos :: positions := by
          rw [List.mem_cons, not_or]
          exact ⟨fun h => hpos h.symm, hmem⟩
        rw [if_neg hpos, if_neg hcons]

/-- **The reward of a sequence**: the penalty where an n-gram starts again, and zero elsewhere. -/
def repetitionReward (sequence : List Token) (size : ℕ) (penalty : ρ) : List ρ :=
  (List.range sequence.length).map fun i => if StartsAgain size sequence i then penalty else 0

/-- The reward is known by its length and its entries. -/
lemma eq_repetitionReward {reward : List ρ} {penalty : ρ}
    (hlength : reward.length = sequence.length)
    (hget : ∀ i < sequence.length,
      reward[i]? = some (if StartsAgain size sequence i then penalty else 0)) :
    reward = repetitionReward sequence size penalty := by
  refine List.ext_getElem? fun i => ?_
  by_cases hi : i < sequence.length
  · rw [hget i hi, repetitionReward, List.getElem?_map, List.getElem?_range hi]
    rfl
  · rw [List.getElem?_eq_none (by omega), List.getElem?_eq_none (by simp [repetitionReward]; omega)]

/-- A penalty at lists of positions, one list after the other. -/
lemma foldl_setPenalty {β : Type} (penalty : ρ) (items : List β) (positions : β → List ℕ)
    (reward : List ρ) :
    items.foldl (fun reward b => setPenalty penalty reward (positions b)) reward =
      setPenalty penalty reward (items.flatMap positions) := by
  induction items generalizing reward with
  | nil => rfl
  | cons b items ih =>
    rw [List.foldl_cons, ih, List.flatMap_cons, setPenalty, setPenalty, setPenalty,
      List.foldl_append]

/-- **Both rewards** give the penalty to some positions. -/
lemma setPenalty_eq_repetitionReward {positions : List ℕ} (penalty : ρ)
    (h : ∀ i < sequence.length, i ∈ positions ↔ StartsAgain size sequence i) :
    setPenalty penalty (List.replicate sequence.length 0) positions =
      repetitionReward sequence size penalty := by
  refine eq_repetitionReward (by rw [length_setPenalty, List.length_replicate]) fun i hi => ?_
  rw [getElem?_setPenalty _ _ _ (by rwa [List.length_replicate]), List.getElem?_replicate, if_pos hi]
  simp only [h i hi]
  split_ifs <;> rfl

/-- **What the server computes**, for sequences of any length. -/
theorem ngramRepetitionReward_spec (hsize : 1 ≤ size) (sequence : List Token) (penalty : ρ) :
    ngramRepetitionReward sequence size penalty = .ok (repetitionReward sequence size penalty) := by
  rw [ngramRepetitionReward, if_neg (by omega)]
  split_ifs with hshort
  · refine congrArg Except.ok (eq_repetitionReward (by simp) fun i hi => ?_)
    have hnot : ¬ StartsAgain size sequence i := fun h => by
      have hle := h.1
      omega
    rw [if_neg hnot, List.getElem?_replicate, if_pos hi]
  · have hle : size ≤ sequence.length := by omega
    -- A list without a second position has no tail.
    have htail (reward : List ρ) (positions : List ℕ) :
        (if 1 < positions.length then setPenalty penalty reward positions.tail else reward) =
          setPenalty penalty reward positions.tail := by
      split_ifs with hmany
      · rfl
      · rcases positions with _ | ⟨first, _ | ⟨second, rest⟩⟩
        · rfl
        · rfl
        · simp at hmany
    simp only [htail]
    rw [foldl_setPenalty]
    refine congrArg Except.ok (setPenalty_eq_repetitionReward penalty fun i _ => ?_)
    have hgroup (ngram : List Token) (positions : List ℕ) :
        (Dict.group (windows size sequence).zipIdx).get? ngram = some positions →
          positions = positionsOf (windows size sequence) ngram := by
      rw [Dict.get?_group]
      split_ifs
      · exact fun h => (Option.some.inj h).symm
      · exact fun h => by cases h
    simp only [List.mem_flatMap, Dict.mem_values_iff]
    constructor
    · rintro ⟨positions, ⟨ngram, hget⟩, hi⟩
      rw [hgroup ngram positions hget] at hi
      exact ((mem_tail_positionsOf hle).mp hi).2
    · intro hi
      have hmem := (mem_tail_positionsOf hle).mpr ⟨rfl, hi⟩
      refine ⟨_, ⟨(sequence.drop i).take size, ?_⟩, hmem⟩
      rw [Dict.get?_group, if_pos]
      · rfl
      · rw [List.zipIdx_map_fst]
        exact List.mem_of_getElem? ((getElem?_windows hle).mpr ⟨hi.1, rfl⟩)

/-- The number of occurrences is the number of positions. -/
lemma count_eq_length_positionsOf (ngrams : List (List Token)) (ngram : List Token) :
    ngrams.count ngram = (positionsOf ngrams ngram).length := by
  have hsame : ((· == ngram) ∘ Prod.fst : List Token × ℕ → Bool) =
      fun e : List Token × ℕ => decide (e.1 = ngram) :=
    funext fun e => Bool.beq_eq_decide_eq e.1 ngram
  conv_lhs => rw [← List.zipIdx_map_fst 0 ngrams]
  rw [List.count, List.countP_map, List.countP_eq_length_filter, hsame, positionsOf,
    List.length_map]

/-- The rows that occur more than once. -/
lemma mem_filter_unique {rows : List (List Token)} {row : List Token} {n : ℕ} :
    (row, n) ∈ (unique rows).filter (fun e => 1 < e.2) ↔ n = rows.count row ∧ 1 < n := by
  rw [List.mem_filter, unique, List.mem_map]
  constructor
  · rintro ⟨⟨row', -, heq⟩, hlt⟩
    obtain ⟨rfl, rfl⟩ := Prod.mk.inj heq
    exact ⟨rfl, by simpa using hlt⟩
  · rintro ⟨rfl, hlt⟩
    have hmem : row ∈ rows := List.count_pos_iff.mp (by omega)
    refine ⟨⟨row, ?_, rfl⟩, by simpa using hlt⟩
    rw [List.mem_mergeSort, List.mem_dedup]
    exact hmem

/-- **What the trainer computes** if the sequence is not shorter than an n-gram. -/
theorem lengthPenaltyRepetitionReward_spec (hle : size ≤ sequence.length) (penalty : ρ) :
    lengthPenaltyRepetitionReward sequence size penalty =
      .ok (repetitionReward sequence size penalty) := by
  have hunfold : unfold sequence size = .ok (windows size sequence) := if_neg (by omega)
  rw [lengthPenaltyRepetitionReward, hunfold]
  simp only [bind, Except.bind]
  generalize hitems : (unique (windows size sequence)).filter (fun e => 1 < e.2) = items
  have hreward : setPenalty penalty (List.replicate sequence.length 0)
      (items.flatMap fun e => (positionsOf (windows size sequence) e.1).tail) =
        repetitionReward sequence size penalty := by
    refine setPenalty_eq_repetitionReward penalty fun i _ => ?_
    rw [List.mem_flatMap, ← hitems]
    constructor
    · rintro ⟨e, -, hi⟩
      exact ((mem_tail_positionsOf hle).mp hi).2
    · intro hi
      have hmem := (mem_tail_positionsOf hle).mpr ⟨rfl, hi⟩
      refine ⟨((sequence.drop i).take size, _), mem_filter_unique.2 ⟨rfl, ?_⟩, hmem⟩
      have hpos := List.length_pos_of_mem hmem
      rw [List.length_tail] at hpos
      rw [count_eq_length_positionsOf]
      omega
  split_ifs with hnone
  · rw [hnone] at hreward
    exact congrArg Except.ok hreward
  · rw [← hreward, ← foldl_setPenalty]
    rfl

/-- **The two penalties agree** with each other and with what they are for: both return the vector
with the penalty where an n-gram starts again. -/
def PenaltiesAgree (sequence : List Token) (size : ℕ) (penalty : ρ) : Prop :=
  ∃ reward, ngramRepetitionReward sequence size penalty = .ok reward ∧
    lengthPenaltyRepetitionReward sequence size penalty = .ok reward ∧
    reward.length = sequence.length ∧ ∀ i < sequence.length,
      reward[i]? = some (if StartsAgain size sequence i then penalty else 0)

/-- The penalties agree exactly on sequences that are not shorter than an n-gram. -/
theorem repetitionRewards_agree_iff (hsize : 1 ≤ size) (sequence : List Token) (penalty : ρ) :
    PenaltiesAgree sequence size penalty ↔ size ≤ sequence.length := by
  constructor
  · rintro ⟨reward, -, htrainer, -⟩
    by_contra hshort
    have hunfold : ∃ message, unfold sequence size = .error message := ⟨_, if_pos (by omega)⟩
    obtain ⟨message, hmessage⟩ := hunfold
    rw [lengthPenaltyRepetitionReward, hmessage] at htrainer
    cases htrainer
  · intro hle
    refine ⟨repetitionReward sequence size penalty, ngramRepetitionReward_spec hsize sequence penalty,
      lengthPenaltyRepetitionReward_spec hle penalty, by simp [repetitionReward], fun i hi => ?_⟩
    rw [repetitionReward, List.getElem?_map, List.getElem?_range hi]
    rfl

/-- Both give the penalty to overlapping repeats. -/
theorem repetitionRewards_agree_overlap : PenaltiesAgree [7, 7, 7, 7] 2 (-1 : ℤ) :=
  (repetitionRewards_agree_iff (by decide) [7, 7, 7, 7] (-1)).mpr (by decide)

/-- The trainer has no answer for one token and n-grams of two. -/
theorem not_repetitionRewards_agree_short : ¬ PenaltiesAgree [7] 2 (-1 : ℤ) := by
  rintro ⟨reward, -, htrainer, -⟩
  cases htrainer

end ProRLAgent.Reward
