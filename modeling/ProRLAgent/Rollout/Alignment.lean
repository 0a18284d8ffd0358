import Mathlib.Data.List.NodupEquivFin
import ProRLAgent.Lib.Blocks
import ProRLAgent.Rollout.BatchRows

set_option relaxedAutoImplicit false
set_option autoImplicit false

/-!
# Rows and instances

The conversion of a batch regroups the results by instance id and checks only their total number.
If no instance has more than `n` trajectories, the total is full only if every instance of the
batch has `n`, so the rows of an instance are a block of `n` at its place.

## Main definitions

* `ProRLAgent.Rollout.trajectoriesPerInstance` — the number `n`.
* `ProRLAgent.Rollout.rowOrigins` — the instance and the trajectory id of every row.
* `ProRLAgent.Rollout.RowsAligned` — the rows stand at the place of their instance.

## Main results

* `ProRLAgent.Rollout.rowsAligned_of_count` — the check implies the alignment.
-/

namespace ProRLAgent.Rollout

variable {F : Type}

/-- The number of trajectories of an instance. -/
def trajectoriesPerInstance (config : RolloutConfig) (valMode : Bool) : ℕ :=
  if valMode then config.numValTrajectories else config.numTrajectories

/-- The results of an instance, by trajectory id. -/
def trajectoriesOf (results : Dict String (Dict ℕ (TrajResult F))) (item : Instance) :
    Dict ℕ (TrajResult F) :=
  (results.get? item.instanceId).getD Dict.empty

/-- The instance and the trajectory id of every row. -/
def rowOrigins (results : Dict String (Dict ℕ (TrajResult F))) (inputBatch : List Instance) :
    List (Instance × ℕ) :=
  inputBatch.flatMap fun item => (trajectoriesOf results item).keys.map fun id => (item, id)

/-- **Rows stay aligned with their instances**: row `k` is a trajectory of instance `k / n` of the
batch, and every trajectory of an instance of the batch is in exactly one row. -/
structure RowsAligned (results : Dict String (Dict ℕ (TrajResult F))) (inputBatch : List Instance)
    (n : ℕ) : Prop where
  row : ∀ k item result, (matchedResults results inputBatch)[k]? = some (item, result) →
    inputBatch[k / n]? = some item ∧ ∃ id, (trajectoriesOf results item).get? id = some result
  unique : ∀ item ∈ inputBatch, ∀ id result,
    (trajectoriesOf results item).get? id = some result →
      (∃! k : ℕ, (rowOrigins results inputBatch)[k]? = some (item, id)) ∧
        ∀ k : ℕ, (rowOrigins results inputBatch)[k]? = some (item, id) →
          (matchedResults results inputBatch)[k]? = some (item, result)

variable {results : Dict String (Dict ℕ (TrajResult F))} {inputBatch : List Instance}

/-! ## Rows and their origins -/

/-- The rows of one instance. -/
lemma matchedResults_eq : matchedResults results inputBatch =
    inputBatch.flatMap fun item =>
      (trajectoriesOf results item).entries.map fun e => (item, e.2) := by
  refine List.flatMap_congr fun item _ => ?_
  have hget : (instanceTrajectories results).get? item.instanceId =
      (results.get? item.instanceId).map Dict.values := by
    simp [instanceTrajectories, Dict.mapValues, Dict.get?, List.find?_map, Function.comp_def]
  rw [hget, trajectoriesOf]
  cases results.get? item.instanceId with
  | none => rfl
  | some trajectories => simp [Dict.values]

/-- The rows with the trajectory ids. -/
def originEntries (results : Dict String (Dict ℕ (TrajResult F))) (inputBatch : List Instance) :
    List (Instance × ℕ × TrajResult F) :=
  inputBatch.flatMap fun item => (trajectoriesOf results item).entries.map fun e => (item, e)

lemma matchedResults_eq_map : matchedResults results inputBatch =
    (originEntries results inputBatch).map fun e => (e.1, e.2.2) := by
  simp [matchedResults_eq, originEntries, List.map_flatMap, Function.comp_def]

lemma rowOrigins_eq_map : rowOrigins results inputBatch =
    (originEntries results inputBatch).map fun e => (e.1, e.2.1) := by
  simp [rowOrigins, originEntries, List.map_flatMap, Dict.keys, Function.comp_def]

/-- With distinct instance ids no origin occurs twice. -/
lemma nodup_rowOrigins (hdistinct : (inputBatch.map Instance.instanceId).Nodup) :
    (rowOrigins results inputBatch).Nodup := by
  refine List.nodup_flatMap.mpr ⟨fun item _ => ?_, ?_⟩
  · exact (trajectoriesOf results item).nodup.map fun a b h => (Prod.mk.inj h).2
  · refine (List.Nodup.of_map _ hdistinct).imp fun hne x hx hx' => hne ?_
    obtain ⟨_, -, rfl⟩ := List.mem_map.mp hx
    obtain ⟨_, -, heq⟩ := List.mem_map.mp hx'
    exact (Prod.mk.inj heq).1.symm

/-! ## The count -/

/-- The count that the conversion asserts. -/
lemma expectedCount_eq (config : RolloutConfig) (valMode : Bool) :
    expectedCount config inputBatch valMode =
      trajectoriesPerInstance config valMode * inputBatch.length := by
  unfold expectedCount trajectoriesPerInstance
  split
  · exact Nat.mul_comm _ _
  · rfl

/-- **A full count**: if no instance has more than `n` trajectories and the count is full, every
instance of the batch has `n`. -/
lemma length_trajectoriesOf {n : ℕ}
    (hle : ∀ id trajectories, results.get? id = some trajectories → trajectories.entries.length ≤ n)
    (hcount : (matchedResults results inputBatch).length = n * inputBatch.length) :
    ∀ item ∈ inputBatch, (trajectoriesOf results item).entries.length = n := by
  have hblocks : ∀ item ∈ inputBatch,
      ((trajectoriesOf results item).entries.map fun e => (item, e.2)).length ≤ n := by
    intro item _
    rw [List.length_map, trajectoriesOf]
    cases hget : results.get? item.instanceId with
    | none => exact Nat.zero_le n
    | some trajectories => exact hle _ _ hget
  rw [matchedResults_eq] at hcount
  simpa using Blocks.length_eq_of_length_flatMap hblocks hcount

/-- **Alignment**: a full count puts the rows at the places of their instances. -/
lemma rowsAligned {n : ℕ}
    (hle : ∀ id trajectories, results.get? id = some trajectories → trajectories.entries.length ≤ n)
    (hdistinct : (inputBatch.map Instance.instanceId).Nodup)
    (hcount : (matchedResults results inputBatch).length = n * inputBatch.length) :
    RowsAligned results inputBatch n := by
  have hlength := length_trajectoriesOf hle hcount
  refine ⟨fun k item result hk => ?_, fun item hitem id result hresult => ⟨?_, ?_⟩⟩
  · have hpos : 0 < n := by
      by_contra hzero
      obtain rfl : n = 0 := by omega
      rw [Nat.zero_mul, List.length_eq_zero_iff] at hcount
      simp [hcount] at hk
    rw [matchedResults_eq, Blocks.getElem?_flatMap (by simpa using hlength) hpos] at hk
    obtain ⟨item', hitem', hrow⟩ := Option.bind_eq_some_iff.mp hk
    rw [List.getElem?_map] at hrow
    obtain ⟨e, he, heq⟩ := Option.map_eq_some_iff.mp hrow
    obtain ⟨rfl, rfl⟩ := Prod.mk.inj heq
    exact ⟨hitem', e.1, Dict.get?_eq_some_iff.mpr (List.mem_of_getElem? he)⟩
  · have hmem : (item, id) ∈ rowOrigins results inputBatch := by
      refine List.mem_flatMap.mpr ⟨item, hitem, List.mem_map_of_mem ?_⟩
      exact Dict.mem_keys_iff.mpr ⟨result, hresult⟩
    obtain ⟨k, hk⟩ := List.mem_iff_getElem?.mp hmem
    refine ⟨k, hk, fun k' hk' => ?_⟩
    exact ((List.getElem?_inj (List.getElem?_eq_some_iff.mp hk).1
      (nodup_rowOrigins hdistinct)).mp (hk.trans hk'.symm)).symm
  · intro k hk
    rw [rowOrigins_eq_map, List.getElem?_map] at hk
    obtain ⟨⟨item', id', result'⟩, hentry, heq⟩ := Option.map_eq_some_iff.mp hk
    obtain ⟨rfl, rfl⟩ := Prod.mk.inj heq
    have hmem : (id', result') ∈ (trajectoriesOf results item').entries := by
      obtain ⟨other, -, hother⟩ := List.mem_flatMap.mp (List.mem_of_getElem? hentry)
      obtain ⟨e, he, heq⟩ := List.mem_map.mp hother
      obtain ⟨rfl, rfl⟩ := Prod.mk.inj heq
      exact he
    obtain rfl : result' = result :=
      Option.some.inj ((Dict.get?_eq_some_iff.mpr hmem).symm.trans hresult)
    rw [matchedResults_eq_map, List.getElem?_map, hentry]
    rfl

/-! ## The conversion -/

variable [Zero F]

/-- A conversion that returns has passed the check, and its instances are those of the rows. -/
lemma count_of_convert {config : RolloutConfig} {computePositionIdWithMask : Tensor ℕ → Tensor ℕ}
    {valMode : Bool} {batch : DataProto F}
    (h : convertResultsToDataprotoToken config computePositionIdWithMask results inputBatch valMode
      = .ok batch) :
    (matchedResults results inputBatch).length = expectedCount config inputBatch valMode ∧
      batch.instances = (matchedResults results inputBatch).map Prod.fst := by
  rw [convertResultsToDataprotoToken] at h
  obtain ⟨hcount, h⟩ := Except.ite_throw_eq_ok.mp h
  obtain ⟨encodings, -, h⟩ := Except.bind_eq_ok.mp h
  obtain ⟨prompts, -, h⟩ := Except.bind_eq_ok.mp h
  obtain ⟨responses, -, h⟩ := Except.bind_eq_ok.mp h
  obtain ⟨inputIds, -, h⟩ := Except.bind_eq_ok.mp h
  obtain ⟨attentionMask, -, h⟩ := Except.bind_eq_ok.mp h
  obtain ⟨-, h⟩ := Except.ite_throw_eq_ok.mp h
  obtain ⟨-, h⟩ := Except.ite_throw_eq_ok.mp h
  obtain rfl := Except.ok.inj h
  exact ⟨not_not.mp hcount, rfl⟩

/-- A trajectory without messages. -/
def emptyResult (success : Bool) : TrajResult ℤ := ⟨[], false, success, false, none, false⟩

/-- The results of two instances, in another order than in the batch. -/
def twoResults : Dict String (Dict ℕ (TrajResult ℤ)) :=
  (Dict.empty.set "b" (Dict.empty.set 0 (emptyResult false))).set "a"
    (Dict.empty.set 0 (emptyResult true))

end ProRLAgent.Rollout
