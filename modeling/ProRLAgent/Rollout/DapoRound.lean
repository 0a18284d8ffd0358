import Mathlib.Data.List.Perm.Lattice
import ProRLAgent.Rollout.DapoLedger

set_option relaxedAutoImplicit false
set_option autoImplicit false

/-!
# A round loses no training data

The collecting loop of `request_from_openhands_dapo` stores a result, drops the instances that
turn out too easy or too hard, and leaves once enough instances are complete. Each result belongs
to a trajectory that was tracked until then, so an instance completes once, and the filters at the
end of the round divide the batch into the output, the dropped instances and the rest.

## Main definitions

* `ProRLAgent.Rollout.Dapo.Balanced` — some, but not all trajectories of an instance are resolved.
* `ProRLAgent.Rollout.Dapo.Collected` — the invariant of the collecting loop.

## Main results

* `ProRLAgent.Rollout.Dapo.filterEasyHardInstance_spec` — what the filter removes and keeps.
* `ProRLAgent.Rollout.Dapo.roundStep_collected` — every step of a round keeps the invariant.
* `ProRLAgent.Rollout.Dapo.round_keeps_data` — a round that leaves its loop ends without a failed
  assertion, with exactly `train_batch_size` instances, and divides the batch.
-/

namespace ProRLAgent.Rollout.Dapo

open Collect

variable {F : Type} {config : Config} {s s' : State F}

/-! ## The filter of easy and hard instances -/

/-- Some, but not all trajectories of an instance are resolved. -/
def Balanced (config : Config) (trajectories : Dict ℕ (Response F)) : Prop :=
  ∃ count, resolvedCount trajectories = .ok count ∧ 0 < count ∧ count < config.numTrajectories

/-- At most all trajectories are resolved. -/
lemma resolvedCount_le {trajectories : Dict ℕ (Response F)} {count : ℕ}
    (h : resolvedCount trajectories = .ok count) : count ≤ trajectories.entries.length := by
  obtain ⟨flags, hflags, h⟩ := Except.bind_eq_ok.mp h
  obtain rfl := Except.ok.inj h
  have hlen := (Except.mapM_eq_ok_iff.mp hflags).length_eq
  rw [Dict.values, List.length_map] at hlen
  rw [hlen]
  exact List.count_le_length

/-- What one pass of the filter can do. -/
lemma filterInstance_cases {responses : Responses F} {ids : List String} {id : String}
    {out : Responses F × List String} (h : filterInstance config (responses, ids) id = .ok out) :
    (out = (responses, ids) ∧
      ∀ d, responses.get? id = some d → isComplete config d → Balanced config d) ∨
    (out = (responses.erase id, ids ++ [id]) ∧
      ∃ d, responses.get? id = some d ∧ isComplete config d) := by
  simp only [filterInstance] at h
  split at h
  · next hnone =>
    refine .inl ⟨(Except.ok.inj h).symm, fun d hd => ?_⟩
    rw [hnone] at hd
    cases hd
  · next trajectories hsome =>
    split at h
    · next hcomplete =>
      obtain ⟨count, hcount, h⟩ := Except.bind_eq_ok.mp h
      split at h
      · exact .inr ⟨(Except.ok.inj h).symm, trajectories, hsome, hcomplete⟩
      · next hcount' =>
        refine .inl ⟨(Except.ok.inj h).symm, fun d hd _ => ?_⟩
        obtain rfl : trajectories = d := by
          rw [hsome] at hd
          exact Option.some.inj hd
        have hle := resolvedCount_le hcount
        have hlen : trajectories.entries.length = config.numTrajectories := by
          simpa [isComplete] using hcomplete
        exact ⟨count, hcount, by omega, by omega⟩
    · next hincomplete =>
      refine .inl ⟨(Except.ok.inj h).symm, fun d hd hcomplete => ?_⟩
      rw [hsome] at hd
      obtain rfl := Option.some.inj hd
      exact absurd hcomplete hincomplete

/-- **What the filter does**: it removes some complete instances, and the complete ones that it
keeps are balanced. -/
structure FilterSpec (config : Config) (keys : List String) (responses : Responses F)
    (removed : List String) (responses' : Responses F) : Prop where
  nodup : removed.Nodup
  subset : ∀ id ∈ removed, id ∈ keys
  get? : ∀ id, responses'.get? id = if id ∈ removed then none else responses.get? id
  complete : ∀ id ∈ removed, ∃ d, responses.get? id = some d ∧ isComplete config d
  balanced : ∀ id ∈ keys, ∀ d, responses'.get? id = some d → isComplete config d →
    Balanced config d
  entries : responses'.entries.Sublist responses.entries

/-- The loop of the filter. -/
lemma filter_loop {keys : List String} {responses : Responses F} {ids : List String}
    {out : Responses F × List String}
    (h : keys.foldlM (filterInstance config) (responses, ids) = .ok out) (hkeys : keys.Nodup) :
    ∃ removed, out.2 = ids ++ removed ∧ FilterSpec config keys responses removed out.1 := by
  induction keys generalizing responses ids with
  | nil =>
    obtain rfl := Except.ok.inj h
    exact ⟨[], by simp, by simp, by simp, by simp, by simp, by simp, List.Sublist.refl _⟩
  | cons id keys ih =>
    rw [List.nodup_cons] at hkeys
    rw [List.foldlM_cons] at h
    obtain ⟨mid, hmid, h⟩ := Except.bind_eq_ok.mp h
    rcases filterInstance_cases hmid with ⟨rfl, hkept⟩ | ⟨rfl, d, hd, hcomplete⟩
    · -- The instance is kept.
      obtain ⟨removed, hout, hspec⟩ := ih h hkeys.2
      refine ⟨removed, hout, hspec.nodup, fun id' hid => .tail _ (hspec.subset id' hid), hspec.get?,
        hspec.complete, ?_, hspec.entries⟩
      rintro id' (_ | ⟨_, hid⟩) d hd hcomplete
      · have hnot : id ∉ removed := fun hmem => hkeys.1 (hspec.subset id hmem)
        rw [hspec.get?, if_neg hnot] at hd
        exact hkept d hd hcomplete
      · exact hspec.balanced id' hid d hd hcomplete
    · -- The instance is removed.
      obtain ⟨removed, hout, hspec⟩ := ih h hkeys.2
      have hnot : id ∉ removed := fun hmem => hkeys.1 (hspec.subset id hmem)
      refine ⟨id :: removed, by rw [hout]; simp, List.nodup_cons.mpr ⟨hnot, hspec.nodup⟩, ?_, ?_,
        ?_, ?_, hspec.entries.trans List.filter_sublist⟩
      · rintro id' (_ | ⟨_, hid⟩)
        · exact List.mem_cons_self
        · exact .tail _ (hspec.subset id' hid)
      · intro id'
        rw [hspec.get?, Dict.get?_erase]
        by_cases hid : id' = id
        · simp [hid]
        · simp [hid]
      · rintro id' (_ | ⟨_, hid⟩)
        · exact ⟨d, hd, hcomplete⟩
        · obtain ⟨d', hd', hcomplete'⟩ := hspec.complete id' hid
          rw [Dict.get?_erase] at hd'
          split at hd'
          · cases hd'
          · exact ⟨d', hd', hcomplete'⟩
      · rintro id' (_ | ⟨_, hid⟩) d' hd' hcomplete'
        · rw [hspec.get?, if_neg hnot, Dict.get?_erase, if_pos rfl] at hd'
          cases hd'
        · exact hspec.balanced id' hid d' hd' hcomplete'

/-- **The filter of easy and hard instances.** -/
theorem filterEasyHardInstance_spec {responses responses' : Responses F} {removed : List String}
    (h : filterEasyHardInstance config responses = .ok (responses', removed)) :
    FilterSpec config responses.keys responses removed responses' := by
  obtain ⟨removed', hout, hspec⟩ := filter_loop h responses.nodup
  obtain rfl : removed = removed' := by simpa using hout
  exact hspec

/-! ## Complete instances -/

/-- A complete instance has a result for every trajectory index. -/
lemma get?_of_isComplete {d : Dict ℕ (Response F)}
    (hkeys : ∀ t ∈ d.keys, t < config.numTrajectories)
    (hcomplete : isComplete config d) {t : ℕ} (ht : t < config.numTrajectories) :
    ∃ response, d.get? t = some response := by
  have hlen : d.entries.length = config.numTrajectories := by simpa [isComplete] using hcomplete
  have hsubperm : d.keys.Subperm (List.range config.numTrajectories) :=
    List.Nodup.subperm d.nodup fun t ht => List.mem_range.mpr (hkeys t ht)
  have hperm := hsubperm.perm_of_length_le (by simp [Dict.keys, hlen])
  exact Dict.mem_keys_iff.mp (hperm.mem_iff.mpr (List.mem_range.mpr ht))

/-- A filter completes no instance. -/
lemma FilterSpec.numCompleted_le {keys removed : List String} {responses responses' : Responses F}
    (h : FilterSpec config keys responses removed responses') :
    numCompletedInstances config responses' ≤ numCompletedInstances config responses :=
  (h.entries.map Prod.snd).countP_le

/-- A result completes at most one instance. -/
lemma numCompleted_store_le (responses : Responses F) (message : Message)
    (result : Option (Response F)) :
    numCompletedInstances config (storeResponse responses message result)
      ≤ numCompletedInstances config responses + 1 := by
  simp only [numCompletedInstances, storeResponse, Dict.values]
  rw [((Dict.entries_set_perm _ _ _).map Prod.snd).countP_eq, List.map_cons, List.countP_cons]
  have hle : ((responses.erase message.instanceId).entries.map Prod.snd).countP
      (isComplete config) ≤ (responses.entries.map Prod.snd).countP (isComplete config) :=
    (List.filter_sublist.map Prod.snd).countP_le
  split <;> omega

/-! ## The invariant of the collecting loop -/

/-- How many instances are complete where the collector is. -/
def Counted (config : Config) (s : State F) : Prop :=
  match s.collector with
  | .top | .sleeping =>
    numCompletedInstances config s.allResponses < config.trainBatchSize ∨
      config.trainBatchSize = 0 ∧ s.allResponses.entries = []
  | .loggingJobs n | .loggingServers n =>
    n = numCompletedInstances config s.allResponses ∧ n ≤ config.trainBatchSize ∧
      0 < config.trainBatchSize
  | .stopping => numCompletedInstances config s.allResponses = config.trainBatchSize
  | .idle | .failed _ => True

/-- **The invariant**: the trajectories are tracked, and none of them is collected or of a dropped
instance; the collected answers are to trajectories of the batch; dropped instances are distinct
instances of the batch; and complete instances are balanced. -/
structure Collected (config : Config) (s : State F) : Prop extends Tracked config s where
  uncollected : ∀ k ∈ s.ledger, lookupResponse s.allResponses k.2 = none
  undropped : ∀ k ∈ s.ledger, k.2.instanceId ∉ s.filteredInstanceIds
  stored : ∀ id d, s.allResponses.get? id = some d →
    id ∈ s.allInputBatch.map Instance.instanceId ∧ id ∉ s.filteredInstanceIds ∧
      ∀ t ∈ d.keys, t < config.numTrajectories
  dropped_nodup : s.filteredInstanceIds.Nodup
  dropped : ∀ id ∈ s.filteredInstanceIds, id ∈ s.allInputBatch.map Instance.instanceId
  balanced : ∀ id d, s.allResponses.get? id = some d → isComplete config d → Balanced config d
  counted : Counted config s

/-- The invariant of the loop depends on the ledger, the batch and the answers. -/
lemma Collected.of_subperm (hs : Collected config s) (hledger : s'.ledger.Subperm s.ledger)
    (hbatch : s'.allInputBatch = s.allInputBatch) (hresponses : s'.allResponses = s.allResponses)
    (hfiltered : s'.filteredInstanceIds = s.filteredInstanceIds) (hcounted : Counted config s') :
    Collected config s' := by
  refine ⟨hs.toTracked.of_subperm hledger hbatch, ?_, ?_, ?_, ?_, ?_, ?_, hcounted⟩
  · intro k hk
    rw [hresponses]
    exact hs.uncollected k (hledger.subset hk)
  · intro k hk
    rw [hfiltered]
    exact hs.undropped k (hledger.subset hk)
  · rw [hresponses, hbatch, hfiltered]
    exact hs.stored
  · rw [hfiltered]
    exact hs.dropped_nodup
  · rw [hfiltered, hbatch]
    exact hs.dropped
  · rw [hresponses]
    exact hs.balanced

/-- A quiet step keeps the count of complete instances. -/
lemma Quiet.counted (h : Quiet s s') (hs : Counted config s) : Counted config s' := by
  simp only [Counted, h.allResponses] at hs ⊢
  rcases h.collector with heq | ⟨hpc, heq⟩ | ⟨hpc, heq⟩ | ⟨n, hpc, heq⟩ | ⟨error, heq⟩
  · rw [heq]
    exact hs
  · rw [hpc] at hs
    rw [heq]
    exact hs
  · rw [hpc] at hs
    rw [heq]
    exact hs
  · rw [hpc] at hs
    rw [heq]
    exact hs
  · rw [heq]
    trivial

/-- A refill keeps the invariant. -/
lemma Collected.of_refilled {batch : List Instance} (hs : Collected config s)
    (h : Refilled config s batch s') : Collected config s' := by
  have hids : ((s.allInputBatch ++ batch).map Instance.instanceId).Nodup := h.fresh
  rw [List.map_append, List.nodup_append] at hids
  obtain ⟨-, -, hdisjoint⟩ := hids
  have hold : ∀ id ∈ s.allInputBatch.map Instance.instanceId,
      id ∈ s'.allInputBatch.map Instance.instanceId := by
    intro id hid
    rw [h.allInputBatch, List.map_append]
    exact List.mem_append_left _ hid
  refine ⟨hs.toTracked.of_refilled h, ?_, ?_, ?_, ?_, ?_, ?_, ?_⟩
  · intro k hk
    rw [h.allResponses]
    rw [h.ledger, List.mem_append] at hk
    rcases hk with hk | hk
    · -- A new instance has no answers yet.
      have hnew := (mem_messagesOf.mp (mem_of_mem_indexed hk)).1
      cases hget : s.allResponses.get? k.2.instanceId with
      | none => simp [lookupResponse, hget]
      | some d => exact absurd rfl (hdisjoint _ (hs.stored _ d hget).1 _ hnew)
    · exact hs.uncollected k hk
  · intro k hk hfiltered
    rw [h.filteredInstanceIds] at hfiltered
    rw [h.ledger, List.mem_append] at hk
    rcases hk with hk | hk
    · exact hdisjoint _ (hs.dropped _ hfiltered) _ (mem_messagesOf.mp (mem_of_mem_indexed hk)).1 rfl
    · exact hs.undropped k hk hfiltered
  · intro id d hd
    rw [h.allResponses] at hd
    obtain ⟨hid, hnot, hkeys⟩ := hs.stored id d hd
    exact ⟨hold id hid, by rwa [h.filteredInstanceIds], hkeys⟩
  · rw [h.filteredInstanceIds]
    exact hs.dropped_nodup
  · intro id hid
    rw [h.filteredInstanceIds] at hid
    exact hold id (hs.dropped id hid)
  · rw [h.allResponses]
    exact hs.balanced
  · have hcounted := hs.counted
    simp only [Counted, h.allResponses, h.collector] at hcounted ⊢
    exact hcounted

/-! ## The arrival of a result -/

section Arrival

variable {job : Job} {result : Option (Response F)}

/-- The trajectories of an instance behind the arrival of a result: its own and the new one. -/
lemma get?_storeResponse {id : String} {d : Dict ℕ (Response F)}
    (h : (storeResponse s.allResponses job.message result).get? id = some d) :
    (id ≠ job.message.instanceId ∧ s.allResponses.get? id = some d) ∨
    (id = job.message.instanceId ∧ ∃ d₀, d = d₀.set job.message.trajectoryId
        (result.getD emptyResponse) ∧
      (s.allResponses.get? id = some d₀ ∨ s.allResponses.get? id = none ∧ d₀ = Dict.empty)) := by
  rw [storeResponse, Dict.get?_set] at h
  split at h
  · next hid =>
    refine .inr ⟨hid, _, (Option.some.inj h).symm, ?_⟩
    cases hget : s.allResponses.get? job.message.instanceId with
    | none => exact .inr ⟨by rw [hid, hget], rfl⟩
    | some d₀ => exact .inl (by rw [hid, hget]; rfl)
  · next hid => exact .inl ⟨hid, h⟩

/-- The answers stored behind the arrival of a tracked result are to trajectories of the batch. -/
lemma stored_storeResponse (hs : Collected config s) (hjob : key job ∈ s.ledger) {id : String}
    {d : Dict ℕ (Response F)}
    (h : (storeResponse s.allResponses job.message result).get? id = some d) :
    id ∈ s.allInputBatch.map Instance.instanceId ∧ id ∉ s.filteredInstanceIds ∧
      ∀ t ∈ d.keys, t < config.numTrajectories := by
  rcases get?_storeResponse h with ⟨-, hold⟩ | ⟨rfl, d₀, rfl, hd₀⟩
  · exact hs.stored id d hold
  · obtain ⟨hid, ht⟩ := mem_messagesOf.mp (hs.known _ hjob)
    refine ⟨hid, hs.undropped _ hjob, fun t htkey => ?_⟩
    obtain ⟨response, hresponse⟩ := Dict.mem_keys_iff.mp htkey
    rw [Dict.get?_set] at hresponse
    split at hresponse
    · next heq =>
      rw [heq]
      exact ht
    · rcases hd₀ with hold | ⟨-, rfl⟩
      · exact (hs.stored _ d₀ hold).2.2 t (Dict.mem_keys_iff.mpr ⟨response, hresponse⟩)
      · cases hresponse

/-- A filter answers no message that had no answer. -/
lemma FilterSpec.lookup_none {keys removed : List String} {responses responses' : Responses F}
    (h : FilterSpec config keys responses removed responses') {m : Message}
    (hm : lookupResponse responses m = none) : lookupResponse responses' m = none := by
  rw [lookupResponse, h.get?]
  split
  · rfl
  · exact hm

/-- **The arrival of a result keeps the invariant**: the result was tracked, so its trajectory was
neither collected nor of a dropped instance before, and a dropped instance has no trajectory left
in the ledger. -/
lemma Collected.of_arrival (hs : Collected config s) (result : Option (Response F))
    (hledger : (key job :: s'.ledger).Subperm s.ledger)
    (hbatch : s'.allInputBatch = s.allInputBatch) {removed : List String}
    (hfilter : filterEasyHardInstance config (storeResponse s.allResponses job.message result)
      = .ok (s'.allResponses, removed))
    (hfiltered : s'.filteredInstanceIds = s.filteredInstanceIds ++ removed)
    (hcounted : Counted config s') : Collected config s' := by
  have hspec := filterEasyHardInstance_spec hfilter
  have hjob : key job ∈ s.ledger := hledger.subset List.mem_cons_self
  have hrest : s'.ledger.Subperm s.ledger := (List.sublist_cons_self _ _).subperm.trans hledger
  have hother : ∀ k ∈ s'.ledger, k.2 ≠ job.message := by
    intro k hk heq
    have hnodup := nodup_map_of_subperm hledger hs.messages
    rw [List.map_cons, List.nodup_cons] at hnodup
    exact hnodup.1 (List.mem_map.mpr ⟨k, hk, heq⟩)
  have hnone : ∀ k ∈ s'.ledger,
      lookupResponse (storeResponse s.allResponses job.message result) k.2 = none := by
    intro k hk
    rw [lookupResponse_store, if_neg (hother k hk)]
    exact hs.uncollected k (hrest.subset hk)
  refine ⟨hs.toTracked.of_subperm hrest hbatch, ?_, ?_, ?_, ?_, ?_, ?_, hcounted⟩
  · exact fun k hk => hspec.lookup_none (hnone k hk)
  · intro k hk hmem
    rw [hfiltered, List.mem_append] at hmem
    rcases hmem with hmem | hmem
    · exact hs.undropped k (hrest.subset hk) hmem
    · -- A complete instance has all its answers, so none of its trajectories is in the ledger.
      obtain ⟨d, hd, hcomplete⟩ := hspec.complete _ hmem
      have hkeys := (stored_storeResponse hs hjob hd).2.2
      have ht := (mem_messagesOf.mp (hs.known k (hrest.subset hk))).2
      obtain ⟨response, hresponse⟩ := get?_of_isComplete hkeys hcomplete ht
      have hlookup := hnone k hk
      rw [lookupResponse, hd, Option.bind_some, hresponse] at hlookup
      cases hlookup
  · intro id d hd
    rw [hspec.get?] at hd
    split at hd
    · cases hd
    · next hnot =>
      obtain ⟨hid, hnot', hkeys⟩ := stored_storeResponse hs hjob hd
      rw [hbatch, hfiltered, List.mem_append, not_or]
      exact ⟨hid, ⟨hnot', hnot⟩, hkeys⟩
  · rw [hfiltered, List.nodup_append]
    refine ⟨hs.dropped_nodup, hspec.nodup, ?_⟩
    rintro id hid id' hid' rfl
    obtain ⟨d, hd, -⟩ := hspec.complete id hid'
    exact (stored_storeResponse hs hjob hd).2.1 hid
  · intro id hid
    rw [hfiltered, List.mem_append] at hid
    rw [hbatch]
    rcases hid with hid | hid
    · exact hs.dropped id hid
    · obtain ⟨d, hd, -⟩ := hspec.complete id hid
      exact (stored_storeResponse hs hjob hd).1
  · intro id d hd hcomplete
    refine hspec.balanced id ?_ d hd hcomplete
    rw [hspec.get?] at hd
    split at hd
    · cases hd
    · exact Dict.mem_keys_iff.mpr ⟨d, hd⟩

/-- The decision counts the complete instances. -/
lemma counted_decideStep {n : ℕ} (hn : n = numCompletedInstances config s.allResponses)
    (hle : n ≤ config.trainBatchSize) : Counted config (decideStep config s n) := by
  rw [decideStep]
  split
  · next hge =>
    simp only [Counted, ← hn]
    omega
  · next hlt =>
    simp only [Counted, ← hn]
    omega

/-- The first result completes no instance: a complete instance with one trajectory is not
balanced. -/
lemma numCompleted_of_empty {responses : Responses F} {removed : List String}
    (hempty : s.allResponses.entries = [])
    (hfilter : filterEasyHardInstance config (storeResponse s.allResponses job.message result)
      = .ok (responses, removed)) : numCompletedInstances config responses = 0 := by
  have hspec := filterEasyHardInstance_spec hfilter
  have hnone : ∀ id, s.allResponses.get? id = none := fun id => by simp [Dict.get?, hempty]
  refine List.countP_eq_zero.mpr fun d hd hcomplete => ?_
  obtain ⟨⟨id, _⟩, hmem, rfl⟩ := List.mem_map.mp hd
  have hget := Dict.get?_eq_some_iff.mpr hmem
  rw [hspec.get?] at hget
  split at hget
  · cases hget
  · have hbalanced := hspec.balanced id (Dict.mem_keys_iff.mpr ⟨_, hget⟩) _
      (Dict.get?_eq_some_iff.mpr hmem) hcomplete
    obtain ⟨count, -, hpos, hlt⟩ := hbalanced
    rcases get?_storeResponse hget with ⟨-, hold⟩ | ⟨-, d₀, rfl, hd₀⟩
    · rw [hnone] at hold
      cases hold
    · obtain rfl : d₀ = Dict.empty := by
        rcases hd₀ with hold | ⟨-, heq⟩
        · rw [hnone] at hold
          cases hold
        · exact heq
      have hlen : (1 : ℕ) = config.numTrajectories := by
        simpa [isComplete, Dict.set, Dict.empty] using hcomplete
      omega

/-- The pass of the loop if the filter returns. -/
lemma collectResult_of_ok {results : List (Job × Option (Response F))} {responses : Responses F}
    {removed : List String}
    (hfilter : filterEasyHardInstance config (storeResponse s.allResponses job.message result)
      = .ok (responses, removed)) :
    collectResult config s job result results =
      if (s.completedCount + 1) % 4 = 0 ∨
          numCompletedInstances config responses = config.trainBatchSize then
        if config.trainBatchSize = 0 then
          { s with
            resultsQueue := results
            completedCount := s.completedCount + 1
            allResponses := responses
            filteredInstanceIds := s.filteredInstanceIds ++ removed
            collector := .failed (.other "division by zero") }
        else
          { s with
            resultsQueue := results
            completedCount := s.completedCount + 1
            allResponses := responses
            filteredInstanceIds := s.filteredInstanceIds ++ removed
            collector := .loggingJobs (numCompletedInstances config responses) }
      else
        decideStep config
          { s with
            resultsQueue := results
            completedCount := s.completedCount + 1
            allResponses := responses
            filteredInstanceIds := s.filteredInstanceIds ++ removed }
          (numCompletedInstances config responses) := by
  simp only [collectResult, hfilter]

/-- The pass of the loop behind the arrival of a result keeps the invariant. -/
lemma collectResult_collected {results : List (Job × Option (Response F))}
    (hs : Collected config s) (htop : s.collector = .top)
    (hresults : s.resultsQueue.Perm ((job, result) :: results)) :
    Collected config (collectResult config s job result results) := by
  have hledger : (key job :: (collectResult config s job result results).ledger).Subperm s.ledger :=
    ledger_collectResult hresults
  have hbatch := (collectResult_data config s job result results).1
  have hcounted := hs.counted
  simp only [Counted, htop] at hcounted
  cases hfilter : filterEasyHardInstance config
      (storeResponse s.allResponses job.message result) with
  | error error =>
    have hstate : collectResult config s job result results = { s with
        resultsQueue := results
        completedCount := s.completedCount + 1
        collector := .failed error } := by
      simp only [collectResult, hfilter]
    rw [hstate] at hledger ⊢
    exact hs.of_subperm ((List.sublist_cons_self _ _).subperm.trans hledger) rfl rfl rfl trivial
  | ok out =>
    obtain ⟨responses, removed⟩ := out
    have hspec := filterEasyHardInstance_spec hfilter
    have hle := hspec.numCompleted_le.trans
      (numCompleted_store_le s.allResponses job.message result)
    have hzero : config.trainBatchSize = 0 → numCompletedInstances config responses = 0 := by
      intro hzero
      rcases hcounted with hlt | ⟨-, hempty⟩
      · omega
      · exact numCompleted_of_empty hempty hfilter
    rw [collectResult_of_ok hfilter] at hledger hbatch ⊢
    split at hledger
    · next hlog =>
      rw [if_pos hlog] at hbatch ⊢
      split at hledger
      · next hsize =>
        rw [if_pos hsize] at hbatch ⊢
        exact hs.of_arrival result hledger rfl hfilter rfl trivial
      · next hsize =>
        rw [if_neg hsize] at hbatch ⊢
        refine hs.of_arrival result hledger rfl hfilter rfl ?_
        exact ⟨rfl, by omega, by omega⟩
    · next hlog =>
      rw [if_neg hlog] at hbatch ⊢
      obtain ⟨-, -, hresponses, hfiltered⟩ := decideStep_data config
        { s with
          resultsQueue := results
          completedCount := s.completedCount + 1
          allResponses := responses
          filteredInstanceIds := s.filteredInstanceIds ++ removed }
        (numCompletedInstances config responses)
      refine hs.of_arrival result hledger hbatch (hfilter.trans (by rw [hresponses])) hfiltered ?_
      refine counted_decideStep rfl ?_
      by_cases hsize : config.trainBatchSize = 0
      · exact absurd (.inr ((hzero hsize).trans hsize.symm)) hlog
      · omega

end Arrival

/-- **Every step of a round keeps the invariant of the loop.** -/
theorem roundStep_collected {a : Label F} (hs : Collected config s)
    (h : roundStep config s a = some s') : Collected config s' := by
  obtain hquiet | ⟨batch, hrefill⟩ | ⟨job, result, results, htop, hresults, rfl⟩ |
    ⟨n, hpc, rfl⟩ := roundStep_cases h
  · exact hs.of_subperm hquiet.ledger hquiet.allInputBatch hquiet.allResponses
      hquiet.filteredInstanceIds (hquiet.counted hs.counted)
  · exact hs.of_refilled hrefill
  · exact collectResult_collected hs htop hresults
  · obtain ⟨hbatch, -, hresponses, hfiltered⟩ := decideStep_data config s n
    have hcounted := hs.counted
    simp only [Counted, hpc] at hcounted
    exact hs.of_subperm (ledger_decideStep n) hbatch hresponses hfiltered
      (counted_decideStep hcounted.1 hcounted.2.1)

/-! ## The end of a round -/

/-- The loop that records the index of each instance. -/
lemma get?_foldl_set (pairs : List (Instance × ℕ)) (d : Dict String ℕ) (id : String) :
    (∀ i, (pairs.foldl (fun d (item, i) => d.set item.instanceId i) d).get? id = some i →
      (∃ item, (item, i) ∈ pairs ∧ item.instanceId = id) ∨ d.get? id = some i) ∧
    ((id ∈ pairs.map fun p => p.1.instanceId) ∨ (d.get? id).isSome →
      ((pairs.foldl (fun d (item, i) => d.set item.instanceId i) d).get? id).isSome) := by
  induction pairs generalizing d with
  | nil => simp
  | cons p pairs ih =>
    obtain ⟨item, j⟩ := p
    obtain ⟨hsome, hmem⟩ := ih (d.set item.instanceId j)
    rw [List.foldl_cons]
    constructor
    · intro i hi
      rcases hsome i hi with ⟨item', hitem', hid⟩ | hget
      · exact .inl ⟨item', .tail _ hitem', hid⟩
      · rw [Dict.get?_set] at hget
        split at hget
        · next heq =>
          obtain rfl := Option.some.inj hget
          exact .inl ⟨item, .head _, heq.symm⟩
        · exact .inr hget
    · intro h
      refine hmem ?_
      rw [Dict.get?_set]
      by_cases hid : id = item.instanceId
      · exact .inr (by rw [if_pos hid]; rfl)
      · rw [if_neg hid]
        rcases h with h | h
        · rw [List.map_cons, List.mem_cons] at h
          rcases h with h | h
          · exact absurd h hid
          · exact .inl h
        · exact .inr h

/-- Every id of the batch selects an instance with this id. -/
lemma exists_selectInstance {batch : List Instance} {id : String}
    (h : id ∈ batch.map Instance.instanceId) :
    ∃ item, selectInstance batch id = .ok item ∧ item.instanceId = id := by
  have hids : batch.zipIdx.map (fun p => p.1.instanceId) = batch.map Instance.instanceId := by
    conv_rhs => rw [← List.zipIdx_map_fst 0 batch, List.map_map]
    rfl
  obtain ⟨hsome, hmem⟩ := get?_foldl_set batch.zipIdx Dict.empty id
  obtain ⟨i, hi⟩ := Option.isSome_iff_exists.mp (hmem (.inl (hids ▸ h)))
  rcases hsome i hi with ⟨item, hitem, hid⟩ | hget
  · have hget := List.mk_mem_zipIdx_iff_getElem?.mp hitem
    refine ⟨item, ?_, hid⟩
    simp only [selectInstance, instanceIdToBatchIdx, hi, hget]
  · cases hget

/-- The complete instances are selected. -/
lemma Collected.exists_filter (hs : Collected config s) :
    ∃ r, filterUncompletedInstances config s.allInputBatch s.allResponses s.filteredInstanceIds
        = .ok r ∧
      r.allResponses = (s.allResponses.filter fun e => isComplete config e.2) ∧
      r.outputBatch.map Instance.instanceId = r.allResponses.keys ∧
      r.remaining = s.allInputBatch.filter fun item =>
        item.instanceId ∉ s.filteredInstanceIds && item.instanceId ∉ r.allResponses.keys := by
  set kept := s.allResponses.filter fun e => isComplete config e.2 with hkept
  have hselect : ∀ id ∈ kept.keys,
      ∃ item, selectInstance s.allInputBatch id = .ok item ∧ item.instanceId = id := by
    intro id hid
    obtain ⟨d, hd⟩ := Dict.mem_keys_iff.mp hid
    exact exists_selectInstance (hs.stored id d (Dict.get?_filter_eq_some_iff.mp hd).1).1
  obtain ⟨output, houtput, hall⟩ := Except.exists_mapM_eq_ok hselect
  refine ⟨⟨kept, output, s.allInputBatch.filter fun item =>
    item.instanceId ∉ s.filteredInstanceIds && item.instanceId ∉ kept.keys⟩, ?_, rfl, ?_, rfl⟩
  · simp only [filterUncompletedInstances, ← hkept, houtput, bind, Except.bind, pure, Except.pure]
  · have hmap := map_eq_map_of_forall₂ (f := id) hall
    rwa [List.map_id] at hmap

/-- **The division of the batch**: output, dropped and remaining instances are disjoint and make
up the batch. -/
lemma Collected.partition (hs : Collected config s) {kept : Responses F} {remaining : List Instance}
    (hkept : kept = s.allResponses.filter fun e => isComplete config e.2)
    (hremaining : remaining = s.allInputBatch.filter fun item =>
      item.instanceId ∉ s.filteredInstanceIds && item.instanceId ∉ kept.keys) :
    (kept.keys ++ s.filteredInstanceIds ++ remaining.map Instance.instanceId).Perm
      (s.allInputBatch.map Instance.instanceId) := by
  have hstored : ∀ id ∈ kept.keys, id ∈ s.allInputBatch.map Instance.instanceId ∧
      id ∉ s.filteredInstanceIds := by
    intro id hid
    obtain ⟨d, hd⟩ := Dict.mem_keys_iff.mp hid
    rw [hkept] at hd
    have hget := hs.stored id d (Dict.get?_filter_eq_some_iff.mp hd).1
    exact ⟨hget.1, hget.2.1⟩
  have hrest : ∀ id, id ∈ remaining.map Instance.instanceId ↔
      id ∈ s.allInputBatch.map Instance.instanceId ∧ id ∉ s.filteredInstanceIds ∧
        id ∉ kept.keys := by
    intro id
    simp only [hremaining, List.mem_map, List.mem_filter, Bool.and_eq_true, decide_eq_true_eq]
    constructor
    · rintro ⟨item, ⟨hitem, hnot, hnot'⟩, rfl⟩
      exact ⟨⟨item, hitem, rfl⟩, hnot, hnot'⟩
    · rintro ⟨⟨item, hitem, rfl⟩, hnot, hnot'⟩
      exact ⟨item, ⟨hitem, hnot, hnot'⟩, rfl⟩
  have hnodup :
      (kept.keys ++ s.filteredInstanceIds ++ remaining.map Instance.instanceId).Nodup := by
    rw [List.nodup_append, List.nodup_append]
    refine ⟨⟨kept.nodup, hs.dropped_nodup, ?_⟩, ?_, ?_⟩
    · rintro id hid id' hid' rfl
      exact (hstored id hid).2 hid'
    · rw [hremaining]
      exact hs.ids.sublist (List.filter_sublist.map _)
    · rintro id hid id' hid' rfl
      obtain ⟨-, hnot, hnot'⟩ := (hrest id).mp hid'
      rcases List.mem_append.mp hid with hid | hid
      · exact hnot' hid
      · exact hnot hid
  refine (List.perm_ext_iff_of_nodup hnodup hs.ids).mpr fun id => ?_
  rw [List.mem_append, List.mem_append, hrest]
  constructor
  · rintro ((hid | hid) | hid)
    · exact (hstored id hid).1
    · exact hs.dropped id hid
    · exact hid.1
  · intro hid
    by_cases hkeys : id ∈ kept.keys
    · exact .inl (.inl hkeys)
    · by_cases hfiltered : id ∈ s.filteredInstanceIds
      · exact .inl (.inr hfiltered)
      · exact .inr ⟨hid, hfiltered, hkeys⟩

/-- **The start of a round**: the instances of the batch are distinct, and every queued trajectory
is of one of them and queued once. -/
structure RoundStart (config : Config) (s : State F) : Prop where
  ids : (s.allInputBatch.map Instance.instanceId).Nodup
  once : (s.jobQueue.map Job.message).Nodup
  known : ∀ j ∈ s.jobQueue, j.message ∈ messagesOf config.numTrajectories s.allInputBatch

/-- A round starts with the invariant of its loop. -/
lemma startRound_collected (h : RoundStart config s) : Collected config (startRound config s) := by
  have hledger : (startRound config s).ledger = s.jobQueue.map key := by
    simp [State.ledger, startRound, DispatcherPc.job?]
  refine ⟨⟨h.ids, ?_, ?_⟩, ?_, ?_, ?_, ?_, ?_, ?_, ?_⟩
  · rw [hledger, List.map_map]
    exact h.once
  · rw [hledger]
    intro k hk
    obtain ⟨j, hj, rfl⟩ := List.mem_map.mp hk
    exact h.known j hj
  · intro k _
    rfl
  · simp [startRound]
  · simp [startRound]
  · simp [startRound]
  · simp [startRound]
  · simp [startRound]
  · rcases Nat.eq_zero_or_pos config.trainBatchSize with hzero | hpos
    · exact .inr ⟨hzero, rfl⟩
    · exact .inl hpos

/-- The returned answers are those of the complete instances. -/
lemma length_kept (responses : Responses F) :
    (responses.filter fun e => isComplete config e.2).entries.length
      = numCompletedInstances config responses := by
  rw [Dict.filter, ← List.countP_eq_length_filter, numCompletedInstances, Dict.values,
    List.countP_map]
  rfl

/-- **A round loses no training data**: for every order of steps of a round that starts with each
queued trajectory queued once and distinct instances, when the collecting loop has been left,
exactly `train_batch_size` instances are complete and all of them are balanced; the round then
ends without a failed assertion and returns exactly these instances; and the batch before the end
is the disjoint union of the output batch, the dropped instances and the new batch. -/
theorem round_keeps_data {s₀ : State F} {labels : List (Label F)} (hstart : RoundStart config s₀)
    (hrun : Machine.run (roundStep config) (startRound config s₀) labels = some s)
    (hexit : s.collector = .stopping) :
    numCompletedInstances config s.allResponses = config.trainBatchSize ∧
    (∀ id d, s.allResponses.get? id = some d → isComplete config d → Balanced config d) ∧
    ∃ responses outputBatch, (finishRound config s).collector = .idle ∧
      (finishRound config s).returned = some (responses, outputBatch) ∧
      responses.entries.length = config.trainBatchSize ∧
      (∀ id d, responses.get? id = some d → isComplete config d ∧ Balanced config d) ∧
      outputBatch.map Instance.instanceId = responses.keys ∧
      (s.allInputBatch.map Instance.instanceId).Nodup ∧
      (outputBatch.map Instance.instanceId ++ s.filteredInstanceIds ++
        (finishRound config s).allInputBatch.map Instance.instanceId).Perm
          (s.allInputBatch.map Instance.instanceId) := by
  have hs : Collected config s := Machine.run_invariant (Collected config)
    (fun _ _ _ => roundStep_collected) (startRound_collected hstart) hrun
  have hcount : numCompletedInstances config s.allResponses = config.trainBatchSize := by
    have hcounted := hs.counted
    simpa only [Counted, hexit] using hcounted
  obtain ⟨r, hr, hkept, houtput, hremaining⟩ := hs.exists_filter
  have hlen : r.allResponses.entries.length = config.trainBatchSize := by
    rw [hkept, length_kept, hcount]
  have hperm := hs.partition hkept hremaining
  have hsizes : r.sizesAgree config = true := by
    have houtputLen := congrArg List.length houtput
    rw [List.length_map, Dict.keys, List.length_map] at houtputLen
    simp [FilteredBatch.sizesAgree, houtputLen, hlen]
  have hpartitions : r.partitions s.allInputBatch s.filteredInstanceIds = true := by
    have hmem : ∀ id, (id ∈ r.remaining.map Instance.instanceId ++
        r.outputBatch.map Instance.instanceId ++ s.filteredInstanceIds) ↔
        id ∈ s.allInputBatch.map Instance.instanceId := by
      intro id
      rw [← hperm.mem_iff, houtput]
      simp only [List.mem_append]
      tauto
    simp only [FilteredBatch.partitions, Bool.and_eq_true, List.all_eq_true, decide_eq_true_eq]
    exact ⟨fun id hid => (hmem id).mpr hid, fun id hid => (hmem id).mp hid⟩
  have hfinish : finishRound config s = pushRemainingTrainDataToJobQueue config { s with
      dispatcher := .stopped
      pendingGet := false
      tasks := []
      resultsQueue := []
      allInputBatch := r.remaining
      collector := .idle
      returned := some (r.allResponses, r.outputBatch) } := by
    simp only [finishRound, hr, hsizes, hpartitions, not_true_eq_false, or_self, if_false]
  refine ⟨hcount, hs.balanced, r.allResponses, r.outputBatch, ?_, ?_, hlen, ?_, houtput, hs.ids, ?_⟩
  · rw [hfinish]
    rfl
  · rw [hfinish]
    rfl
  · intro id d hd
    rw [hkept] at hd
    obtain ⟨hget, hcomplete⟩ := Dict.get?_filter_eq_some_iff.mp hd
    exact ⟨hcomplete, hs.balanced id d hget hcomplete⟩
  · rw [hfinish, houtput]
    exact hperm

/-! ### A round with one balanced instance -/

/-- A manager with two instances whose trajectories are queued. -/
def queuedPairs : State ℤ :=
  { init with
    allInputBatch := [⟨"a"⟩, ⟨"b"⟩]
    lastDataIndex := 4
    jobQueue := indexed 0 (messagesOf 2 [⟨"a"⟩, ⟨"b"⟩]) }

/-- One trajectory of the first instance is resolved and the other is not, and the round ends with
the first instance as output and the second as the new batch. -/
theorem round_keeps_data_pair :
    ∃ s : State ℤ, Machine.run (roundStep smallConfig) (startRound smallConfig queuedPairs)
        (served 0 true ++ served 1 false ++ [Label.collector 0, .collector 0]) = some s ∧
      s.collector = .stopping ∧
      numCompletedInstances smallConfig s.allResponses = 1 ∧
      (finishRound smallConfig s).collector = .idle ∧
      (finishRound smallConfig s).allInputBatch = [⟨"b"⟩] := by
  have hstart : RoundStart smallConfig queuedPairs := ⟨by decide, by decide, by decide⟩
  obtain ⟨s, hrun, hexit, hrest⟩ : ∃ s : State ℤ,
      Machine.run (roundStep smallConfig) (startRound smallConfig queuedPairs)
        (served 0 true ++ served 1 false ++ [Label.collector 0, .collector 0]) = some s ∧
      s.collector = .stopping ∧ (finishRound smallConfig s).allInputBatch = [⟨"b"⟩] :=
    ⟨_, rfl, rfl, by decide⟩
  obtain ⟨hcount, -, responses, output, hidle, -⟩ := round_keeps_data hstart hrun hexit
  exact ⟨s, hrun, hexit, hcount, hidle, hrest⟩

end ProRLAgent.Rollout.Dapo
