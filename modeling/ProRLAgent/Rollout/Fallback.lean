import ProRLAgent.Rollout.Alignment

set_option relaxedAutoImplicit false
set_option autoImplicit false

/-!
# The fallback for empty trajectories

Before the rows of a batch are encoded, rows without messages take those of a donor: the first row
with messages of the same instance, or else the donor of the instances before it. The instances come
in the order of the batch, so an instance without messages at the front of the batch finds no donor,
although a later instance may have one.

## Main definitions

* `ProRLAgent.Rollout.fallbackRows` — the rows of a batch after the fallback loop.
* `ProRLAgent.Rollout.FallbackFills` — every row has messages, from one donor, in any order.

## Main results

* `ProRLAgent.Rollout.getElem?_fillEmptyMessages` — a row after the loop.
* `ProRLAgent.Rollout.fallbackFills_iff` — when the fallback does what it is for.
-/

namespace ProRLAgent.Rollout

variable {F : Type}

/-! ## What the fallback is for -/

/-- The rows of a batch after the fallback loop. -/
def fallbackRows (results : Dict String (Dict ℕ (TrajResult F))) (inputBatch : List Instance) :
    List (TrajResult F) :=
  fillEmptyMessages ((matchedResults results inputBatch).map fun row => row.1.instanceId)
    ((matchedResults results inputBatch).map Prod.snd)

/-- The row has the messages and the outcome of the donor. -/
def TakesFrom (donor row : TrajResult F) : Prop :=
  row.messages = donor.messages ∧ row.resolved = donor.resolved ∧ row.error = donor.error ∧
    row.finish = donor.finish

/-- Row `k` has messages. -/
def HasMessages (rows : List (TrajResult F)) (k : ℕ) : Prop :=
  ∃ row, rows[k]? = some row ∧ row.messages ≠ []

/-- Some trajectory of the instance has messages. -/
def InstanceHasMessages (results : Dict String (Dict ℕ (TrajResult F))) (item : Instance) : Prop :=
  ∃ result ∈ (trajectoriesOf results item).values, result.messages ≠ []

/-- **The fallback fills every row**: all rows have messages; a filled row takes them and the
outcome from one donor, of the same instance if that has one; rows with messages stay; and whether a
row is filled does not depend on the order of the batch. -/
structure FallbackFills (results : Dict String (Dict ℕ (TrajResult F)))
    (inputBatch : List Instance) : Prop where
  fills : ∀ row ∈ fallbackRows results inputBatch, row.messages ≠ []
  donor : ∀ (k : ℕ) item row row', (matchedResults results inputBatch)[k]? = some (item, row) →
    row.messages = [] → (fallbackRows results inputBatch)[k]? = some row' → row'.messages ≠ [] →
      ∃ (d : ℕ) (item' : Instance) (donor : TrajResult F),
        (matchedResults results inputBatch)[d]? = some (item', donor) ∧
        donor.messages ≠ [] ∧ TakesFrom donor row' ∧
        (InstanceHasMessages results item → item' = item)
  keeps : ∀ (k : ℕ) item row, (matchedResults results inputBatch)[k]? = some (item, row) →
    row.messages ≠ [] → (fallbackRows results inputBatch)[k]? = some row
  order : ∀ inputBatch' : List Instance, inputBatch'.Perm inputBatch → ∀ (k k' : ℕ) origin,
    (rowOrigins results inputBatch)[k]? = some origin →
      (rowOrigins results inputBatch')[k']? = some origin →
        (HasMessages (fallbackRows results inputBatch) k ↔
          HasMessages (fallbackRows results inputBatch') k')

/-! ## The donor of a group -/

/-- The first row of a group that has messages. -/
def validRow (rows : List (TrajResult F)) (group : List ℕ) : Option (TrajResult F) :=
  (group.filterMap fun i => rows[i]?).find? fun row => !row.messages.isEmpty

/-- The donor that is carried on after some groups. -/
def carriedDonor (rows : List (TrajResult F)) (donor : Option (TrajResult F))
    (groups : List (List ℕ)) : Option (TrajResult F) :=
  groups.foldl (fun d group => validRow rows group <|> d) donor

/-- A row after the pass of its group. -/
def filledBy (donor : Option (TrajResult F)) (row : TrajResult F) : TrajResult F :=
  match donor with
  | some d => fillRow d row
  | none => row

/-- The valid row of a group depends on its rows only. -/
lemma validRow_congr {rows rows' : List (TrajResult F)} {group : List ℕ}
    (h : ∀ i ∈ group, rows[i]? = rows'[i]?) : validRow rows group = validRow rows' group := by
  rw [validRow, validRow, List.filterMap_congr h]

/-- The valid row is a row of the group with messages. -/
lemma exists_of_validRow {rows : List (TrajResult F)} {group : List ℕ} {donor : TrajResult F}
    (h : validRow rows group = some donor) :
    donor.messages ≠ [] ∧ ∃ i ∈ group, rows[i]? = some donor := by
  have hmem := List.mem_filterMap.mp (List.mem_of_find?_eq_some h)
  have hmessages := List.find?_some h
  exact ⟨by simpa using hmessages, hmem⟩

/-- A group has no valid row exactly if none of its rows has messages. -/
lemma validRow_eq_none_iff {rows : List (TrajResult F)} {group : List ℕ} :
    validRow rows group = none ↔ ∀ i ∈ group, ∀ row, rows[i]? = some row → row.messages = [] := by
  simp only [validRow, List.find?_eq_none, List.mem_filterMap]
  constructor
  · intro h i hi row hrow
    simpa using h row ⟨i, hi, hrow⟩
  · rintro h row ⟨i, hi, hrow⟩
    simp [h i hi row hrow]

/-- Filling a row twice is filling it once. -/
lemma fillRow_fillRow {donor row : TrajResult F} (h : donor.messages ≠ []) :
    fillRow donor (fillRow donor row) = fillRow donor row := by
  by_cases hrow : row.messages = []
  · refine fillRow_of_ne_nil ?_
    simpa [fillRow, hrow] using h
  · rw [fillRow_of_ne_nil hrow, fillRow_of_ne_nil hrow]

/-! ## One pass -/

/-- The rows after the inner loop of a pass. -/
lemma getElem?_foldl_fillRow {donor : TrajResult F} (h : donor.messages ≠ []) (group : List ℕ)
    (rows : List (TrajResult F)) (k : ℕ) :
    (group.foldl (fun rows i => rows.modify i (fillRow donor)) rows)[k]? =
      if k ∈ group then (rows[k]?).map (fillRow donor) else rows[k]? := by
  induction group generalizing rows with
  | nil => simp
  | cons i group ih =>
    rw [List.foldl_cons, ih, List.getElem?_modify]
    by_cases hik : i = k
    · subst hik
      cases rows[i]? with
      | none => simp
      | some row => simp [fillRow_fillRow h]
    · simp [hik, Ne.symm hik]

/-- **One pass** fills the rows of the group from its donor and carries the donor on. -/
lemma fillGroup_spec (group : List ℕ) (rows : List (TrajResult F))
    (donor : Option (TrajResult F)) (hdonor : ∀ d, donor = some d → d.messages ≠ []) :
    (fillGroup (donor, rows) group).1 = (validRow rows group <|> donor) ∧
      ∀ k, (fillGroup (donor, rows) group).2[k]? =
        if k ∈ group then (rows[k]?).map (filledBy (validRow rows group <|> donor))
        else rows[k]? := by
  have hmessages : ∀ d, (validRow rows group <|> donor) = some d → d.messages ≠ [] := by
    intro d hd
    cases hvalid : validRow rows group with
    | none => exact hdonor d (by simpa [hvalid] using hd)
    | some d' =>
      obtain rfl : d' = d := by simpa [hvalid] using hd
      exact (exists_of_validRow hvalid).1
  have heq : fillGroup (donor, rows) group = match validRow rows group <|> donor with
      | some d => (some d, group.foldl (fun rows i => rows.modify i (fillRow d)) rows)
      | none => (donor, rows) := rfl
  rw [heq]
  cases hd : (validRow rows group <|> donor) with
  | none =>
    have hnone : donor = none := by
      cases hvalid : validRow rows group <;> simp [hvalid] at hd
      exact hd
    refine ⟨hnone, fun k => ?_⟩
    have hid : filledBy (none : Option (TrajResult F)) = id := rfl
    simp [hid]
  | some d =>
    refine ⟨rfl, fun k => ?_⟩
    exact getElem?_foldl_fillRow (hmessages d hd) group rows k

/-- A carried donor has messages, and it is a row of one of the groups. -/
lemma exists_of_carriedDonor {rows : List (TrajResult F)} {groups : List (List ℕ)}
    {d : TrajResult F} (h : carriedDonor rows none groups = some d) :
    d.messages ≠ [] ∧ ∃ i : ℕ, rows[i]? = some d := by
  rw [carriedDonor] at h
  induction groups using List.reverseRecOn with
  | nil => cases h
  | append_singleton groups group ih =>
    rw [List.foldl_append, List.foldl_cons, List.foldl_nil] at h
    cases hvalid : validRow rows group with
    | none => exact ih (by simpa [hvalid] using h)
    | some d' =>
      obtain rfl : d' = d := by simpa [hvalid] using h
      obtain ⟨hmessages, i, -, hi⟩ := exists_of_validRow hvalid
      exact ⟨hmessages, i, hi⟩

/-! ## The loop -/

/-- **Some passes**: they carry on the last donor, and change only rows of their groups. -/
lemma foldl_fillGroup (rows : List (TrajResult F)) {groups : List (List ℕ)}
    (hgroups : groups.Pairwise List.Disjoint) :
    (groups.foldl fillGroup (none, rows)).1 = carriedDonor rows none groups ∧
      ∀ k, (∀ group ∈ groups, k ∉ group) →
        (groups.foldl fillGroup (none, rows)).2[k]? = rows[k]? := by
  induction groups using List.reverseRecOn with
  | nil => exact ⟨rfl, fun _ _ => rfl⟩
  | append_singleton groups group ih =>
    obtain ⟨hbefore, -, hdisjoint⟩ := List.pairwise_append.mp hgroups
    obtain ⟨hdonor, hrows⟩ := ih hbefore
    -- The rows of the group are still the ones of the batch.
    have hvalid : validRow (groups.foldl fillGroup (none, rows)).2 group = validRow rows group :=
      validRow_congr fun i hi => hrows i fun other hother hmem =>
        hdisjoint other hother group (by simp) hmem hi
    obtain ⟨hstep, hstepRows⟩ := fillGroup_spec group
      (groups.foldl fillGroup (none, rows)).2 (carriedDonor rows none groups)
      fun d hd => (exists_of_carriedDonor hd).1
    rw [List.foldl_append, List.foldl_cons, List.foldl_nil,
      ← Prod.eta (groups.foldl fillGroup (none, rows)), hdonor]
    refine ⟨?_, fun k hk => ?_⟩
    · rw [hstep, hvalid, carriedDonor, carriedDonor, List.foldl_append]
      rfl
    · rw [hstepRows, if_neg (hk group (by simp))]
      exact hrows k fun other hother => hk other (by simp [hother])

/-- **A row after the loop**: it is filled by the valid row of its group, or else by the donor that
is carried on from the groups before. -/
lemma getElem?_foldl_fillGroup {rows : List (TrajResult F)} {before after : List (List ℕ)}
    {group : List ℕ} (hgroups : (before ++ group :: after).Pairwise List.Disjoint) {k : ℕ}
    (hk : k ∈ group) :
    ((before ++ group :: after).foldl fillGroup (none, rows)).2[k]? =
      (rows[k]?).map (filledBy (validRow rows group <|> carriedDonor rows none before)) := by
  -- The groups after it leave the row alone, so it is enough to run the groups up to it.
  induction after using List.reverseRecOn with
  | nil =>
    obtain ⟨hbefore, -, hdisjoint⟩ := List.pairwise_append.mp hgroups
    obtain ⟨hdonor, hrows⟩ := foldl_fillGroup rows hbefore
    have hvalid : validRow (before.foldl fillGroup (none, rows)).2 group = validRow rows group :=
      validRow_congr fun i hi => hrows i fun other hother hmem =>
        hdisjoint other hother group (by simp) hmem hi
    obtain ⟨-, hstep⟩ := fillGroup_spec group
      (before.foldl fillGroup (none, rows)).2 (carriedDonor rows none before)
      fun d hd => (exists_of_carriedDonor hd).1
    rw [List.foldl_append, List.foldl_cons, List.foldl_nil,
      ← Prod.eta (before.foldl fillGroup (none, rows)), hdonor, hstep, if_pos hk, hvalid]
    rw [hrows k fun other hother hmem => hdisjoint other hother group (by simp) hmem hk]
  | append_singleton after last ih =>
    rw [← List.cons_append, ← List.append_assoc] at hgroups ⊢
    obtain ⟨hinit, -, hdisjoint⟩ := List.pairwise_append.mp hgroups
    obtain ⟨hdonor, -⟩ := foldl_fillGroup rows hinit
    obtain ⟨-, hstep⟩ := fillGroup_spec last
      ((before ++ group :: after).foldl fillGroup (none, rows)).2
      (carriedDonor rows none (before ++ group :: after))
      fun d hd => (exists_of_carriedDonor hd).1
    have hlast : k ∉ last := hdisjoint group (by simp) last (by simp) hk
    rw [List.foldl_append, List.foldl_cons, List.foldl_nil,
      ← Prod.eta ((before ++ group :: after).foldl fillGroup (none, rows)), hdonor, hstep,
      if_neg hlast, ih hinit]

/-! ## The groups -/

/-- **The groups**: under every id stand the positions of the id, the ids come in the order of
their first occurrence. -/
structure GroupsOf (ids : List String) (d : Dict String (List ℕ)) : Prop where
  mem : ∀ id group, d.get? id = some group → ∀ i, i ∈ group ↔ ids[i]? = some id
  covers : ∀ id ∈ ids, ∃ group, d.get? id = some group
  head : d.keys.head? = ids.head?

/-- Setting a key keeps the first key, if there is one. -/
lemma head?_keys_set (d : Dict String (List ℕ)) (id : String) (group : List ℕ) :
    (d.set id group).keys.head? = d.keys.head?.or (some id) := by
  by_cases hmem : id ∈ d.entries.map Prod.fst
  · have hkeys : (d.set id group).keys = d.keys := by
      simp only [Dict.keys, Dict.set, dif_pos hmem, Dict.map_fst_replaceEntries]
    rw [hkeys]
    cases hhead : d.keys.head? with
    | none =>
      rw [List.head?_eq_none_iff, Dict.keys] at hhead
      simp [hhead] at hmem
    | some first => rfl
  · have hkeys : (d.set id group).keys = d.keys ++ [id] := by
      simp [Dict.keys, Dict.set, dif_neg hmem]
    rw [hkeys, List.head?_append]
    rfl

/-- The loop of `results_by_instance` makes the groups. -/
lemma groupsOf_resultsByInstance (ids : List String) : GroupsOf ids (resultsByInstance ids) := by
  induction ids using List.reverseRecOn with
  | nil => exact ⟨by simp [resultsByInstance], by simp, rfl⟩
  | append_singleton ids id ih =>
    have hstep : resultsByInstance (ids ++ [id]) = (resultsByInstance ids).set id
        (((resultsByInstance ids).get? id).getD [] ++ [ids.length]) := by
      simp [resultsByInstance, List.zipIdx_append]
    rw [hstep]
    refine ⟨fun id' group hgroup i => ?_, fun id' hid' => ?_, ?_⟩
    · rw [Dict.get?_set] at hgroup
      have hold : ∀ i, i ∈ ((resultsByInstance ids).get? id').getD [] ↔ ids[i]? = some id' := by
        intro i
        cases hget : (resultsByInstance ids).get? id' with
        | some group' => exact ih.mem id' group' hget i
        | none =>
          have hnot : id' ∉ ids := fun hmem => by
            obtain ⟨group', hgroup'⟩ := ih.covers id' hmem
            rw [hget] at hgroup'
            cases hgroup'
          have hne : ids[i]? ≠ some id' := fun hi => hnot (List.mem_of_getElem? hi)
          simp [hne]
      split_ifs at hgroup with hid
      · subst hid
        obtain rfl := Option.some.inj hgroup
        rw [List.mem_append, hold, List.mem_singleton, List.getElem?_append]
        split_ifs with hlt
        · constructor
          · rintro (h | rfl)
            · exact h
            · omega
          · exact .inl
        · have hnone : ids[i]? = none := List.getElem?_eq_none (by omega)
          rw [hnone]
          constructor
          · rintro (h | rfl)
            · cases h
            · simp
          · intro h
            have hlen := (List.getElem?_eq_some_iff.mp h).1
            exact .inr (by simp at hlen; omega)
      · have hmem := hold i
        rw [hgroup] at hmem
        rw [Option.getD_some] at hmem
        rw [hmem, List.getElem?_append]
        split_ifs with hlt
        · rfl
        · have hnone : ids[i]? = none := List.getElem?_eq_none (by omega)
          rw [hnone]
          constructor
          · intro h
            cases h
          · intro h
            exact absurd (List.mem_singleton.mp (List.mem_of_getElem? h)) hid
    · rw [Dict.get?_set]
      split_ifs with hid
      · exact ⟨_, rfl⟩
      · refine ih.covers id' ?_
        simpa [hid] using hid'
    · rw [head?_keys_set, ih.head, List.head?_append]
      rfl

/-- Groups of different ids have no position in common. -/
lemma GroupsOf.pairwise_disjoint {ids : List String} {d : Dict String (List ℕ)}
    (h : GroupsOf ids d) : d.values.Pairwise List.Disjoint := by
  rw [Dict.values, List.pairwise_map]
  have hkeys : d.entries.Pairwise fun a b => a.1 ≠ b.1 := List.pairwise_map.mp d.nodup
  refine hkeys.imp_of_mem fun {a b} ha hb hne i hia hib => hne ?_
  have hidA := (h.mem a.1 a.2 (Dict.get?_eq_some_iff.mpr ha) i).mp hia
  have hidB := (h.mem b.1 b.2 (Dict.get?_eq_some_iff.mpr hb) i).mp hib
  exact Option.some.inj (hidA.symm.trans hidB)

/-- **A row after the loop**, for an id of the batch: it is filled from the rows of its id, or else
from a row with messages of the batch; the first id has no other donor. -/
theorem getElem?_fillEmptyMessages {ids : List String} (rows : List (TrajResult F)) {k : ℕ}
    {id : String} (hk : ids[k]? = some id) :
    ∃ group donor, (∀ i, i ∈ group ↔ ids[i]? = some id) ∧
      (fillEmptyMessages ids rows)[k]? =
        (rows[k]?).map (filledBy (validRow rows group <|> donor)) ∧
      (∀ d, donor = some d → d.messages ≠ [] ∧ ∃ i : ℕ, rows[i]? = some d) ∧
      (ids.head? = some id → donor = none) := by
  have hgroups := groupsOf_resultsByInstance ids
  obtain ⟨group, hgroup⟩ := hgroups.covers id (List.mem_of_getElem? hk)
  obtain ⟨before, after, hentries⟩ := List.append_of_mem (Dict.get?_eq_some_iff.mp hgroup)
  have hvalues : (resultsByInstance ids).values =
      before.map Prod.snd ++ group :: after.map Prod.snd := by
    simp [Dict.values, hentries]
  refine ⟨group, carriedDonor rows none (before.map Prod.snd), hgroups.mem id group hgroup, ?_,
    fun d hd => exists_of_carriedDonor hd, fun hhead => ?_⟩
  · rw [fillEmptyMessages, hvalues]
    exact getElem?_foldl_fillGroup (hvalues ▸ hgroups.pairwise_disjoint)
      ((hgroups.mem id group hgroup k).mpr hk)
  · -- Nothing stands before the first key.
    cases before with
    | nil => rfl
    | cons first before =>
      have hfirst : some first.1 = some id := by
        rw [← hhead, ← hgroups.head, Dict.keys, hentries]
        rfl
      have hnodup := (resultsByInstance ids).nodup
      rw [hentries, Option.some.inj hfirst.symm] at hnodup
      simp at hnodup

/-! ## The rows of a batch -/

section Batch

variable {results : Dict String (Dict ℕ (TrajResult F))} {inputBatch : List Instance}

/-- The trajectories of an instance of the batch are among its rows. -/
lemma mem_matchedResults {item : Instance} {result : TrajResult F} :
    (item, result) ∈ matchedResults results inputBatch ↔
      item ∈ inputBatch ∧ result ∈ (trajectoriesOf results item).values := by
  simp only [matchedResults_eq, List.mem_flatMap, List.mem_map, Prod.mk.injEq, Dict.values]
  constructor
  · rintro ⟨item', hitem, e, he, rfl, rfl⟩
    exact ⟨hitem, e, he, rfl⟩
  · rintro ⟨hitem, e, he, rfl⟩
    exact ⟨item, hitem, e, he, rfl, rfl⟩

/-- **A row of the batch after the loop**: filled from its instance, or else by a donor of another
one, which the first instance does not have. -/
lemma exists_fallbackRow {k : ℕ} {item : Instance} {row : TrajResult F}
    (hk : (matchedResults results inputBatch)[k]? = some (item, row)) :
    ∃ donor, (fallbackRows results inputBatch)[k]? = some (filledBy donor row) ∧
      (∀ d, donor = some d → d.messages ≠ [] ∧
        ∃ (i : ℕ) (item' : Instance), (matchedResults results inputBatch)[i]? = some (item', d) ∧
          (InstanceHasMessages results item → item' = item)) ∧
      (InstanceHasMessages results item → ∃ d, donor = some d) ∧
      ((matchedResults results inputBatch).head?.map Prod.fst = some item →
        ¬ InstanceHasMessages results item → donor = none) := by
  set matched := matchedResults results inputBatch with hmatched
  have hid : (matched.map fun row => row.1.instanceId)[k]? = some item.instanceId := by
    rw [List.getElem?_map, hk]
    rfl
  obtain ⟨group, donor, hgroup, hrow, hdonor, hfirst⟩ :=
    getElem?_fillEmptyMessages (matched.map Prod.snd) hid
  have hrows : ∀ (i : ℕ) result, (matched.map Prod.snd)[i]? = some result →
      ∃ item', matched[i]? = some (item', result) := by
    intro i result hi
    rw [List.getElem?_map] at hi
    obtain ⟨entry, hentry, rfl⟩ := Option.map_eq_some_iff.mp hi
    exact ⟨entry.1, hentry⟩
  -- The rows of the group are those of the instance.
  have hmem : ∀ (i : ℕ) (item' : Instance) (result : TrajResult F),
      matched[i]? = some (item', result) → (i ∈ group ↔ item' = item) := by
    intro i item' result hi
    rw [hgroup i, List.getElem?_map, hi, Option.map_some, Option.some.injEq]
    obtain ⟨id'⟩ := item'
    obtain ⟨id⟩ := item
    simp
  have hvalid : InstanceHasMessages results item ↔
      ∃ d, validRow (matched.map Prod.snd) group = some d := by
    rw [← not_iff_not, ← Option.isSome_iff_exists, Option.not_isSome_iff_eq_none,
      validRow_eq_none_iff, InstanceHasMessages]
    push Not
    have hitem : item ∈ inputBatch := (mem_matchedResults.1 (List.mem_of_getElem? hk)).1
    constructor
    · intro h i hi result hresult
      obtain ⟨item', hi'⟩ := hrows i result hresult
      obtain rfl := (hmem i item' result hi').mp hi
      exact h result (mem_matchedResults.1 (List.mem_of_getElem? hi')).2
    · intro h result hresult
      obtain ⟨i, hi⟩ := List.mem_iff_getElem?.mp (mem_matchedResults.2 ⟨hitem, hresult⟩)
      refine h i ((hmem i item result hi).mpr rfl) result ?_
      rw [List.getElem?_map]
      exact congrArg (Option.map Prod.snd) hi
  refine ⟨validRow (matched.map Prod.snd) group <|> donor, ?_, fun d hd => ?_, fun h => ?_, ?_⟩
  · rw [fallbackRows, ← hmatched, hrow, List.getElem?_map, hk]
    rfl
  · cases hv : validRow (matched.map Prod.snd) group with
    | some d' =>
      obtain rfl : d' = d := by simpa [hv] using hd
      obtain ⟨hmessages, i, hi, hd'⟩ := exists_of_validRow hv
      obtain ⟨item', hi'⟩ := hrows i d' hd'
      exact ⟨hmessages, i, item', hi', fun _ => (hmem i item' d' hi').mp hi⟩
    | none =>
      obtain ⟨hmessages, i, hi⟩ := hdonor d (by simpa [hv] using hd)
      obtain ⟨item', hi'⟩ := hrows i d hi
      refine ⟨hmessages, i, item', hi', fun h => ?_⟩
      obtain ⟨d', hd'⟩ := hvalid.mp h
      rw [hv] at hd'
      cases hd'
  · obtain ⟨d, hd⟩ := hvalid.mp h
    exact ⟨d, by rw [hd]; rfl⟩
  · intro hhead hnot
    have hnone : validRow (matched.map Prod.snd) group = none := by
      rw [← Option.not_isSome_iff_eq_none, Option.isSome_iff_exists]
      exact mt hvalid.mpr hnot
    have hid₀ : (matched.map fun row => row.1.instanceId).head? = some item.instanceId := by
      obtain ⟨first, hfront, rfl⟩ := Option.map_eq_some_iff.mp hhead
      rw [List.head?_map, hfront]
      rfl
    rw [hnone, hfirst hid₀]
    rfl

/-- The loop keeps the number of rows. -/
lemma length_fallbackRows :
    (fallbackRows results inputBatch).length = (matchedResults results inputBatch).length := by
  have hgroup : ∀ (state : Option (TrajResult F) × List (TrajResult F)) group,
      (fillGroup state group).2.length = state.2.length := by
    intro state group
    rw [fillGroup]
    split
    · next donor _ =>
      have hpass : ∀ (group : List ℕ) (rows : List (TrajResult F)),
          (group.foldl (fun rows i => rows.modify i (fillRow donor)) rows).length =
            rows.length := by
        intro group
        induction group with
        | nil => exact fun _ => rfl
        | cons i group ih => exact fun rows => (ih _).trans (List.length_modify _ rows i)
      exact hpass group state.2
    · rfl
  have hloop : ∀ (groups : List (List ℕ)) (state : Option (TrajResult F) × List (TrajResult F)),
      (groups.foldl fillGroup state).2.length = state.2.length := by
    intro groups
    induction groups with
    | nil => exact fun _ => rfl
    | cons group groups ih => exact fun state => (ih _).trans (hgroup state group)
  rw [fallbackRows, fillEmptyMessages, hloop, List.length_map]

/-- A row is filled exactly if it has a donor. -/
lemma messages_filledBy {donor : Option (TrajResult F)} {row : TrajResult F}
    (hdonor : ∀ d, donor = some d → d.messages ≠ []) :
    (filledBy donor row).messages ≠ [] ↔ row.messages ≠ [] ∨ ∃ d, donor = some d := by
  cases donor with
  | none => simp [filledBy]
  | some d =>
    by_cases hrow : row.messages = []
    · simpa [filledBy, fillRow, hrow] using hdonor d rfl
    · simp [filledBy, fillRow_of_ne_nil hrow, hrow]

/-- The rows of an instance with messages have messages after the loop. -/
lemma hasMessages_of_instance {k : ℕ} {item : Instance} {row : TrajResult F}
    (hk : (matchedResults results inputBatch)[k]? = some (item, row))
    (h : InstanceHasMessages results item) : HasMessages (fallbackRows results inputBatch) k := by
  obtain ⟨donor, hrow, hdonor, hsome, -⟩ := exists_fallbackRow hk
  exact ⟨_, hrow, (messages_filledBy fun d hd => (hdonor d hd).1).mpr (.inr (hsome h))⟩

/-- The rows at the origins. -/
lemma exists_matched_of_origin {k : ℕ} {origin : Instance × ℕ}
    (hk : (rowOrigins results inputBatch)[k]? = some origin) :
    ∃ row, (matchedResults results inputBatch)[k]? = some (origin.1, row) := by
  rw [rowOrigins_eq_map, List.getElem?_map] at hk
  obtain ⟨entry, hentry, rfl⟩ := Option.map_eq_some_iff.mp hk
  exact ⟨entry.2.2, by rw [matchedResults_eq_map, List.getElem?_map, hentry]; rfl⟩

/-- **When the fallback fills every row**: exactly if every instance with rows has a trajectory with
messages. -/
theorem fallbackFills_iff (results : Dict String (Dict ℕ (TrajResult F)))
    (inputBatch : List Instance) :
    FallbackFills results inputBatch ↔
      ∀ item ∈ inputBatch, (trajectoriesOf results item).values ≠ [] →
        InstanceHasMessages results item := by
  constructor
  · intro h item hitem hne
    by_contra hnone
    obtain ⟨result, hresult⟩ := List.exists_mem_of_ne_nil _ hne
    -- In the batch with this instance in front, its rows are not filled.
    have hperm : (item :: inputBatch.erase item).Perm inputBatch :=
      (List.perm_cons_erase hitem).symm
    obtain ⟨e, entries, hentries⟩ :
        ∃ e entries, (trajectoriesOf results item).entries = e :: entries :=
      List.exists_cons_of_ne_nil fun hnil => hne (by rw [Dict.values, hnil]; rfl)
    have horigin : (rowOrigins results (item :: inputBatch.erase item))[0]? = some (item, e.1) := by
      simp [rowOrigins, Dict.keys, hentries]
    have hmatched : (matchedResults results (item :: inputBatch.erase item))[0]? =
        some (item, e.2) := by
      simp [matchedResults_eq, hentries]
    obtain ⟨donor, hrow, -, -, hfront⟩ := exists_fallbackRow hmatched
    have hmem : (item, e.1) ∈ rowOrigins results inputBatch :=
      List.mem_flatMap.mpr ⟨item, hitem, by simp [Dict.keys, hentries]⟩
    obtain ⟨k, hk⟩ := List.mem_iff_getElem?.mp hmem
    obtain ⟨row, hkrow⟩ := exists_matched_of_origin hk
    obtain ⟨donor', hrow', -⟩ := exists_fallbackRow hkrow
    have hfilled : HasMessages (fallbackRows results inputBatch) k :=
      ⟨_, hrow', h.fills _ (List.mem_of_getElem? hrow')⟩
    obtain ⟨row', hrow₀, hmessages⟩ := (h.order _ hperm k 0 _ hk horigin).mp hfilled
    have hdonor : donor = none := hfront (by
      rw [List.head?_eq_getElem?, hmatched]
      rfl) hnone
    rw [hrow, hdonor] at hrow₀
    obtain rfl := Option.some.inj hrow₀
    refine hnone ⟨e.2, ?_, hmessages⟩
    simp [Dict.values, hentries]
  · intro h
    have hall : ∀ (k : ℕ) item row, (matchedResults results inputBatch)[k]? = some (item, row) →
        InstanceHasMessages results item := by
      intro k item row hk
      obtain ⟨hitem, hmem⟩ := mem_matchedResults.mp (List.mem_of_getElem? hk)
      exact h item hitem (List.ne_nil_of_mem hmem)
    refine ⟨fun row hrow => ?_, fun k item row row' hk hempty hrow' hmessages => ?_,
      fun k item row hk hmessages => ?_, fun inputBatch' hperm k k' origin hk hk' => ?_⟩
    · obtain ⟨k, hk⟩ := List.mem_iff_getElem?.mp hrow
      have hlt : k < (matchedResults results inputBatch).length := by
        rw [← length_fallbackRows]
        exact (List.getElem?_eq_some_iff.mp hk).1
      have hrow₀ := List.getElem?_eq_getElem hlt
      obtain ⟨row', hrow', hmessages⟩ := hasMessages_of_instance hrow₀ (hall k _ _ hrow₀)
      obtain rfl := Option.some.inj (hk.symm.trans hrow')
      exact hmessages
    · obtain ⟨donor, hfilled, hdonor, -⟩ := exists_fallbackRow hk
      obtain rfl := Option.some.inj (hrow'.symm.trans hfilled)
      obtain hrow | ⟨d, rfl⟩ := (messages_filledBy fun d hd => (hdonor d hd).1).mp hmessages
      · exact absurd hempty hrow
      · obtain ⟨hd, i, item', hi, hitem⟩ := hdonor d rfl
        refine ⟨i, item', d, hi, hd, ?_, hitem⟩
        simp [TakesFrom, filledBy, fillRow, hempty]
    · obtain ⟨donor, hrow, -⟩ := exists_fallbackRow hk
      rw [hrow]
      cases donor with
      | none => rfl
      | some d => rw [filledBy, fillRow_of_ne_nil hmessages]
    · obtain ⟨row, hrow⟩ := exists_matched_of_origin hk
      obtain ⟨row', hrow'⟩ := exists_matched_of_origin hk'
      have hmessages := hall k origin.1 row hrow
      exact iff_of_true (hasMessages_of_instance hrow hmessages)
        (hasMessages_of_instance hrow' hmessages)

end Batch

/-! ### An instance without messages in front -/

/-- A trajectory with one answer. -/
def answeredResult : TrajResult ℤ :=
  ⟨[⟨.user, some (some [1]), none⟩, ⟨.assistant, some (some [2]), none⟩], true, true, true, none,
    false⟩

/-- Instance `a` has an empty trajectory, instance `b` one with an answer. -/
def oneAnswered : Dict String (Dict ℕ (TrajResult ℤ)) :=
  (Dict.empty.set "a" (Dict.empty.set 0 (emptyResult false))).set "b"
    (Dict.empty.set 0 answeredResult)

/-- **A row that is not filled**: the empty trajectory of the first instance stays empty, and the
conversion of the batch fails on it; with the instances exchanged it is filled. -/
theorem not_fallbackFills_oneAnswered :
    (∃ row ∈ matchedResults oneAnswered [⟨"a"⟩, ⟨"b"⟩], row.2.messages ≠ []) ∧
    ((fallbackRows oneAnswered [⟨"a"⟩, ⟨"b"⟩]).map fun row => row.messages.length) = [0, 2] ∧
    ((fallbackRows oneAnswered [⟨"b"⟩, ⟨"a"⟩]).map fun row => row.messages.length) = [2, 2] ∧
    convertResultsToDataprotoToken ⟨0, 3, 6, 1, 1⟩ cumulativePositions oneAnswered
      [⟨"a"⟩, ⟨"b"⟩] false = .error .indexError ∧
    ¬ FallbackFills oneAnswered [⟨"a"⟩, ⟨"b"⟩] := by
  refine ⟨⟨(⟨"b"⟩, answeredResult), ?_, by simp [answeredResult]⟩, rfl, rfl, rfl, fun h => ?_⟩
  · exact List.mem_cons_of_mem _ List.mem_cons_self
  · have hfirst : (fallbackRows oneAnswered [⟨"a"⟩, ⟨"b"⟩])[0]? = some (emptyResult false) := rfl
    exact h.fills _ (List.mem_of_getElem? hfirst) rfl

end ProRLAgent.Rollout
