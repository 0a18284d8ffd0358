import Mathlib.Data.List.Induction
import Mathlib.Data.List.Nodup
import Mathlib.Data.List.Perm.Basic

set_option relaxedAutoImplicit false
set_option autoImplicit false

/-!
# Dictionaries in insertion order

A dictionary is a list of entries with distinct keys. Iteration follows the order in which the
keys were first set: setting a key that is present replaces its value in place, setting a new
key appends it.

## Main definitions

* `Dict` — a dictionary, with the proof that its keys are distinct.
* `Dict.get?`, `Dict.set`, `Dict.erase` — the operations.
* `Dict.accumulate`, `Dict.group` — what is put together under each key.

## Main results

* `Dict.get?_set`, `Dict.get?_erase` — what an update changes and what it keeps.
* `Dict.get?_eq_some_iff` — a lookup finds exactly the entries.
* `Dict.get?_ofEntries` — what a dictionary display holds.
* `Dict.erase_set` — removing a key undoes setting it.
* `Dict.entries_set_perm` — setting a key adds its entry to those of the other keys.
* `Dict.entries_perm_erase` — taking out an entry.
* `Dict.get?_mapKeys_of_unique` — a value under the new name of its key.
* `Dict.get?_accumulate`, `Dict.get?_group` — what is put together from the values of a key.
-/

/-- A dictionary: entries in insertion order, with distinct keys. -/
structure Dict (κ ν : Type*) where
  /-- The entries, in the order in which their keys were first set. -/
  entries : List (κ × ν)
  /-- No key occurs twice. -/
  nodup : (entries.map Prod.fst).Nodup

namespace Dict

variable {κ ν μ : Type*}

/-- The dictionary without entries. -/
def empty : Dict κ ν := ⟨[], List.nodup_nil⟩

/-- The keys, in order. -/
def keys (d : Dict κ ν) : List κ := d.entries.map Prod.fst

/-- The values, in the order of their keys. -/
def values (d : Dict κ ν) : List ν := d.entries.map Prod.snd

/-- The dictionary with every value replaced. -/
def mapValues (f : ν → μ) (d : Dict κ ν) : Dict κ μ where
  entries := d.entries.map fun e => (e.1, f e.2)
  nodup := by
    rw [List.map_map]
    exact d.nodup

/-- The dictionary of the entries that satisfy `p`. -/
def filter (p : κ × ν → Bool) (d : Dict κ ν) : Dict κ ν where
  entries := d.entries.filter p
  nodup := d.nodup.sublist (List.filter_sublist.map Prod.fst)

variable [DecidableEq κ]

/-- The value of a key. -/
def get? (d : Dict κ ν) (k : κ) : Option ν :=
  (d.entries.find? fun e => e.1 = k).map Prod.snd

/-- The entries with the value of `k` replaced by `v`. -/
def replaceEntries (entries : List (κ × ν)) (k : κ) (v : ν) : List (κ × ν) :=
  entries.map fun e => if e.1 = k then (k, v) else e

/-- Replacing a value keeps the keys. -/
lemma map_fst_replaceEntries (entries : List (κ × ν)) (k : κ) (v : ν) :
    (replaceEntries entries k v).map Prod.fst = entries.map Prod.fst := by
  rw [replaceEntries, List.map_map]
  refine List.map_congr_left fun e _ => ?_
  by_cases he : e.1 = k
  · simp [he]
  · simp [he]

/-- Sets the value of a key: in place if the key is present, at the end otherwise. -/
def set (d : Dict κ ν) (k : κ) (v : ν) : Dict κ ν :=
  if h : k ∈ d.entries.map Prod.fst then
    ⟨replaceEntries d.entries k v, by rw [map_fst_replaceEntries]; exact d.nodup⟩
  else
    ⟨d.entries ++ [(k, v)], by
      rw [List.map_append, List.nodup_append]
      refine ⟨d.nodup, List.nodup_singleton k, ?_⟩
      intro a ha b hb hab
      obtain rfl : b = k := by simpa using hb
      exact h (hab ▸ ha)⟩

/-- Removes a key. -/
def erase (d : Dict κ ν) (k : κ) : Dict κ ν := d.filter fun e => e.1 ≠ k

@[simp] lemma get?_empty (k : κ) : (empty : Dict κ ν).get? k = none := rfl

/-- A lookup finds exactly the entries. -/
theorem get?_eq_some_iff {d : Dict κ ν} {k : κ} {v : ν} :
    d.get? k = some v ↔ (k, v) ∈ d.entries := by
  obtain ⟨entries, nodup⟩ := d
  simp only [get?]
  induction entries with
  | nil => simp
  | cons e entries ih =>
    obtain ⟨k', v'⟩ := e
    rw [List.map_cons, List.nodup_cons] at nodup
    by_cases hk : k' = k
    · subst hk
      have hnew : (k', v) ∉ entries := fun h => nodup.1 (List.mem_map.mpr ⟨_, h, rfl⟩)
      simp [hnew, eq_comm]
    · have hne : k ≠ k' := fun h => hk h.symm
      simp [hk, hne, ih nodup.2]

/-- A lookup fails exactly if the key is absent. -/
theorem get?_eq_none_iff {d : Dict κ ν} {k : κ} : d.get? k = none ↔ k ∉ d.keys := by
  rw [get?, Option.map_eq_none_iff, List.find?_eq_none, keys, List.mem_map]
  simp only [decide_eq_true_eq, not_exists, not_and]

/-- The entries after setting a key: the new one, and the old ones of the other keys. -/
lemma mem_entries_set {d : Dict κ ν} {k : κ} {v : ν} {e : κ × ν} :
    e ∈ (d.set k v).entries ↔ e = (k, v) ∨ e.1 ≠ k ∧ e ∈ d.entries := by
  by_cases hmem : k ∈ d.entries.map Prod.fst
  · simp only [set, dif_pos hmem, replaceEntries, List.mem_map]
    constructor
    · rintro ⟨a, ha, rfl⟩
      by_cases hk : a.1 = k
      · exact .inl (if_pos hk)
      · rw [if_neg hk]
        exact .inr ⟨hk, ha⟩
    · rintro (rfl | ⟨hk, he⟩)
      · obtain ⟨a, ha, hk⟩ := List.mem_map.mp hmem
        exact ⟨a, ha, if_pos hk⟩
      · exact ⟨e, he, if_neg hk⟩
  · simp only [set, dif_neg hmem, List.mem_append, List.mem_singleton]
    have hne : e ∈ d.entries → e.1 ≠ k := fun he hk => hmem (List.mem_map.mpr ⟨e, he, hk⟩)
    constructor
    · rintro (he | rfl)
      · exact .inr ⟨hne he, he⟩
      · exact .inl rfl
    · rintro (rfl | ⟨-, he⟩)
      · exact .inr rfl
      · exact .inl he

/-- A lookup after setting a key. -/
theorem get?_set (d : Dict κ ν) (k k' : κ) (v : ν) :
    (d.set k v).get? k' = if k' = k then some v else d.get? k' := by
  refine Option.ext fun w => ?_
  rw [get?_eq_some_iff, mem_entries_set]
  by_cases hk : k' = k
  · simp [hk, eq_comm]
  · rw [if_neg hk, get?_eq_some_iff]
    simp [hk]

/-- The dictionary of some entries, set one after the other. -/
def ofEntries (l : List (κ × ν)) : Dict κ ν := l.foldl (fun d e => d.set e.1 e.2) empty

/-- The last entry of a key gives its value. -/
theorem get?_ofEntries (l : List (κ × ν)) (k : κ) :
    (ofEntries l).get? k = (l.reverse.find? fun e => e.1 = k).map Prod.snd := by
  induction l using List.reverseRecOn with
  | nil => rfl
  | append_singleton l e ih =>
    have hset : ofEntries (l ++ [e]) = (ofEntries l).set e.1 e.2 := by
      simp [ofEntries, List.foldl_append]
    rw [hset, get?_set, ih, List.reverse_append, List.reverse_singleton, List.singleton_append,
      List.find?_cons]
    by_cases he : k = e.1
    · simp [he]
    · have hne : ¬ e.1 = k := fun h => he h.symm
      simp [he, hne]

/-- A lookup after removing a key. -/
theorem get?_erase (d : Dict κ ν) (k k' : κ) :
    (d.erase k).get? k' = if k' = k then none else d.get? k' := by
  refine Option.ext fun v => ?_
  rw [get?_eq_some_iff]
  by_cases hk : k' = k
  · simp [erase, filter, hk]
  · rw [if_neg hk, get?_eq_some_iff]
    simp [erase, filter, hk]

/-- Removing a key undoes setting it. -/
theorem erase_set (d : Dict κ ν) (k : κ) (v : ν) : (d.set k v).erase k = d.erase k := by
  have hentries : (d.set k v).entries.filter (fun e => e.1 ≠ k) =
      d.entries.filter fun e => e.1 ≠ k := by
    by_cases hmem : k ∈ d.entries.map Prod.fst
    · simp only [set, dif_pos hmem, replaceEntries]
      -- Only entries of the key change.
      induction d.entries with
      | nil => rfl
      | cons e entries ih =>
        by_cases he : e.1 = k
        · simpa [he] using ih
        · simpa [he] using ih
    · simp [set, dif_neg hmem]
  simp only [erase, filter, hentries]

/-- A lookup after keeping the entries that satisfy `p`. -/
theorem get?_filter_eq_some_iff {d : Dict κ ν} {p : κ × ν → Bool} {k : κ} {v : ν} :
    (d.filter p).get? k = some v ↔ d.get? k = some v ∧ p (k, v) := by
  rw [get?_eq_some_iff, get?_eq_some_iff]
  exact List.mem_filter

/-- A key is present exactly if it has a value. -/
lemma mem_keys_iff {d : Dict κ ν} {k : κ} : k ∈ d.keys ↔ ∃ v, d.get? k = some v := by
  rw [← not_iff_not, ← get?_eq_none_iff, Option.eq_none_iff_forall_ne_some, not_exists]

omit [DecidableEq κ] in
/-- The entries are distinct. -/
lemma nodup_entries (d : Dict κ ν) : d.entries.Nodup := List.Nodup.of_map _ d.nodup

/-- Setting a key is adding its entry to those of the other keys. -/
theorem entries_set_perm (d : Dict κ ν) (k : κ) (v : ν) :
    (d.set k v).entries.Perm ((k, v) :: (d.erase k).entries) := by
  have hnew : (k, v) ∉ (d.erase k).entries := by simp [erase, filter]
  refine (List.perm_ext_iff_of_nodup (nodup_entries _)
    (List.nodup_cons.mpr ⟨hnew, nodup_entries _⟩)).mpr fun e => ?_
  rw [mem_entries_set, List.mem_cons]
  simp [erase, filter, and_comm]

/-- A lookup among replaced values. -/
@[simp] lemma get?_mapValues (f : ν → μ) (d : Dict κ ν) (k : κ) :
    (d.mapValues f).get? k = (d.get? k).map f := by
  simp [get?, mapValues, List.find?_map, Function.comp_def]

/-- Setting a key among replaced values. -/
lemma mapValues_set (f : ν → μ) (d : Dict κ ν) (k : κ) (v : ν) :
    (d.set k v).mapValues f = (d.mapValues f).set k (f v) := by
  have hkeys : (d.mapValues f).entries.map Prod.fst = d.entries.map Prod.fst := by
    rw [mapValues, List.map_map]
    rfl
  by_cases hmem : k ∈ d.entries.map Prod.fst
  · rw [set, set, dif_pos hmem, dif_pos (hkeys ▸ hmem)]
    simp only [mapValues, replaceEntries, List.map_map, mk.injEq]
    refine List.map_congr_left fun e _ => ?_
    by_cases he : e.1 = k <;> simp [he]
  · rw [set, set, dif_neg hmem, dif_neg (hkeys ▸ hmem)]
    simp only [mapValues, List.map_append, List.map_cons, List.map_nil]

/-- Removing a key among replaced values. -/
lemma mapValues_erase (f : ν → μ) (d : Dict κ ν) (k : κ) :
    (d.erase k).mapValues f = (d.mapValues f).erase k := by
  simp only [erase, filter, mapValues, List.filter_map, Function.comp_def, mk.injEq]

/-- A new key is put behind the others. -/
lemma entries_set_of_get?_eq_none {d : Dict κ ν} {k : κ} (h : d.get? k = none) (v : ν) :
    (d.set k v).entries = d.entries ++ [(k, v)] := by
  have hmem : k ∉ d.entries.map Prod.fst := get?_eq_none_iff.1 h
  rw [set, dif_neg hmem]

/-- Taking out an entry. -/
theorem entries_perm_erase {d : Dict κ ν} {k : κ} {v : ν} (h : d.get? k = some v) :
    d.entries.Perm ((k, v) :: (d.erase k).entries) := by
  refine (List.perm_ext_iff_of_nodup (nodup_entries _)
    (List.nodup_cons.mpr ⟨by simp [erase, filter], nodup_entries _⟩)).mpr fun e => ?_
  rw [get?_eq_some_iff] at h
  have hsame : e ∈ d.entries → e.1 = k → e = (k, v) := fun he hk => by
    have hget := get?_eq_some_iff.mpr (hk ▸ he : (k, e.2) ∈ d.entries)
    rw [get?_eq_some_iff.mpr h] at hget
    exact Prod.ext hk (Option.some.inj hget).symm
  simp only [erase, filter, List.mem_cons, List.mem_filter, decide_eq_true_eq]
  constructor
  · intro he
    by_cases hk : e.1 = k
    · exact Or.inl (hsame he hk)
    · exact Or.inr ⟨he, hk⟩
  · rintro (rfl | ⟨he, -⟩)
    · exact h
    · exact he

/-! ## New names for the keys -/

/-- A key is there if it comes in the entries. -/
lemma mem_keys_ofEntries {l : List (κ × ν)} {k : κ} :
    k ∈ (ofEntries l).keys ↔ k ∈ l.map Prod.fst := by
  rw [← not_iff_not, ← get?_eq_none_iff, get?_ofEntries, Option.map_eq_none_iff,
    List.find?_eq_none, List.mem_map, not_exists]
  refine forall_congr' fun e => ?_
  rw [List.mem_reverse, decide_eq_true_iff, not_and]

/-- A value comes from one of the entries. -/
lemma mem_of_get?_ofEntries {l : List (κ × ν)} {k : κ} {v : ν}
    (h : (ofEntries l).get? k = some v) : (k, v) ∈ l := by
  rw [get?_ofEntries] at h
  obtain ⟨e, he, rfl⟩ := Option.map_eq_some_iff.mp h
  have hkey : e.1 = k := by simpa using List.find?_some he
  rw [← hkey]
  exact List.mem_reverse.mp (List.mem_of_find?_eq_some he)

variable {κ' : Type*} [DecidableEq κ']

/-- The dictionary with new names for its keys: the last of the entries that get one name stays. -/
def mapKeys (f : κ → κ') (d : Dict κ ν) : Dict κ' ν :=
  ofEntries (d.entries.map fun e => (f e.1, e.2))

omit [DecidableEq κ] in
/-- The new names. -/
lemma mem_keys_mapKeys {f : κ → κ'} {d : Dict κ ν} {k' : κ'} :
    k' ∈ (d.mapKeys f).keys ↔ ∃ k ∈ d.keys, f k = k' := by
  rw [mapKeys, mem_keys_ofEntries]
  simp [keys]

/-- A value stood under one of the old names. -/
lemma exists_of_get?_mapKeys {f : κ → κ'} {d : Dict κ ν} {k' : κ'} {v : ν}
    (h : (d.mapKeys f).get? k' = some v) : ∃ k, d.get? k = some v ∧ f k = k' := by
  obtain ⟨e, he, heq⟩ := List.mem_map.mp (mem_of_get?_ofEntries h)
  obtain ⟨rfl, rfl⟩ := Prod.mk.inj heq
  exact ⟨e.1, get?_eq_some_iff.mpr he, rfl⟩

/-- **A name that only one key gets** has the value of that key. -/
theorem get?_mapKeys_of_unique {f : κ → κ'} {d : Dict κ ν} {k : κ} {v : ν}
    (h : d.get? k = some v) (hunique : ∀ k' ∈ d.keys, f k' = f k → k' = k) :
    (d.mapKeys f).get? (f k) = some v := by
  have hmem : f k ∈ (d.mapKeys f).keys :=
    mem_keys_mapKeys.2 ⟨k, mem_keys_iff.2 ⟨v, h⟩, rfl⟩
  obtain ⟨v', hv'⟩ := mem_keys_iff.1 hmem
  obtain ⟨k', hk', hname⟩ := exists_of_get?_mapKeys hv'
  obtain rfl := hunique k' (mem_keys_iff.2 ⟨v', hk'⟩) hname
  rw [hv', ← hk', h]

/-! ## Accumulating -/

/-- What is put together under each key, from the values of the key in their order. -/
def accumulate (f : Option μ → ν → μ) (l : List (κ × ν)) : Dict κ μ :=
  l.foldl (fun d e => d.set e.1 (f (d.get? e.1) e.2)) empty

/-- **A key has what is put together from its values.** -/
theorem get?_accumulate (f : Option μ → ν → μ) (l : List (κ × ν)) (k : κ) :
    (accumulate f l).get? k =
      ((l.filter fun e => e.1 = k).map Prod.snd).foldl (fun o v => some (f o v)) none := by
  suffices h : ∀ d : Dict κ μ, (l.foldl (fun d e => d.set e.1 (f (d.get? e.1) e.2)) d).get? k =
      ((l.filter fun e => e.1 = k).map Prod.snd).foldl (fun o v => some (f o v)) (d.get? k) from
    h empty
  induction l with
  | nil => exact fun d => rfl
  | cons e l ih =>
    intro d
    rw [List.foldl_cons, ih, get?_set]
    by_cases hk : e.1 = k
    · rw [List.filter_cons_of_pos (by simpa using hk), if_pos hk.symm, List.map_cons,
        List.foldl_cons, hk]
    · rw [List.filter_cons_of_neg (by simpa using hk), if_neg fun h => hk h.symm]

/-- Something is put together exactly under the keys that have values. -/
lemma mem_keys_accumulate {f : Option μ → ν → μ} {l : List (κ × ν)} {k : κ} :
    k ∈ (accumulate f l).keys ↔ k ∈ l.map Prod.fst := by
  have hsome (values : List ν) (o : Option μ) :
      values.foldl (fun o v => some (f o v)) o = none ↔ values = [] ∧ o = none := by
    induction values generalizing o with
    | nil => simp
    | cons v values ih => simp [ih]
  rw [← not_iff_not, ← get?_eq_none_iff, get?_accumulate, hsome, List.map_eq_nil_iff,
    List.filter_eq_nil_iff, List.mem_map]
  simp only [decide_eq_true_eq, and_true, not_exists, not_and]

/-- The values are those of the keys. -/
lemma mem_values_iff {d : Dict κ ν} {v : ν} : v ∈ d.values ↔ ∃ k, d.get? k = some v := by
  simp only [values, List.mem_map, get?_eq_some_iff, Prod.exists, exists_eq_right]

/-- The values of each key, in their order. -/
def group (l : List (κ × ν)) : Dict κ (List ν) := accumulate (fun o v => o.getD [] ++ [v]) l

/-- **A key is grouped** with its values. -/
theorem get?_group (l : List (κ × ν)) (k : κ) :
    (group l).get? k = if k ∈ l.map Prod.fst then
      some ((l.filter fun e => e.1 = k).map Prod.snd) else none := by
  have hfold (values before : List ν) :
      values.foldl (fun o v => some (o.getD [] ++ [v])) (some before) = some (before ++ values) := by
    induction values generalizing before with
    | nil => simp
    | cons v values ih => simp [ih]
  split_ifs with hk
  · rw [group, get?_accumulate]
    obtain ⟨e, he, rfl⟩ := List.mem_map.mp hk
    obtain ⟨v, values, hvalues⟩ := List.exists_cons_of_ne_nil (show
      (l.filter fun e' => e'.1 = e.1).map Prod.snd ≠ [] by
        rw [ne_eq, List.map_eq_nil_iff, List.filter_eq_nil_iff]
        exact fun h => h e he (by simp))
    rw [hvalues, List.foldl_cons]
    exact hfold values [v]
  · rw [get?_eq_none_iff, group, mem_keys_accumulate]
    exact hk

/-! ## Dictionaries of one size -/

omit [DecidableEq κ] in
/-- **Two dictionaries of one size** have the same keys if all keys of the one are keys of the
other. -/
theorem mem_keys_iff_of_length {d : Dict κ ν} {d' : Dict κ μ}
    (hlen : d.entries.length = d'.entries.length) (hsub : ∀ k ∈ d.keys, k ∈ d'.keys) (k : κ) :
    k ∈ d.keys ↔ k ∈ d'.keys := by
  have hsubperm : d.keys.Subperm d'.keys := List.subperm_of_subset d.nodup hsub
  have hperm : d.keys.Perm d'.keys :=
    hsubperm.perm_of_length_le (by simp only [keys, List.length_map]; omega)
  exact hperm.mem_iff

omit [DecidableEq κ] in
/-- Two dictionaries with the same keys are of one size. -/
lemma length_eq_of_mem_keys_iff {d : Dict κ ν} {d' : Dict κ μ}
    (h : ∀ k, k ∈ d.keys ↔ k ∈ d'.keys) : d.entries.length = d'.entries.length := by
  have hperm : d.keys.Perm d'.keys := (List.perm_ext_iff_of_nodup d.nodup d'.nodup).mpr h
  simpa only [keys, List.length_map] using hperm.length_eq

end Dict
