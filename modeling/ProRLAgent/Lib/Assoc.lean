import Mathlib.Data.List.Nodup
import ProRLAgent.Lib.Except

set_option relaxedAutoImplicit false
set_option autoImplicit false

/-!
# Lookups in lists of entries

A list of entries `(k, v)` is read with `List.lookup`. The lemmas say what a lookup finds after the
entries are filtered by their keys, mapped, produced from a list of keys or treated by a loop that
may fail, and that entries with distinct keys are determined by their lookups.

## Main results

* `Assoc.lookup_filter`, `Assoc.lookup_map`, `Assoc.lookup_filterMap` — lookups after an operation.
* `Assoc.exists_mapM_lookup` — lookups after a loop over the values.
* `Assoc.forall₂_of_lookup` — entries with the same keys and related lookups are related.
-/

namespace Assoc

variable {κ α β : Type}

/-- An element of the first of two related lists is related to one of the second. -/
lemma exists_of_mem {R : α → β → Prop} {as : List α} {bs : List β} (h : List.Forall₂ R as bs)
    {a : α} (ha : a ∈ as) : ∃ b ∈ bs, R a b := by
  induction h with
  | nil => simp at ha
  | cons hhead _ ih =>
    obtain rfl | ha := List.mem_cons.mp ha
    · exact ⟨_, List.mem_cons_self, hhead⟩
    · obtain ⟨b, hb, hrel⟩ := ih ha
      exact ⟨b, List.mem_cons_of_mem _ hb, hrel⟩

/-- Related lists have the same images under functions that agree on related elements. -/
lemma map_eq_of_forall₂ {R : α → β → Prop} {f : α → κ} {g : β → κ} {as : List α} {bs : List β}
    (h : List.Forall₂ R as bs) (hR : ∀ a b, R a b → g b = f a) : bs.map g = as.map f := by
  induction h with
  | nil => rfl
  | cons hhead _ ih => rw [List.map_cons, List.map_cons, hR _ _ hhead, ih]

/-- The keys of entries made for a list of keys are among them. -/
lemma map_fst_filterMap_sublist (g : κ → Option α) (ks : List κ) :
    List.Sublist ((ks.filterMap fun k => (g k).map fun v => (k, v)).map Prod.fst) ks := by
  induction ks with
  | nil => simp
  | cons k ks ih =>
    rw [List.filterMap_cons]
    cases hg : g k with
    | none => exact ih.cons k
    | some v => exact ih.cons_cons k

variable [DecidableEq κ]

/-- The first entry decides a lookup of its key. -/
lemma lookup_cons_of (k : κ) (e : κ × α) (es : List (κ × α)) :
    (e :: es).lookup k = if k = e.1 then some e.2 else es.lookup k := by
  rw [List.lookup_cons]
  by_cases h : k = e.1
  · simp [h]
  · have hbeq : (k == e.1) = false := beq_eq_false_iff_ne.mpr h
    rw [hbeq, if_neg h]

/-- A lookup that finds nothing: the key does not occur. -/
lemma lookup_eq_none_iff {es : List (κ × α)} {k : κ} :
    es.lookup k = none ↔ k ∉ es.map Prod.fst := by
  induction es with
  | nil => simp
  | cons e es ih =>
    rw [lookup_cons_of]
    by_cases h : k = e.1
    · simp [h]
    · simpa [h] using ih

/-- What a lookup finds is an entry. -/
lemma mem_of_lookup {es : List (κ × α)} {k : κ} {v : α} (h : es.lookup k = some v) :
    (k, v) ∈ es := by
  induction es with
  | nil => simp at h
  | cons e es ih =>
    rw [lookup_cons_of] at h
    split at h
    next hk =>
      obtain rfl := Option.some.inj h
      simp [hk]
    next => exact List.mem_cons_of_mem _ (ih h)

/-- An entry of a list with distinct keys is found. -/
lemma lookup_of_mem {es : List (κ × α)} (hnodup : (es.map Prod.fst).Nodup) {e : κ × α}
    (he : e ∈ es) : es.lookup e.1 = some e.2 := by
  induction es with
  | nil => simp at he
  | cons x xs ih =>
    rw [List.map_cons, List.nodup_cons] at hnodup
    rw [lookup_cons_of]
    obtain rfl | he := List.mem_cons.mp he
    · simp
    · have hne : e.1 ≠ x.1 := fun h => hnodup.1 (h ▸ List.mem_map_of_mem he)
      rw [if_neg hne, ih hnodup.2 he]

/-- A lookup among the entries whose keys satisfy `p`. -/
lemma lookup_filter (p : κ → Bool) (es : List (κ × α)) (k : κ) :
    (es.filter fun e => p e.1).lookup k = if p k then es.lookup k else none := by
  induction es with
  | nil => simp
  | cons e es ih =>
    rw [List.filter_cons, lookup_cons_of]
    by_cases hk : k = e.1
    · subst hk
      cases hp : p e.1 with
      | true => simp [lookup_cons_of]
      | false => simp [ih, hp]
    · cases hp : p e.1 with
      | true => simp [lookup_cons_of, hk, ih]
      | false => simp [hk, ih]

/-- A lookup after a change of the values. -/
lemma lookup_map (g : α → β) (es : List (κ × α)) (k : κ) :
    (es.map fun e => (e.1, g e.2)).lookup k = (es.lookup k).map g := by
  induction es with
  | nil => rfl
  | cons e es ih =>
    rw [List.map_cons, lookup_cons_of, lookup_cons_of, ih]
    by_cases hk : k = e.1
    · simp [hk]
    · simp [hk]

/-- A lookup among entries made for a list of keys. -/
lemma lookup_filterMap (g : κ → Option α) (ks : List κ) (k : κ) :
    (ks.filterMap fun k => (g k).map fun v => (k, v)).lookup k = if k ∈ ks then g k else none := by
  induction ks with
  | nil => simp
  | cons k' ks ih =>
    rw [List.filterMap_cons]
    by_cases hk : k = k'
    · subst hk
      cases hg : g k with
      | none => simp [ih, hg]
      | some v => simp [lookup_cons_of]
    · cases hg : g k' with
      | none => simp [ih, hk]
      | some v => simp [lookup_cons_of, ih, hk]

/-- **A loop over the values**: if its body returns at every entry the loop returns, with the same
keys, and a lookup finds what the body returns. -/
theorem exists_mapM_lookup {ε : Type} {g : κ → α → Except ε β} {es : List (κ × α)}
    (h : ∀ e ∈ es, ∃ w, g e.1 e.2 = .ok w) :
    ∃ es', (es.mapM fun e => do return (e.1, ← g e.1 e.2)) = .ok es' ∧
      es'.map Prod.fst = es.map Prod.fst ∧
      ∀ k, es'.lookup k = (es.lookup k).bind fun v => (g k v).toOption := by
  induction es with
  | nil => exact ⟨[], rfl, rfl, fun k => rfl⟩
  | cons e es ih =>
    obtain ⟨w, hw⟩ := h e List.mem_cons_self
    obtain ⟨es', hes', hkeys, hlookup⟩ := ih fun e he => h e (List.mem_cons_of_mem _ he)
    refine ⟨(e.1, w) :: es', ?_, ?_, fun k => ?_⟩
    · rw [List.mapM_cons, hw, hes']
      rfl
    · rw [List.map_cons, List.map_cons, hkeys]
    · rw [lookup_cons_of, lookup_cons_of, hlookup]
      by_cases hk : k = e.1
      · subst hk
        simp [hw, Except.toOption]
      · simp [hk]

/-- **Entries by their lookups**: entries with the same distinct keys are related if what is found
under each key is. -/
theorem forall₂_of_lookup {R : α → β → Prop} {es : List (κ × α)} {es' : List (κ × β)}
    (hkeys : es'.map Prod.fst = es.map Prod.fst) (hnodup : (es.map Prod.fst).Nodup)
    (h : ∀ k v w, es.lookup k = some v → es'.lookup k = some w → R v w) :
    List.Forall₂ (fun a b => b.1 = a.1 ∧ R a.2 b.2) es es' := by
  induction es generalizing es' with
  | nil =>
    obtain rfl : es' = [] := by simpa using hkeys
    exact .nil
  | cons e es ih =>
    cases es' with
    | nil => simp at hkeys
    | cons e' es' =>
      rw [List.map_cons, List.map_cons, List.cons.injEq] at hkeys
      rw [List.map_cons, List.nodup_cons] at hnodup
      refine .cons ⟨hkeys.1, h e.1 _ _ (by simp [lookup_cons_of]) ?_⟩ (ih hkeys.2 hnodup.2 ?_)
      · simp [lookup_cons_of, hkeys.1]
      · intro k v w hv hw
        -- A key of the rest is not the key of the first entry.
        have hne : k ≠ e.1 := by
          rintro rfl
          exact hnodup.1 (List.mem_map.mpr ⟨_, mem_of_lookup hv, rfl⟩)
        apply h k v w
        · rw [lookup_cons_of, if_neg hne, hv]
        · rw [lookup_cons_of, if_neg (hkeys.1 ▸ hne), hw]

end Assoc
