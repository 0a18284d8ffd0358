import Mathlib.Data.List.Nodup
import Mathlib.Data.List.Perm.Basic
import Mathlib.Data.List.Perm.Subperm
import ProRLAgent.Memory.Condenser

set_option relaxedAutoImplicit false
set_option autoImplicit false

/-!
# The attention condenser

The condenser of `openhands/memory/condenser/impl/llm_attention_condenser.py` asks the model for the
ids of the important events. It drops those of the first `keep_first` events from the answer, cuts
the answer to the length that is left of half of `max_size`, and fills it up from the end of the
view. The events whose ids are neither in it nor among the first ones are forgotten.

An id in the answer that is repeated, or that is no id of the view, takes a place and keeps no event.
A summary in the view is put into the next view as well, even if its id -1 is forgotten.

## Main definitions

* `ProRLAgent.Memory.AttentionCondenser.getCondensation` — the condensation for an answer.
* `ProRLAgent.Memory.AttentionCondenser.QuotaKept` — half of `max_size` events of the old view stay,
  and the first ones.
* `ProRLAgent.Memory.AttentionCondenser.wasted` — the places of the answer that keep no event.

## Main results

* `ProRLAgent.Memory.AttentionCondenser.length_kept_add_wasted` — the number of ids that are kept.
* `ProRLAgent.Memory.AttentionCondenser.quotaKept_iff` — when the quota is kept.
-/

namespace ProRLAgent.Memory

/-- An attention condenser with admitted sizes. -/
structure AttentionCondenser where
  maxSize : ℕ
  keepFirst : ℕ
  keepFirst_lt : keepFirst < maxSize / 2

/-- The loop that adds ids that are not in the list until it has a length. -/
def topUp (length : ℕ) : List ℤ → List ℤ → List ℤ
  | [], responseIds => responseIds
  | id :: ids, responseIds =>
    if length ≤ responseIds.length then responseIds
    else if id ∈ responseIds then topUp length ids responseIds
    else topUp length ids (responseIds ++ [id])

/-- **A history**: events with increasing ids, as the stream gives them. -/
structure History where
  events : List Event
  sorted : events.Pairwise fun e e' => e.id < e'.id
  nonneg : ∀ e ∈ events, 0 ≤ e.id

namespace AttentionCondenser

/-- The constructor: the checks of the sizes and their texts are those of the amortized condenser.
-/
def init (maxSize keepFirst : ℤ) : Except PyError AttentionCondenser :=
  (Condenser.init .amortizedForgetting maxSize keepFirst).map fun c =>
    ⟨c.maxSize, c.keepFirst, c.keepFirst_lt⟩

variable (c : AttentionCondenser)

/-- The function `should_condense`. -/
def shouldCondense (view : List Event) : Bool := view.length > c.maxSize

/-- The ids of the first events. -/
def headEventIds (view : List Event) : List ℤ := (view.take c.keepFirst).map Event.id

/-- The number of other ids. -/
def eventsFromTail (view : List Event) : ℕ := c.maxSize / 2 - (c.headEventIds view).length

/-- The answer without the ids of the first events, cut to the length that is left. -/
def trimmed (view : List Event) (ids : List ℤ) : List ℤ :=
  (ids.filter fun id => decide (id ∉ c.headEventIds view)).take (c.eventsFromTail view)

/-- The function `get_condensation`, for the ids that the model answers. -/
def getCondensation (view : List Event) (ids : List ℤ) : CondensationAction :=
  let responseIds := topUp (c.eventsFromTail view) (view.reverse.map Event.id) (c.trimmed view ids)
  ⟨.ids ((view.filter fun e => decide (e.id ∉ responseIds ∧ e.id ∉ c.headEventIds view)).map
    Event.id), none⟩

/-! ## The property -/

/-- The events of the old view that the next view shows. -/
def visible (history : History) (event : Event) : List Event :=
  (fromEvents history.events).filter fun e => decide (e ∈ fromEvents (history.events ++ [event]))

/-- **The quota is kept**: behind the condensation, half of `max_size` events of the old view are
visible, and among them the first ones. -/
structure QuotaKept (history : History) (event : Event) : Prop where
  length_eq : (visible history event).length = c.maxSize / 2
  head : ∀ e ∈ (fromEvents history.events).take c.keepFirst,
    e ∈ fromEvents (history.events ++ [event])

/-- The places of the trimmed answer that keep no event: repeated ids, and ids that the view does not
have. -/
def wasted (view : List Event) (ids : List ℤ) : ℕ :=
  (c.trimmed view ids).length - ((view.map Event.id).filter fun id =>
    decide (id ∈ c.trimmed view ids)).length

/-- The id of a summary is forgotten: it is neither among the first ids nor in the answer, and enough
events behind it are not in the answer. -/
def SummaryForgotten (view : List Event) (ids : List ℤ) : Prop :=
  -1 ∈ view.map Event.id ∧ -1 ∉ c.headEventIds view ∧ -1 ∉ c.trimmed view ids ∧
    c.eventsFromTail view - (c.trimmed view ids).length ≤
      (((view.map Event.id).reverse.takeWhile fun id => decide (id ≠ -1)).filter fun id =>
        decide (id ∉ c.trimmed view ids)).length

instance (view : List Event) (ids : List ℤ) : Decidable (c.SummaryForgotten view ids) := by
  unfold SummaryForgotten
  infer_instance

end AttentionCondenser

/-! ## Ids that are kept -/

/-- **Filling up**: the ids that are missing, from the front, as far as there is room. -/
lemma topUp_eq {l : List ℤ} (hl : l.Nodup) (n : ℕ) (ids : List ℤ) :
    topUp n l ids = ids ++ (l.filter fun id => decide (id ∉ ids)).take (n - ids.length) := by
  induction l generalizing ids with
  | nil => simp [topUp]
  | cons id l ih =>
    obtain ⟨hid, hl⟩ := List.nodup_cons.mp hl
    rw [topUp]
    split_ifs with hlen hmem
    · rw [Nat.sub_eq_zero_of_le hlen, List.take_zero, List.append_nil]
    · rw [ih hl, List.filter_cons_of_neg (by simpa using hmem)]
    · have hcongr : (l.filter fun x => decide (x ∉ ids ++ [id])) =
          l.filter fun x => decide (x ∉ ids) := by
        refine List.filter_congr fun x hx => ?_
        have hne : x ≠ id := fun heq => hid (heq ▸ hx)
        simp [hne]
      have hroom : n - ids.length = n - (ids ++ [id]).length + 1 := by
        rw [List.length_append, List.length_singleton]
        omega
      rw [ih hl, hcongr, List.filter_cons_of_pos (by simpa using hmem), hroom, List.take_succ_cons,
        List.append_assoc, List.singleton_append]

/-- The elements of a list that are in a part of it. -/
lemma length_filter_mem {l part : List ℤ} (hl : l.Nodup) (hpart : part.Nodup) (hsub : part ⊆ l) :
    (l.filter fun id => decide (id ∈ part)).length = part.length := by
  refine List.Perm.length_eq ((List.perm_ext_iff_of_nodup (hl.filter _) hpart).mpr fun id => ?_)
  rw [List.mem_filter, decide_eq_true_eq]
  exact ⟨And.right, fun h => ⟨hsub h, h⟩⟩

/-- No more elements of a list are in another one than that has. -/
lemma length_filter_mem_le {l : List ℤ} (hl : l.Nodup) (ids : List ℤ) :
    (l.filter fun id => decide (id ∈ ids)).length ≤ ids.length :=
  (List.subperm_of_subset (hl.filter _) fun _ hid =>
    of_decide_eq_true (List.mem_filter.mp hid).2).length_le

/-- A filter by either of two conditions that exclude each other. -/
lemma length_filter_or {l : List ℤ} {p q : ℤ → Prop} [DecidablePred p] [DecidablePred q]
    (h : ∀ id ∈ l, p id → ¬ q id) :
    (l.filter fun id => decide (p id ∨ q id)).length =
      (l.filter fun id => decide (p id)).length + (l.filter fun id => decide (q id)).length := by
  induction l with
  | nil => rfl
  | cons id l ih =>
    obtain ⟨hid, hl⟩ := List.forall_mem_cons.mp h
    have hrest := ih hl
    by_cases hp : p id
    · simp only [List.filter_cons, hp, hid hp, true_or, decide_true, decide_false, if_true,
        Bool.false_eq_true, if_false, List.length_cons]
      omega
    · by_cases hq : q id <;>
        simp only [List.filter_cons, hp, hq, or_true, or_false, decide_true, decide_false, if_true,
          Bool.false_eq_true, if_false, List.length_cons] <;> omega

section Kept

variable {head rest : List ℤ} (trimmed : List ℤ) {n : ℕ}

/-- The ids of the answer are among those behind the first ones. -/
lemma filter_mem_trimmed (htrimmed : ∀ id ∈ trimmed, id ∉ head) :
    ((head ++ rest).filter fun id => decide (id ∈ trimmed)) =
      rest.filter fun id => decide (id ∈ trimmed) := by
  have hnone : ∀ id ∈ head, ¬ decide (id ∈ trimmed) = true := fun id hid h =>
    htrimmed id (of_decide_eq_true h) hid
  rw [List.filter_append, List.filter_eq_nil_iff.mpr hnone, List.nil_append]

variable (hids : (head ++ rest).Nodup)

include hids

/-- There are enough ids to fill up with. -/
lemma le_length_missing (hn : n ≤ rest.length) :
    n - trimmed.length ≤ (rest.reverse.filter fun id => decide (id ∉ trimmed)).length := by
  have hrest := (List.nodup_append.mp hids).2.1
  have hused := length_filter_mem_le hrest trimmed
  have hsum := List.length_eq_length_filter_add (l := rest) fun id => decide (id ∈ trimmed)
  have hneg : (rest.filter fun id => !decide (id ∈ trimmed)) =
      rest.filter fun id => decide (id ∉ trimmed) := List.filter_congr fun id _ => by simp
  rw [List.filter_reverse, List.length_reverse, ← hneg]
  omega

/-- **The ids that are added** are not those of the first events. -/
lemma topUp_append (hn : n ≤ rest.length) : topUp n (head ++ rest).reverse trimmed =
    trimmed ++ (rest.reverse.filter fun id => decide (id ∉ trimmed)).take (n - trimmed.length) := by
  rw [topUp_eq (List.nodup_reverse.mpr hids), List.reverse_append, List.filter_append,
    List.take_append_of_le_length (le_length_missing trimmed hids hn)]

/-- **The number of ids that are kept**, with the places of the answer that keep none. -/
theorem length_kept_add_wasted (htrimmed : ∀ id ∈ trimmed, id ∉ head) (hn : n ≤ rest.length)
    (hlen : trimmed.length ≤ n) :
    ((head ++ rest).filter fun id =>
        decide (id ∈ head ∨ id ∈ topUp n (head ++ rest).reverse trimmed)).length +
      (trimmed.length - ((head ++ rest).filter fun id => decide (id ∈ trimmed)).length) =
        head.length + n := by
  obtain ⟨hhead, hrest, hdisjoint⟩ := List.nodup_append.mp hids
  have hmissing := le_length_missing trimmed hids hn
  rw [topUp_append trimmed hids hn, filter_mem_trimmed trimmed htrimmed]
  set added := (rest.reverse.filter fun id => decide (id ∉ trimmed)).take (n - trimmed.length)
    with hadded
  have haddedMem : ∀ id ∈ added, id ∈ rest ∧ id ∉ trimmed := by
    intro id hid
    have hmem := List.mem_filter.mp (List.mem_of_mem_take hid)
    exact ⟨List.mem_reverse.mp hmem.1, of_decide_eq_true hmem.2⟩
  have haddedLen : added.length = n - trimmed.length := by
    rw [hadded, List.length_take]
    exact Nat.min_eq_left hmissing
  have haddedNodup : added.Nodup := ((List.nodup_reverse.mpr hrest).filter _).sublist
    (List.take_sublist _ _)
  have hfirst : (head.filter fun id => decide (id ∈ head ∨ id ∈ trimmed ++ added)) = head :=
    List.filter_eq_self.mpr fun id hid => decide_eq_true (.inl hid)
  have hlast : (rest.filter fun id => decide (id ∈ head ∨ id ∈ trimmed ++ added)) =
      rest.filter fun id => decide (id ∈ trimmed ∨ id ∈ added) := by
    refine List.filter_congr fun id hid => ?_
    have hnot : id ∉ head := fun hmem => hdisjoint id hmem id hid rfl
    simp [hnot]
  have hused := length_filter_mem_le hrest trimmed
  rw [List.filter_append, hfirst, hlast, List.length_append,
    length_filter_or fun id _ h hmem => (haddedMem id hmem).2 h,
    length_filter_mem hrest haddedNodup fun id hid => (haddedMem id hid).1, haddedLen]
  omega

end Kept

/-- An element is among the first ones if fewer of the list stand before it. -/
lemma mem_take_filter_iff {l : List ℤ} (hl : l.Nodup) {p : ℤ → Bool} {id : ℤ} (hid : id ∈ l)
    (hp : p id = true) (n : ℕ) : id ∈ (l.filter p).take n ↔
      ((l.takeWhile fun x => decide (x ≠ id)).filter p).length < n := by
  induction l generalizing n with
  | nil => cases hid
  | cons x l ih =>
    obtain ⟨hx, hl⟩ := List.nodup_cons.mp hl
    by_cases heq : x = id
    · subst heq
      rw [List.filter_cons_of_pos hp, List.takeWhile_cons_of_neg (by simp), List.filter_nil,
        List.length_nil]
      cases n with
      | zero => simp
      | succ n => simp
    · have hmem : id ∈ l := (List.mem_cons.mp hid).resolve_left (Ne.symm heq)
      rw [List.takeWhile_cons_of_pos (by simpa using heq)]
      cases hpx : p x with
      | false => rw [List.filter_cons_of_neg (by simp [hpx]), List.filter_cons_of_neg (by simp [hpx]),
          ih hl hmem]
      | true =>
        rw [List.filter_cons_of_pos hpx, List.filter_cons_of_pos hpx, List.length_cons]
        cases n with
        | zero => simp
        | succ n =>
          rw [List.take_succ_cons, List.mem_cons, ih hl hmem]
          simp [Ne.symm heq]

/-! ## The next view -/

section View

variable {history : History}

/-- The events of a view have different ids. -/
lemma nodup_view (history : History) : ((fromEvents history.events).map Event.id).Nodup := by
  have hkept : ((keptEvents history.events).map Event.id).Nodup :=
    List.pairwise_map.mpr ((history.sorted.filter _).imp ne_of_lt)
  rw [fromEvents]
  split
  · rename_i summary offset _
    rw [Slices.insertAt, List.map_append, List.map_cons, List.nodup_middle, ← List.map_append,
      List.take_append_drop, List.nodup_cons]
    refine ⟨fun hmem => ?_, hkept⟩
    obtain ⟨e, he, hid⟩ := List.mem_map.mp hmem
    have hnonneg := history.nonneg e (List.mem_of_mem_filter he)
    simp only [summaryEvent] at hid
    omega
  · exact hkept

/-- **What stays visible** behind a condensation without a summary: the events that it does not
forget, and a summary. -/
lemma mem_fromEvents_concat_iff {event : Event} {action : CondensationAction}
    (hid : ∀ e ∈ history.events, e.id < event.id) (hevent : event.condensation? = some action)
    (hsummary : action.summary = none) {e : Event} (he : e ∈ fromEvents history.events) :
    e ∈ fromEvents (history.events ++ [event]) ↔ e.id ∉ action.forgotten ∨ e.id = -1 := by
  have hlast : lastSummary (history.events ++ [event]) = lastSummary history.events := by
    rw [lastSummary_concat, hevent, Option.bind_some, hsummary, Option.none_or]
  -- An event of the history is neither the new one nor a summary.
  have hkept : e ∈ keptEvents history.events →
      (e ∈ keptEvents (history.events ++ [event]) ↔ e.id ∉ action.forgotten ∨ e.id = -1) ∧
        ∀ summary, e ≠ summaryEvent summary := by
    intro hmem
    obtain ⟨hmem, hnot⟩ := List.mem_filter.mp hmem
    have hnonneg := history.nonneg e hmem
    have hlt := hid e hmem
    have hne : e ≠ event := fun heq => by
      rw [heq] at hlt
      exact lt_irrefl _ hlt
    constructor
    · rw [keptEvents, List.mem_filter, forgottenEventIds_concat, hevent, Option.map_some,
        Option.getD_some, List.mem_append, List.mem_singleton, decide_eq_true_eq, List.mem_append]
      have hnot := of_decide_eq_true hnot
      constructor
      · rintro ⟨-, hnot'⟩
        exact .inl fun hforgotten => hnot' (.inr hforgotten)
      · rintro (hforgotten | hminus)
        · exact ⟨.inl hmem, fun h => h.elim hnot hforgotten⟩
        · omega
    · rintro summary rfl
      simp only [summaryEvent] at hnonneg
      omega
  rw [fromEvents] at he ⊢
  rw [hlast]
  cases hcase : lastSummary history.events with
  | none =>
    rw [hcase] at he
    exact (hkept he).1
  | some last =>
    obtain ⟨summary, offset⟩ := last
    rw [hcase] at he
    simp only at he ⊢
    rw [Slices.mem_insertAt] at he ⊢
    rcases he with rfl | he
    · exact ⟨fun _ => .inr rfl, fun _ => .inl rfl⟩
    · obtain ⟨hiff, hne⟩ := hkept he
      rw [← hiff]
      exact ⟨fun h => h.resolve_left (hne summary), .inr⟩

namespace AttentionCondenser

variable {c : AttentionCondenser}

/-- What the condensation does not forget of the view. -/
lemma notMem_forgotten_iff {view : List Event} {ids : List ℤ} {e : Event} (he : e ∈ view) :
    e.id ∉ (c.getCondensation view ids).forgotten ↔ e.id ∈ c.headEventIds view ∨
      e.id ∈ topUp (c.eventsFromTail view) (view.map Event.id).reverse (c.trimmed view ids) := by
  rw [getCondensation, CondensationAction.forgotten, List.map_reverse]
  simp only [List.mem_map, List.mem_filter, decide_eq_true_eq]
  constructor
  · intro h
    by_contra hnot
    push Not at hnot
    exact h ⟨e, ⟨he, hnot.2, hnot.1⟩, rfl⟩
  · rintro h ⟨e', ⟨-, htop, hhead⟩, heq⟩
    rw [heq] at htop hhead
    exact h.elim hhead htop

/-- When the id of a summary is not kept. -/
lemma summaryForgotten_iff {view : List Event} (hids : (view.map Event.id).Nodup) (ids : List ℤ) :
    c.SummaryForgotten view ids ↔ -1 ∈ view.map Event.id ∧ ¬ (-1 ∈ c.headEventIds view ∨
      -1 ∈ topUp (c.eventsFromTail view) (view.map Event.id).reverse (c.trimmed view ids)) := by
  rw [SummaryForgotten, topUp_eq (List.nodup_reverse.mpr hids), List.mem_append]
  refine and_congr_right fun hmem => ?_
  rw [not_or, not_or]
  refine and_congr_right fun _ => and_congr_right fun hanswer => ?_
  rw [mem_take_filter_iff (List.nodup_reverse.mpr hids) (List.mem_reverse.mpr hmem)
    (decide_eq_true hanswer), not_lt]

/-- **The number of visible events.** -/
lemma length_visible {event : Event} {ids : List ℤ}
    (hlong : c.shouldCondense (fromEvents history.events) = true)
    (hid : ∀ e ∈ history.events, e.id < event.id)
    (hevent : event.condensation? = some (c.getCondensation (fromEvents history.events) ids)) :
    (visible history event).length + c.wasted (fromEvents history.events) ids = c.maxSize / 2 +
      if c.SummaryForgotten (fromEvents history.events) ids then 1 else 0 := by
  have hids := nodup_view history
  set view := fromEvents history.events with hview
  have hlong : c.maxSize < view.length := of_decide_eq_true hlong
  have hlt := c.keepFirst_lt
  have hparts : view.map Event.id = c.headEventIds view ++ (view.drop c.keepFirst).map Event.id := by
    rw [headEventIds, ← List.map_append, List.take_append_drop]
  have hheadLen : (c.headEventIds view).length = c.keepFirst := by
    rw [headEventIds, List.length_map, List.length_take]
    omega
  have hkept := length_kept_add_wasted (c.trimmed view ids) (hparts ▸ hids)
    (fun id hmem => of_decide_eq_true (List.mem_filter.mp (List.mem_of_mem_take hmem)).2)
    (n := c.eventsFromTail view)
    (by rw [eventsFromTail, hheadLen, List.length_map, List.length_drop]; omega)
    (by rw [trimmed, List.length_take]; exact Nat.min_le_left _ _)
  rw [← hparts] at hkept
  set top := topUp (c.eventsFromTail view) (view.map Event.id).reverse (c.trimmed view ids) with htop
  have hvisible : (visible history event).length = ((view.map Event.id).filter fun id =>
      decide ((id ∈ c.headEventIds view ∨ id ∈ top) ∨ id = -1)).length := by
    rw [visible, ← hview, List.filter_map, List.length_map]
    congr 1
    refine List.filter_congr fun e he => ?_
    rw [Function.comp_apply, decide_eq_decide, mem_fromEvents_concat_iff hid hevent rfl he,
      notMem_forgotten_iff he]
  have htotal : (c.headEventIds view).length + c.eventsFromTail view = c.maxSize / 2 := by
    rw [eventsFromTail, hheadLen]
    omega
  rw [htotal] at hkept
  rw [hvisible, wasted, ← hkept]
  by_cases hforgotten : c.SummaryForgotten view ids
  · rw [if_pos hforgotten]
    obtain ⟨hmem, hnot⟩ := (summaryForgotten_iff hids ids).mp hforgotten
    have hone : ((view.map Event.id).filter fun id => decide (id = -1)).length = 1 := by
      have hsub := length_filter_mem hids (List.nodup_singleton (-1)) (by simpa using hmem)
      simpa using hsub
    rw [length_filter_or fun id _ h heq => hnot (by rwa [heq] at h), hone]
    omega
  · rw [if_neg hforgotten]
    rw [summaryForgotten_iff hids] at hforgotten
    have hsame : ((view.map Event.id).filter fun id =>
        decide ((id ∈ c.headEventIds view ∨ id ∈ top) ∨ id = -1)) =
          (view.map Event.id).filter fun id => decide (id ∈ c.headEventIds view ∨ id ∈ top) := by
      refine List.filter_congr fun id hmem => ?_
      rw [decide_eq_decide]
      refine or_iff_left_of_imp fun heq => ?_
      subst heq
      by_contra hnot
      exact hforgotten ⟨hmem, hnot⟩
    rw [hsame]
    omega

/-- **The quota is kept if and only if** no place of the answer is wasted, or one is and the id of a
summary is forgotten. -/
theorem quotaKept_iff {event : Event} {ids : List ℤ}
    (hlong : c.shouldCondense (fromEvents history.events) = true)
    (hid : ∀ e ∈ history.events, e.id < event.id)
    (hevent : event.condensation? = some (c.getCondensation (fromEvents history.events) ids)) :
    c.QuotaKept history event ↔ c.wasted (fromEvents history.events) ids =
      if c.SummaryForgotten (fromEvents history.events) ids then 1 else 0 := by
  have hlength := length_visible hlong hid hevent
  constructor
  · intro h
    rw [h.length_eq] at hlength
    omega
  · intro h
    refine ⟨by omega, fun e he => ?_⟩
    have hmem := List.mem_of_mem_take he
    rw [mem_fromEvents_concat_iff hid hevent rfl hmem, notMem_forgotten_iff hmem]
    exact .inl (.inl (List.mem_map_of_mem he))

/-- No place is wasted if and only if the ids of the trimmed answer are different ids of the view. -/
lemma wasted_eq_zero_iff {view : List Event} (hids : (view.map Event.id).Nodup) (ids : List ℤ) :
    c.wasted view ids = 0 ↔
      (c.trimmed view ids).Nodup ∧ c.trimmed view ids ⊆ view.map Event.id := by
  rw [wasted, Nat.sub_eq_zero_iff_le]
  constructor
  · intro hle
    have hsub := List.subperm_of_subset (hids.filter fun id => decide (id ∈ c.trimmed view ids))
      fun id hid => of_decide_eq_true (List.mem_filter.mp hid).2
    have hperm := hsub.perm_of_length_le hle
    exact ⟨hperm.nodup_iff.mp (hids.filter _), fun id hid =>
      List.mem_of_mem_filter (hperm.mem_iff.mpr hid)⟩
  · rintro ⟨hnodup, hsub⟩
    rw [length_filter_mem hids hnodup hsub]

/-! ## Seven messages -/

/-- Messages of the user with the ids from 0 to 6. -/
def sevenMessages : History where
  events := (List.range 7).map fun k => ⟨k, some .user, none, .message "Go on."⟩
  sorted := by decide
  nonneg := by decide

/-- A condenser for six events. -/
def sixEvents : AttentionCondenser := ⟨6, 1, by decide⟩

/-- The event with the condensation for an answer. -/
def answered (ids : List ℤ) : Event :=
  ⟨7, some .agent, none,
    .condensation (sixEvents.getCondensation (fromEvents sevenMessages.events) ids)⟩

/-- An answer with one id of the view is filled up. -/
theorem quotaKept_oneId :
    (visible sevenMessages (answered [3])).map Event.id = [0, 3, 6] ∧
      sixEvents.QuotaKept sevenMessages (answered [3]) :=
  ⟨by decide, (quotaKept_iff (by decide) (by decide) rfl).mpr (by decide)⟩

/-- **The quota is missed** for a repeated id and for an id that the view does not have. -/
theorem not_quotaKept_repeated_unknown :
    sixEvents.shouldCondense (fromEvents sevenMessages.events) = true ∧
      (visible sevenMessages (answered [3, 3])).map Event.id = [0, 3] ∧
      ¬ sixEvents.QuotaKept sevenMessages (answered [3, 3]) ∧
      (visible sevenMessages (answered [99, 3])).map Event.id = [0, 3] ∧
      ¬ sixEvents.QuotaKept sevenMessages (answered [99, 3]) := by
  refine ⟨by decide, by decide, fun h => ?_, by decide, fun h => ?_⟩
  · exact absurd h.length_eq (by decide)
  · exact absurd h.length_eq (by decide)

end AttentionCondenser

end View

end ProRLAgent.Memory
