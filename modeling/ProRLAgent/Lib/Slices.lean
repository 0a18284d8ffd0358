import Mathlib.Data.List.Basic
import Mathlib.Order.Basic
import Mathlib.Order.Lattice
import Mathlib.Data.Nat.Notation
import Mathlib.Data.Int.Notation

set_option relaxedAutoImplicit false
set_option autoImplicit false

/-!
# Slices with negative bounds

Slices and insertions whose positions may count from the end of the list, as in Python: a negative
bound `-n` stands for the position `n` before the end, so `-0` is the start of the list.

The last sections remove an interval of keys from a list with increasing keys, and tell the elements
of a list behind a skipped part by their positions.

## Main definitions

* `Slices.bound` — the position that a bound stands for.
* `Slices.slice` — the slice `l[start:stop]`.
* `Slices.insertAt` — the list after `l.insert(i, x)`.
* `Slices.item?` — the element `l[i]`.

## Main results

* `Slices.slice_neg_none`, `Slices.slice_natCast_neg` — slices that count from the end.
* `Slices.filter_outside` — removing the keys between those of a middle part leaves the rest.
* `Slices.filter_append_filter` — two selections whose keys are apart.
-/

namespace Slices

variable {α : Type}

/-- The position that a bound stands for in a list of length `n`. -/
def bound (n : ℕ) (i : ℤ) : ℕ := if i < 0 then (i + n).toNat else min i.toNat n

/-- The slice `l[start:stop]`. -/
def slice (l : List α) (start stop : Option ℤ) : List α :=
  (l.take ((stop.map (bound l.length)).getD l.length)).drop
    ((start.map (bound l.length)).getD 0)

/-- The list after `l.insert(i, x)`. -/
def insertAt (l : List α) (i : ℤ) (x : α) : List α :=
  l.take (bound l.length i) ++ x :: l.drop (bound l.length i)

/-- The element `l[i]`. -/
def item? (l : List α) (i : ℤ) : Option α :=
  if 0 ≤ i then l[i.toNat]? else if 0 ≤ i + l.length then l[(i + l.length).toNat]? else none

/-- An element that is counted from the end. -/
lemma item?_neg (l : List α) {k : ℕ} (hpos : 0 < k) (hk : k ≤ l.length) :
    item? l (-k) = l[l.length - k]? := by
  have hindex : (-(k : ℤ) + l.length).toNat = l.length - k := by omega
  rw [item?, if_neg (by omega), if_pos (by omega), hindex]

lemma item?_natCast (l : List α) (k : ℕ) : item? l k = l[k]? := by
  rw [item?, if_pos (by omega), Int.toNat_natCast]

/-- The elements of a list with one more at the end. -/
lemma getElem?_concat_eq_some_iff {l : List α} {a x : α} {i : ℕ} :
    (l ++ [a])[i]? = some x ↔ l[i]? = some x ∨ i = l.length ∧ x = a := by
  rcases Nat.lt_trichotomy i l.length with hlt | rfl | hlt
  · simp [List.getElem?_append_left hlt, hlt.ne]
  · simp [eq_comm]
  · have hlong : l.length + 1 ≤ i := hlt
    rw [List.getElem?_eq_none (by simpa using hlong), List.getElem?_eq_none hlt.le]
    simp [hlt.ne']

lemma bound_natCast (n k : ℕ) : bound n k = min k n := by
  rw [bound, if_neg (by omega), Int.toNat_natCast]

lemma bound_neg {n k : ℕ} (h : 0 < k) : bound n (-k) = n - k := by
  rw [bound, if_pos (by omega)]
  omega

/-- The first elements. -/
lemma slice_none_natCast (l : List α) (k : ℕ) : slice l none (some k) = l.take k := by
  simp [slice, bound_natCast]

/-- The whole list. -/
lemma slice_zero_none (l : List α) : slice l (some 0) none = l := by
  simp [slice, bound]

/-- The first elements, from position 0. -/
lemma slice_zero_natCast (l : List α) (k : ℕ) : slice l (some 0) (some k) = l.take k := by
  have hzero : bound l.length 0 = 0 := by simp [bound]
  simp only [slice, Option.map_some, Option.getD_some, bound_natCast, hzero, List.drop_zero]
  exact (List.take_eq_take_iff).mpr (by omega)

/-- The last elements. -/
lemma slice_neg_none (l : List α) {n : ℕ} (h : 0 < n) :
    slice l (some (-n)) none = l.drop (l.length - n) := by
  simp [slice, bound_neg h]

/-- The elements from a position on, but for the last ones. -/
lemma slice_natCast_neg (l : List α) {k n : ℕ} (h : 0 < n) (hk : k ≤ l.length) :
    slice l (some k) (some (-n)) = (l.take (l.length - n)).drop k := by
  simp [slice, bound_natCast, bound_neg h, Nat.min_eq_left hk]

/-- A slice between two positions from the front. -/
lemma slice_natCast_natCast (l : List α) (i j : ℕ) :
    slice l (some i) (some j) = (l.take j).drop i := by
  simp only [slice, Option.map_some, Option.getD_some, bound_natCast]
  rcases Nat.le_total i l.length with hi | hi
  · rw [Nat.min_eq_left hi]
    exact congrArg (List.drop i) (List.take_eq_take_iff.mpr (by omega))
  · rw [Nat.min_eq_right hi, List.drop_of_length_le (List.length_take_le' _ _),
      List.drop_of_length_le ((List.length_take_le' _ _).trans hi)]

/-- The elements from a position on. -/
lemma slice_natCast_none (l : List α) (i : ℕ) : slice l (some i) none = l.drop i := by
  simp only [slice, Option.map_some, Option.map_none, Option.getD_some, Option.getD_none,
    bound_natCast, List.take_length]
  rcases Nat.le_total i l.length with hi | hi
  · rw [Nat.min_eq_left hi]
  · rw [Nat.min_eq_right hi, List.drop_length, List.drop_of_length_le hi]

/-- A slice and what stands behind it. -/
lemma slice_append_drop (l : List α) {i j : ℕ} (h : i ≤ j) :
    slice l (some i) (some j) ++ l.drop j = l.drop i := by
  rw [slice_natCast_natCast]
  rcases Nat.le_total i l.length with hi | hi
  · have hlength : i ≤ (l.take j).length := by
      rw [List.length_take]
      exact Nat.le_min.mpr ⟨h, hi⟩
    rw [← List.drop_append_of_le_length hlength, List.take_append_drop]
  · rw [List.drop_of_length_le ((List.length_take_le' _ _).trans hi),
      List.drop_of_length_le (hi.trans h), List.drop_of_length_le hi, List.append_nil]

/-- The elements before a position, and a slice behind them. -/
lemma take_append_slice (l : List α) {i j : ℕ} (h : i ≤ j) :
    l.take i ++ slice l (some i) (some j) = l.take j := by
  have hparts := List.take_append_drop i (l.take j)
  rwa [List.take_take, Nat.min_eq_left h, ← slice_natCast_natCast] at hparts

/-- **Two slices** that follow each other. -/
theorem slice_append_slice (l : List α) {i j k : ℕ} (hij : i ≤ j) (hjk : j ≤ k) :
    slice l (some i) (some j) ++ slice l (some j) (some k) = slice l (some i) (some k) := by
  have h := slice_append_drop (l.take k) hij
  rw [slice_natCast_natCast, List.take_take, Nat.min_eq_left hjk] at h
  rw [slice_natCast_natCast, slice_natCast_natCast, slice_natCast_natCast, h]

/-- The elements of a slice by their positions. -/
lemma mem_slice_natCast {l : List α} {i j : ℕ} {x : α} :
    x ∈ slice l (some i) (some j) ↔ ∃ p, i ≤ p ∧ p < j ∧ l[p]? = some x := by
  simp only [slice, Option.map_some, Option.getD_some, bound_natCast, List.mem_iff_getElem?,
    List.getElem?_drop, List.getElem?_take]
  constructor
  · rintro ⟨q, hq⟩
    split_ifs at hq with hlt
    obtain ⟨hbound, -⟩ := List.getElem?_eq_some_iff.mp hq
    exact ⟨_, by omega, by omega, hq⟩
  · rintro ⟨p, hi, hj, hp⟩
    obtain ⟨hbound, -⟩ := List.getElem?_eq_some_iff.mp hp
    have hindex : min i l.length + (p - i) = p := by omega
    refine ⟨p - i, ?_⟩
    rw [hindex, if_pos (by omega), hp]

/-- The bound `-0` counts from the start. -/
lemma slice_neg_zero (l : List α) (start : Option ℤ) : slice l start (some (-0)) = [] := by
  simp [slice, bound]

/-- An insertion at a position of the list. -/
lemma insertAt_natCast (l : List α) {k : ℕ} (hk : k ≤ l.length) (x : α) :
    insertAt l k x = l.take k ++ x :: l.drop k := by
  rw [insertAt, bound_natCast, Nat.min_eq_left hk]

/-- A filter that drops the inserted element does not see the insertion. -/
lemma filter_insertAt (l : List α) (i : ℤ) {x : α} {p : α → Bool} (h : p x = false) :
    (insertAt l i x).filter p = l.filter p := by
  have hx : ¬ p x = true := by simp [h]
  rw [insertAt, List.filter_append, List.filter_cons_of_neg hx, ← List.filter_append,
    List.take_append_drop]

/-- The elements after an insertion. -/
lemma mem_insertAt {l : List α} {i : ℤ} {x y : α} : y ∈ insertAt l i x ↔ y = x ∨ y ∈ l := by
  have hl : y ∈ l ↔ y ∈ l.take (bound l.length i) ∨ y ∈ l.drop (bound l.length i) := by
    rw [← List.mem_append, List.take_append_drop]
  rw [insertAt, List.mem_append, List.mem_cons, hl]
  tauto

/-! ## Intervals of a list with increasing keys -/

/-- **Removing an interval**: the keys between those of a middle part are the keys of this part. -/
theorem filter_outside {β : Type} [LinearOrder β] {key : α → β} {a m b : List α} {lo hi : β}
    (h : (a ++ m ++ b).Pairwise fun x y => key x < key y)
    (hlo : ∃ x ∈ m, key x = lo) (hhi : ∃ x ∈ m, key x = hi)
    (hm : ∀ x ∈ m, lo ≤ key x ∧ key x ≤ hi) :
    (a ++ m ++ b).filter (fun x => decide (¬ (lo ≤ key x ∧ key x ≤ hi))) = a ++ b := by
  obtain ⟨x, hx, rfl⟩ := hlo
  obtain ⟨y, hy, rfl⟩ := hhi
  obtain ⟨ham, -, hb⟩ := List.pairwise_append.mp h
  obtain ⟨-, -, ha⟩ := List.pairwise_append.mp ham
  have hkeepA : ∀ z ∈ a, decide (¬ (key x ≤ key z ∧ key z ≤ key y)) = true := by
    intro z hz
    have hlt := ha z hz x hx
    exact decide_eq_true fun hle => absurd hlt (not_lt.mpr hle.1)
  have hkeepB : ∀ z ∈ b, decide (¬ (key x ≤ key z ∧ key z ≤ key y)) = true := by
    intro z hz
    have hlt := hb y (List.mem_append_right _ hy) z hz
    exact decide_eq_true fun hle => absurd hlt (not_lt.mpr hle.2)
  have hdropM : ∀ z ∈ m, ¬ decide (¬ (key x ≤ key z ∧ key z ≤ key y)) = true := by
    intro z hz
    simpa using hm z hz
  rw [List.filter_append, List.filter_append, List.filter_eq_self.mpr hkeepA,
    List.filter_eq_nil_iff.mpr hdropM, List.filter_eq_self.mpr hkeepB, List.append_nil]

/-- The elements behind a key are those from the first of them on. -/
lemma drop_findIdx {β : Type} [LinearOrder β] {key : α → β} {l : List α}
    (h : l.Pairwise fun x y => key x < key y) (k : β) :
    l.drop (l.findIdx fun x => decide (k < key x)) = l.filter fun x => decide (k < key x) := by
  induction l with
  | nil => rfl
  | cons a l ih =>
    obtain ⟨ha, hl⟩ := List.pairwise_cons.mp h
    by_cases hk : k < key a
    · have hall : ∀ x ∈ a :: l, decide (k < key x) = true := by
        intro x hx
        rcases List.mem_cons.mp hx with rfl | hx
        · exact decide_eq_true hk
        · exact decide_eq_true (hk.trans (ha x hx))
      rw [List.findIdx_cons, decide_eq_true hk, List.filter_eq_self.mpr hall]
      rfl
    · rw [List.findIdx_cons, decide_eq_false hk, List.filter_cons_of_neg (by simp [hk])]
      exact ih hl

/-- Two selections whose keys are apart make up the selection of both. -/
lemma filter_append_filter {β : Type} [LinearOrder β] {key : α → β} {l : List α} {p q r : α → Bool}
    (h : l.Pairwise fun x y => key x < key y) (hr : ∀ x ∈ l, r x = (p x || q x))
    (hlt : ∀ x ∈ l, ∀ y ∈ l, p x = true → q y = true → key x < key y) :
    l.filter p ++ l.filter q = l.filter r := by
  induction l with
  | nil => rfl
  | cons a l ih =>
    obtain ⟨ha, hl⟩ := List.pairwise_cons.mp h
    have hrest := ih hl (fun x hx => hr x (List.mem_cons_of_mem a hx)) fun x hx y hy =>
      hlt x (List.mem_cons_of_mem a hx) y (List.mem_cons_of_mem a hy)
    have hra := hr a (by simp)
    cases hq : q a with
    | true =>
      -- Behind an element of the second selection there is none of the first one.
      have hnone : ∀ x ∈ a :: l, ¬ p x = true := by
        intro x hx hp
        have hxa := hlt x hx a (by simp) hp hq
        rcases List.mem_cons.mp hx with rfl | hx
        · exact absurd hxa (lt_irrefl _)
        · exact absurd (hxa.trans (ha x hx)) (lt_irrefl _)
      rw [List.filter_eq_nil_iff.mpr hnone, List.nil_append]
      refine List.filter_congr fun x hx => ?_
      rw [hr x hx, Bool.eq_false_iff.mpr (hnone x hx), Bool.false_or]
    | false =>
      rw [hq, Bool.or_false] at hra
      rw [List.filter_cons_of_neg (p := q) (by simp [hq])]
      cases hp : p a with
      | true =>
        rw [List.filter_cons_of_pos hp, List.filter_cons_of_pos (hra.trans hp), List.cons_append,
          hrest]
      | false =>
        rw [List.filter_cons_of_neg (by simp [hp]), List.filter_cons_of_neg (by simp [hra, hp]),
          hrest]

/-- With distinct keys, the keys that are not those of the ends are those of the middle part. -/
lemma filter_notMem_ends {β : Type} [DecidableEq β] {key : α → β} {a m b : List α}
    (h : ((a ++ m ++ b).map key).Nodup) :
    ((a ++ m ++ b).map key).filter (fun x => decide (x ∉ (a ++ b).map key)) = m.map key := by
  simp only [List.map_append] at h ⊢
  obtain ⟨ham, -, hb⟩ := List.nodup_append.mp h
  obtain ⟨-, -, ha⟩ := List.nodup_append.mp ham
  have hdropA : ∀ x ∈ a.map key, ¬ decide (x ∉ a.map key ++ b.map key) = true := by
    intro x hx
    simp only [decide_eq_true_eq, not_not]
    exact List.mem_append_left _ hx
  have hdropB : ∀ x ∈ b.map key, ¬ decide (x ∉ a.map key ++ b.map key) = true := by
    intro x hx
    simp only [decide_eq_true_eq, not_not]
    exact List.mem_append_right _ hx
  have hkeepM : ∀ x ∈ m.map key, decide (x ∉ a.map key ++ b.map key) = true := by
    intro x hx
    refine decide_eq_true fun hmem => ?_
    rcases List.mem_append.mp hmem with hmem | hmem
    · exact ha x hmem x hx rfl
    · exact hb x (List.mem_append_right _ hx) x hmem rfl
  rw [List.filter_append, List.filter_append, List.filter_eq_nil_iff.mpr hdropA,
    List.filter_eq_self.mpr hkeepM, List.filter_eq_nil_iff.mpr hdropB, List.nil_append,
    List.append_nil]

/-! ## The rest of a list behind a start and a skipped part -/

/-- An element of a list without duplicates is in the rest behind position `start`, without the
first elements with `skip`, exactly if one without `skip` stands between `start` and it. -/
lemma mem_dropWhile_drop_iff {l : List α} (h : l.Nodup) (skip : α → Bool) (start : ℕ) {p : ℕ}
    {x : α} (hp : l[p]? = some x) :
    x ∈ (l.drop start).dropWhile skip ↔
      ∃ q ≤ p, start ≤ q ∧ ∃ y, l[q]? = some y ∧ skip y = false := by
  induction l generalizing start p with
  | nil => simp at hp
  | cons a l ih =>
    obtain ⟨hnotMem, hnodup⟩ := List.nodup_cons.mp h
    have hrest : ∀ n, (l.drop n).dropWhile skip ⊆ l := fun n =>
      List.Subset.trans (List.dropWhile_subset _) (List.drop_subset _ _)
    cases start with
    | zero =>
      rw [List.drop_zero]
      cases ha : skip a with
      | false =>
        rw [List.dropWhile_cons_of_neg (by simp [ha])]
        exact ⟨fun _ => ⟨0, Nat.zero_le _, Nat.le_refl 0, a, rfl, ha⟩,
          fun _ => List.mem_of_getElem? hp⟩
      | true =>
        rw [List.dropWhile_cons_of_pos ha]
        cases p with
        | zero =>
          obtain rfl : a = x := by simpa using hp
          refine iff_of_false (fun hmem => hnotMem (hrest 0 (by simpa using hmem))) ?_
          rintro ⟨q, hq, -, y, hy, hskip⟩
          obtain rfl : q = 0 := by omega
          obtain rfl : a = y := by simpa using hy
          simp [ha] at hskip
        | succ p =>
          have htail := ih hnodup 0 (show l[p]? = some x by simpa using hp)
          rw [List.drop_zero] at htail
          rw [htail]
          constructor
          · rintro ⟨q, hq, -, y, hy, hskip⟩
            exact ⟨q + 1, by omega, Nat.zero_le _, y, by simpa using hy, hskip⟩
          · rintro ⟨q, hq, -, y, hy, hskip⟩
            cases q with
            | zero =>
              obtain rfl : a = y := by simpa using hy
              simp [ha] at hskip
            | succ q => exact ⟨q, by omega, Nat.zero_le _, y, by simpa using hy, hskip⟩
    | succ start =>
      rw [List.drop_succ_cons]
      cases p with
      | zero =>
        obtain rfl : a = x := by simpa using hp
        refine iff_of_false (fun hmem => hnotMem (hrest start hmem)) ?_
        rintro ⟨q, hq, hstart, -⟩
        omega
      | succ p =>
        rw [ih hnodup start (show l[p]? = some x by simpa using hp)]
        constructor
        · rintro ⟨q, hq, hstart, y, hy, hskip⟩
          exact ⟨q + 1, by omega, by omega, y, by simpa using hy, hskip⟩
        · rintro ⟨q, hq, hstart, y, hy, hskip⟩
          obtain ⟨q, rfl⟩ : ∃ n, q = n + 1 := ⟨q - 1, by omega⟩
          exact ⟨q, by omega, by omega, y, by simpa using hy, hskip⟩

end Slices
