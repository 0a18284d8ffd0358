import Mathlib.Algebra.BigOperators.Ring.List
import Mathlib.Algebra.Order.BigOperators.Group.List
import Mathlib.Algebra.Order.Field.Basic
import Mathlib.Tactic.Ring

set_option relaxedAutoImplicit false
set_option autoImplicit false

/-!
# Differences to a weighted mean

Sums over a list whose members have weights, and a mean of two values, zero and another one.

## Main results

* `ProRLAgent.WeightedMean.sum_mul_sub` — the sum of the differences to a baseline.
* `ProRLAgent.WeightedMean.sub_baseline` — the signs of the differences to the mean.
-/

namespace ProRLAgent.WeightedMean

variable {α K : Type} [Field K] (l : List α) (p : α → Bool) (w : α → K)

/-- A weighted sum of differences to a baseline. -/
theorem sum_mul_sub (f : α → K) (c : K) :
    (l.map fun a => w a * (f a - c)).sum =
      (l.map fun a => w a * f a).sum - c * (l.map w).sum := by
  induction l with
  | nil => simp
  | cons a l ih =>
    simp only [List.map_cons, List.sum_cons, ih]
    ring

/-- The weights of the members with a property and of the others. -/
lemma sum_filter_add : (l.map w).sum =
    ((l.filter p).map w).sum + ((l.filter fun a => !p a).map w).sum := by
  induction l with
  | nil => simp
  | cons a l ih =>
    cases h : p a with
    | false =>
      rw [List.filter_cons_of_neg (by simp [h]), List.filter_cons_of_pos (by simp [h]), List.map_cons,
        List.map_cons, List.sum_cons, List.sum_cons, ih]
      ring
    | true =>
      rw [List.filter_cons_of_pos h, List.filter_cons_of_neg (by simp [h]), List.map_cons,
        List.map_cons, List.sum_cons, List.sum_cons, ih]
      ring

/-- The members with a property have the value `c`, the others the value zero. -/
def value (c : K) (a : α) : K := c * if p a then 1 else 0

lemma value_of_true {c : K} {a : α} (h : p a = true) : value p c a = c := by
  rw [value, if_pos h, mul_one]

lemma value_of_false {c : K} {a : α} (h : p a = false) : value p c a = 0 := by
  rw [value, h, if_neg Bool.false_ne_true, mul_zero]

/-- The weighted sum of the values. -/
lemma sum_mul_value (c : K) :
    (l.map fun a => w a * value p c a).sum = c * ((l.filter p).map w).sum := by
  induction l with
  | nil => simp
  | cons a l ih =>
    rw [List.map_cons, List.sum_cons, ih]
    cases h : p a with
    | false => rw [List.filter_cons_of_neg (by simp [h]), value_of_false p h, mul_zero, zero_add]
    | true =>
      rw [List.filter_cons_of_pos h, value_of_true p h, List.map_cons, List.sum_cons]
      ring

section Ordered

variable [LinearOrder K] [IsStrictOrderedRing K] {l p w}

/-- Positive weights have a positive sum unless there are none. -/
lemma sum_pos_iff (h : ∀ a ∈ l, 0 < w a) : 0 < (l.map w).sum ↔ l ≠ [] := by
  constructor
  · rintro hpos rfl
    simp at hpos
  · intro hne
    induction l with
    | nil => exact absurd rfl hne
    | cons a l ih =>
      obtain ⟨ha, hl⟩ := List.forall_mem_cons.mp h
      rw [List.map_cons, List.sum_cons]
      rcases eq_or_ne l [] with rfl | hl'
      · simpa using ha
      · exact add_pos ha (ih hl hl')

/-- Positive weights have no negative sum. -/
lemma sum_nonneg (h : ∀ a ∈ l, 0 < w a) : 0 ≤ (l.map w).sum := by
  rcases eq_or_ne l [] with rfl | hne
  · simp
  · exact ((sum_pos_iff h).mpr hne).le

/-- **A mean of two values lies between them**: a member is above the mean if it has the larger value
and another one has not, and below if it has the smaller value and another one has not. -/
theorem sub_baseline {c baseline : K} (hc : 0 < c) (hw : ∀ a ∈ l, 0 < w a)
    (hbaseline : baseline * (l.map w).sum = (l.map fun a => w a * value p c a).sum)
    {a : α} (ha : a ∈ l) :
    (0 < value p c a - baseline ↔ p a = true ∧ ∃ b ∈ l, p b = false) ∧
      (value p c a - baseline < 0 ↔ p a = false ∧ ∃ b ∈ l, p b = true) := by
  have htotal : 0 < (l.map w).sum := (sum_pos_iff hw).mpr (List.ne_nil_of_mem ha)
  obtain ⟨large, hlarge⟩ : ∃ s, s = ((l.filter p).map w).sum := ⟨_, rfl⟩
  obtain ⟨small, hsmall⟩ : ∃ s, s = ((l.filter fun a => !p a).map w).sum := ⟨_, rfl⟩
  have hfilter (q : α → Bool) : ∀ b ∈ l.filter q, 0 < w b := fun b hb =>
    hw b (List.mem_of_mem_filter hb)
  have hlargePos : 0 < large ↔ ∃ b ∈ l, p b = true := by
    rw [hlarge, sum_pos_iff (hfilter _), ne_eq, List.filter_eq_nil_iff]
    simp
  have hsmallPos : 0 < small ↔ ∃ b ∈ l, p b = false := by
    rw [hsmall, sum_pos_iff (hfilter _), ne_eq, List.filter_eq_nil_iff]
    simp
  rw [sum_mul_value, ← hlarge, sum_filter_add l p w, ← hlarge, ← hsmall] at hbaseline
  rw [sum_filter_add l p w, ← hlarge, ← hsmall] at htotal
  rw [← hlargePos, ← hsmallPos]
  cases h : p a with
  | true =>
    have hdiff : (value p c a - baseline) * (large + small) = c * small := by
      rw [sub_mul, hbaseline, value_of_true p h]
      ring
    have hpos : 0 < value p c a - baseline ↔ 0 < small := by
      rw [← mul_pos_iff_of_pos_right htotal, hdiff, mul_pos_iff_of_pos_left hc]
    have hnonneg : 0 ≤ value p c a - baseline := by
      rw [← mul_nonneg_iff_of_pos_right htotal, hdiff, hsmall]
      exact mul_nonneg hc.le (sum_nonneg (hfilter _))
    simp [hpos, hnonneg.not_gt]
  | false =>
    have hdiff : -(value p c a - baseline) * (large + small) = c * large := by
      rw [neg_mul, sub_mul, hbaseline, value_of_false p h]
      ring
    have hneg : value p c a - baseline < 0 ↔ 0 < large := by
      rw [← neg_pos, ← mul_pos_iff_of_pos_right htotal, hdiff, mul_pos_iff_of_pos_left hc]
    have hnonpos : 0 ≤ -(value p c a - baseline) := by
      rw [← mul_nonneg_iff_of_pos_right htotal, hdiff, hlarge]
      exact mul_nonneg hc.le (sum_nonneg (hfilter _))
    simp [hneg, (neg_nonneg.mp hnonpos).not_gt]

end Ordered

end ProRLAgent.WeightedMean
