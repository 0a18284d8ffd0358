import Mathlib.Algebra.Order.Field.Rat
import Mathlib.Algebra.Order.Field.Basic

set_option relaxedAutoImplicit false
set_option autoImplicit false

/-!
# Floating-point numbers without rounding

The results of floating-point operations, with exact rationals for the finite numbers: a division by
zero does not fail, it gives a NaN or an infinity, and every comparison with a NaN is false. Zeros
have no sign here, so the divisor zero stands for the positive one.

## Main definitions

* `ExactFloat` — a finite number, a NaN or an infinity.
* `ExactFloat.div`, `ExactFloat.subFrom`, `ExactFloat.scale` — operations with exact numbers.
* `ExactFloat.minWith` — the smaller one of an exact number and another one.
* `ExactFloat.interpolate` — the weight of a point between two ends.

## Main results

* `ExactFloat.interpolate_eq` — the weight is finite, even if the two ends are the same.
* `ExactFloat.weight_nonneg`, `ExactFloat.weight_le_one`, `ExactFloat.weight_antitone` — the weight
  lies between zero and one and falls.
-/

/-- The result of a floating-point operation. -/
inductive ExactFloat where
  | finite (q : ℚ)
  | nan
  | infinity (negative : Bool)
  deriving DecidableEq, Repr

namespace ExactFloat

/-- The quotient of two exact numbers. -/
def div (a b : ℚ) : ExactFloat :=
  if b ≠ 0 then finite (a / b) else if a = 0 then nan else infinity (decide (a < 0))

/-- The difference `a - x`. -/
def subFrom (a : ℚ) : ExactFloat → ExactFloat
  | finite q => finite (a - q)
  | nan => nan
  | infinity negative => infinity (!negative)

/-- The comparison `x < a`. -/
def lt : ExactFloat → ℚ → Bool
  | finite q, a => decide (q < a)
  | nan, _ => false
  | infinity negative, _ => negative

/-- The product `a * x`. -/
def scale (a : ℚ) : ExactFloat → ExactFloat
  | finite q => finite (a * q)
  | nan => nan
  | infinity negative => if a = 0 then nan else infinity (xor negative (decide (a < 0)))

/-- Python's `min(a, x)`: the second one only if it is smaller. -/
def minWith (a : ℚ) (x : ExactFloat) : ExactFloat := if x.lt a then x else finite a

@[simp] lemma scale_finite (a q : ℚ) : scale a (finite q) = finite (a * q) := rfl

/-- Exact numbers have their minimum. -/
lemma minWith_finite (a q : ℚ) : minWith a (finite q) = finite (min a q) := by
  rw [minWith, lt]
  by_cases h : q < a
  · rw [if_pos (by simpa using h), min_eq_right h.le]
  · rw [if_neg (by simpa using h), min_eq_left (not_lt.mp h)]

/-! ## Linear weights -/

/-- `min(1.0, 1.0 - (x - low) / (high - low))`. -/
def interpolate (low high x : ℚ) : ExactFloat := minWith 1 (subFrom 1 (div (x - low) (high - low)))

/-- The weight of a point: one up to the low end, zero at the high one. -/
def weight (low high x : ℚ) : ℚ := if high = low then 1 else min 1 (1 - (x - low) / (high - low))

variable {low high x : ℚ}

/-- **The weight is finite**, even if the two ends are the same. -/
theorem interpolate_eq (hx : x ≤ high) : interpolate low high x = finite (weight low high x) := by
  rw [interpolate, weight]
  by_cases hends : high = low
  · subst hends
    rw [if_pos rfl, div, if_neg (by simp)]
    -- Nothing is smaller than one: the quotient is a NaN or minus infinity.
    split_ifs with hzero
    · rfl
    · have hneg : x - high < 0 := lt_of_le_of_ne (sub_nonpos.mpr hx) hzero
      rw [decide_eq_true hneg]
      rfl
  · rw [if_neg hends, div, if_pos (sub_ne_zero.mpr hends), subFrom, minWith_finite]

/-- The weight is at most one. -/
lemma weight_le_one : weight low high x ≤ 1 := by
  rw [weight]
  split_ifs
  · exact le_rfl
  · exact min_le_left _ _

/-- The weight is not negative. -/
lemma weight_nonneg (hends : low ≤ high) (hx : x ≤ high) : 0 ≤ weight low high x := by
  rw [weight]
  split_ifs with h
  · exact zero_le_one
  · have hpos : 0 < high - low := sub_pos.mpr (lt_of_le_of_ne hends fun heq => h heq.symm)
    refine le_min zero_le_one (sub_nonneg.mpr ((div_le_one hpos).mpr ?_))
    exact sub_le_sub_right hx low

/-- The weight is one at the low end. -/
lemma weight_low : weight low high low = 1 := by simp [weight]

/-- **The weight falls.** -/
theorem weight_antitone (hends : low ≤ high) {y : ℚ} (hxy : x ≤ y) :
    weight low high y ≤ weight low high x := by
  rw [weight, weight]
  split_ifs with h
  · exact le_rfl
  · have hpos : 0 < high - low := sub_pos.mpr (lt_of_le_of_ne hends fun heq => h heq.symm)
    refine min_le_min le_rfl (sub_le_sub_left ?_ 1)
    exact (div_le_div_iff_of_pos_right hpos).mpr (sub_le_sub_right hxy low)

end ExactFloat
