import Mathlib.Algebra.Field.Basic
import Mathlib.Algebra.Field.Rat
import Mathlib.Data.Finset.Powerset

set_option relaxedAutoImplicit false
set_option autoImplicit false

/-!
# Subsets of one size

The part of the subsets of `k` elements that have an element with a property.

## Main definitions

* `Subsets.hitFraction` — the part of the subsets that have an element with a property.

## Main results

* `Subsets.hitFraction_eq` — it is known by two binomial coefficients.
-/

namespace Subsets

variable {α : Type*} (s : Finset α) (p : α → Prop) [DecidablePred p]

/-- The part of the subsets of `k` elements that have an element with the property. -/
def hitFraction (k : ℕ) : ℚ :=
  ((s.powersetCard k).filter fun t => ∃ a ∈ t, p a).card / (s.powersetCard k).card

/-- The subsets without such an element are those of the other elements. -/
lemma filter_powersetCard_forall_not (k : ℕ) :
    ((s.powersetCard k).filter fun t => ¬ ∃ a ∈ t, p a) =
      (s.filter fun a => ¬ p a).powersetCard k := by
  ext t
  simp only [Finset.mem_filter, Finset.mem_powersetCard, Finset.subset_iff, not_exists, not_and]
  constructor
  · rintro ⟨⟨hsub, hcard⟩, hnot⟩
    exact ⟨fun a ha => ⟨hsub ha, hnot a ha⟩, hcard⟩
  · rintro ⟨hsub, hcard⟩
    exact ⟨⟨fun a ha => (hsub ha).1, hcard⟩, fun a ha => (hsub ha).2⟩

/-- The number of subsets with such an element, and of those without. -/
lemma card_hit_add (k : ℕ) :
    ((s.powersetCard k).filter fun t => ∃ a ∈ t, p a).card +
      (s.card - (s.filter p).card).choose k = s.card.choose k := by
  have hrest : (s.filter fun a => ¬ p a).card = s.card - (s.filter p).card := by
    rw [← s.card_filter_add_card_filter_not p]
    omega
  rw [← hrest, ← Finset.card_powersetCard, ← filter_powersetCard_forall_not,
    Finset.card_filter_add_card_filter_not, Finset.card_powersetCard]

variable {s} {k : ℕ}

/-- **The part of the subsets that hit**, if there are any subsets. -/
theorem hitFraction_eq (hk : k ≤ s.card) :
    hitFraction s p k = 1 - ((s.card - (s.filter p).card).choose k : ℚ) / s.card.choose k := by
  have hpos : ((s.card.choose k : ℕ) : ℚ) ≠ 0 := Nat.cast_ne_zero.mpr (Nat.choose_pos hk).ne'
  have hsum : ((((s.powersetCard k).filter fun t => ∃ a ∈ t, p a).card : ℕ) : ℚ) +
      ((s.card - (s.filter p).card).choose k : ℕ) = (s.card.choose k : ℕ) :=
    mod_cast card_hit_add s p k
  rw [hitFraction, Finset.card_powersetCard, eq_sub_iff_add_eq, ← add_div, hsum, div_self hpos]

end Subsets
