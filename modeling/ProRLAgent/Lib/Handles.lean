import Mathlib.Logic.Function.Basic
import Mathlib.Data.List.Nodup
import Mathlib.Tactic.Common

set_option relaxedAutoImplicit false
set_option autoImplicit false

/-!
# Handles that are closed once

Makers produce handles for owners; each owner has one slot for its handle. Several closers empty a
slot in three accesses: they check it, close the handle that it holds at that moment, and clear it.
One closer of an owner, its last one, does not clear the slot. Nothing guards the accesses, so a
handle can be closed twice, and a handle that is put into a slot too late is never closed.

A `Book` is what the argument needs to know about such a system. The rules say under which guards
the accesses keep the account `Balanced`: no handle is closed twice, and a handle that is not
closed is in the hands of its maker or in its slot.

## Main definitions

* `Handles.Book` — the account of the handles.
* `Handles.Balanced` — the invariant.
* `Handles.Quiet`, `Handles.Makes`, `Handles.Assigns`, `Handles.Closes`, `Handles.Clears` — the
  accesses.

## Main results

* `Handles.Balanced.quiet`, `Handles.Balanced.makes`, `Handles.Balanced.assigns`,
  `Handles.Balanced.closes`, `Handles.Balanced.clears` — the rules.
* `Handles.Balanced.count_eq_one` — the handles of an owner that is through are closed exactly
  once.
-/

namespace Handles

variable {ι κ : Type*}

/-- The account of the handles of the owners `ι`, which the makers `κ` produce. -/
structure Book (ι κ : Type*) where
  /-- Entry `x` is the owner that handle `x` was made for. -/
  made : List ι
  closed : List ℕ
  slot : ι → Option ℕ
  /-- The handle that a maker has produced and not yet put into its slot. -/
  hand : κ → Option (ι × ℕ)
  /-- Some closer of the owner stands between the close and the clearing of the slot. -/
  clearing : ι → Prop
  /-- The last closer of the owner has gone by, or will never come. -/
  past : ι → Prop
  /-- The last closer of the owner has gone by. -/
  settled : ι → Prop

/-- **The account is balanced.** -/
structure Balanced (b : Book ι κ) : Prop where
  once : b.closed.Nodup
  closedMade : ∀ x ∈ b.closed, x < b.made.length
  slotMade : ∀ i x, b.slot i = some x → b.made[x]? = some i
  handMade : ∀ w i x, b.hand w = some (i, x) → b.made[x]? = some i
  handOpen : ∀ w i x, b.hand w = some (i, x) → x ∉ b.closed ∧ b.slot i ≠ some x
  handUnique : ∀ w w' i x, b.hand w = some (i, x) → b.hand w' = some (i, x) → w = w'
  /-- No handle is lost. -/
  kept : ∀ i x, b.made[x]? = some i → x ∉ b.closed →
    (∃ w, b.hand w = some (i, x)) ∨ b.slot i = some x
  /-- Why a slot can hold a handle that is closed. -/
  stale : ∀ i x, b.slot i = some x → x ∈ b.closed → b.clearing i ∨ b.past i
  clearing : ∀ i x, b.slot i = some x → b.clearing i → x ∈ b.closed
  settled : ∀ i x, b.slot i = some x → b.settled i → x ∈ b.closed

/-- **Exactly once**: a handle is closed once when its owner is through and no maker has a handle
of the owner in hand. -/
theorem Balanced.count_eq_one {b : Book ι κ} (h : Balanced b) {i : ι} {x : ℕ}
    (hx : b.made[x]? = some i) (hsettled : b.settled i) (hhand : ∀ w y, b.hand w ≠ some (i, y)) :
    b.closed.count x = 1 := by
  apply List.count_eq_one_of_mem h.once
  by_contra hopen
  rcases h.kept i x hx hopen with ⟨w, hw⟩ | hslot
  · exact hhand w x hw
  · exact hopen (h.settled i x hslot hsettled)

/-! ## The accesses -/

/-- A step that leaves the handles alone. The last closer may go by a slot that is empty. -/
structure Quiet (b b' : Book ι κ) : Prop where
  made : b'.made = b.made
  closed : b'.closed = b.closed
  slot : b'.slot = b.slot
  hand : b'.hand = b.hand
  clearing : ∀ i, b'.clearing i ↔ b.clearing i
  past : ∀ i, b.past i → b'.past i
  settled : ∀ i, b'.settled i → b.settled i ∨ b.slot i = none

/-- Maker `w` produces a handle for the owner `i`. -/
structure Makes [DecidableEq κ] (w : κ) (i : ι) (b b' : Book ι κ) : Prop where
  made : b'.made = b.made ++ [i]
  closed : b'.closed = b.closed
  slot : b'.slot = b.slot
  hand : b'.hand = Function.update b.hand w (some (i, b.made.length))
  clearing : ∀ k, b'.clearing k ↔ b.clearing k
  past : ∀ k, b'.past k ↔ b.past k
  settled : ∀ k, b'.settled k ↔ b.settled k

/-- Maker `w` puts its handle `x` into the slot of the owner `i`. -/
structure Assigns [DecidableEq ι] [DecidableEq κ] (w : κ) (i : ι) (x : ℕ) (b b' : Book ι κ) :
    Prop where
  inHand : b.hand w = some (i, x)
  made : b'.made = b.made
  closed : b'.closed = b.closed
  slot : b'.slot = Function.update b.slot i (some x)
  hand : b'.hand = Function.update b.hand w none
  clearing : ∀ k, b'.clearing k ↔ b.clearing k
  past : ∀ k, b'.past k ↔ b.past k
  settled : ∀ k, b'.settled k ↔ b.settled k

/-- A closer of the owner `i` closes what the slot holds. It will clear the slot, or it is the last
one. -/
structure Closes (i : ι) (b b' : Book ι κ) : Prop where
  made : b'.made = b.made
  closed : b'.closed = b.closed ++ (b.slot i).toList
  slot : b'.slot = b.slot
  hand : b'.hand = b.hand
  clearing : ∀ k, b.clearing k → b'.clearing k
  clearing' : ∀ k, b'.clearing k → b.clearing k ∨ k = i
  past : ∀ k, b.past k → b'.past k
  settled : ∀ k, b'.settled k → b.settled k ∨ k = i
  reason : b'.clearing i ∨ b'.past i

/-- A closer of the owner `i` clears the slot. -/
structure Clears [DecidableEq ι] (i : ι) (b b' : Book ι κ) : Prop where
  before : b.clearing i
  made : b'.made = b.made
  closed : b'.closed = b.closed
  slot : b'.slot = Function.update b.slot i none
  hand : b'.hand = b.hand
  clearing : ∀ k, k ≠ i → (b'.clearing k ↔ b.clearing k)
  past : ∀ k, b'.past k ↔ b.past k
  settled : ∀ k, b'.settled k ↔ b.settled k

/-! ## The rules -/

variable {b b' : Book ι κ}

/-- A quiet step keeps the balance. -/
theorem Balanced.quiet (h : Balanced b) (hq : Quiet b b') : Balanced b' where
  once := hq.closed ▸ h.once
  closedMade := hq.closed ▸ hq.made ▸ h.closedMade
  slotMade := hq.slot ▸ hq.made ▸ h.slotMade
  handMade := hq.hand ▸ hq.made ▸ h.handMade
  handOpen := hq.hand ▸ hq.closed ▸ hq.slot ▸ h.handOpen
  handUnique := hq.hand ▸ h.handUnique
  kept := hq.hand ▸ hq.made ▸ hq.closed ▸ hq.slot ▸ h.kept
  stale i x hx hc := by
    rw [hq.slot] at hx
    rw [hq.closed] at hc
    exact (h.stale i x hx hc).imp (hq.clearing i).mpr (hq.past i)
  clearing i x hx hc := by
    rw [hq.slot] at hx
    rw [hq.closed]
    exact h.clearing i x hx ((hq.clearing i).mp hc)
  settled i x hx hs := by
    rw [hq.slot] at hx
    rw [hq.closed]
    rcases hq.settled i hs with hs | hnone
    · exact h.settled i x hx hs
    · rw [hnone] at hx
      cases hx

/-- A new handle is in the hands of its maker, which had none. -/
theorem Balanced.makes [DecidableEq κ] {w : κ} {i : ι} (h : Balanced b) (hfree : b.hand w = none)
    (hm : Makes w i b b') : Balanced b' := by
  have hold : ∀ {k : ι} {x : ℕ}, b.made[x]? = some k → b'.made[x]? = some k := by
    intro k x hx
    rw [hm.made, List.getElem?_append_left (List.getElem?_eq_some_iff.mp hx).1]
    exact hx
  have hlt : ∀ {k : ι} {x : ℕ}, b.made[x]? = some k → x ≠ b.made.length := by
    intro k x hx
    have := (List.getElem?_eq_some_iff.mp hx).1
    omega
  -- A hand holds the new handle, or what it held before.
  have hhand : ∀ {v : κ} {k : ι} {x : ℕ}, b'.hand v = some (k, x) →
      (v = w ∧ k = i ∧ x = b.made.length) ∨ (v ≠ w ∧ b.hand v = some (k, x)) := by
    intro v k x hv
    rw [hm.hand] at hv
    by_cases hvw : v = w
    · subst hvw
      simp only [Function.update_self, Option.some.injEq, Prod.mk.injEq] at hv
      exact .inl ⟨rfl, hv.1.symm, hv.2.symm⟩
    · exact .inr ⟨hvw, by simpa [Function.update_of_ne hvw] using hv⟩
  exact {
    once := hm.closed ▸ h.once
    closedMade := fun x hx => by
      rw [hm.closed] at hx
      have := h.closedMade x hx
      rw [hm.made, List.length_append]
      omega
    slotMade := fun k x hx => hold (h.slotMade k x (hm.slot ▸ hx))
    handMade := fun v k x hv => by
      rcases hhand hv with ⟨-, rfl, rfl⟩ | ⟨-, hv⟩
      · simp [hm.made]
      · exact hold (h.handMade v k x hv)
    handOpen := fun v k x hv => by
      rw [hm.closed, hm.slot]
      rcases hhand hv with ⟨-, rfl, rfl⟩ | ⟨-, hv⟩
      · refine ⟨fun hx => ?_, fun hx => hlt (h.slotMade k _ hx) rfl⟩
        have := h.closedMade _ hx
        omega
      · exact h.handOpen v k x hv
    handUnique := fun v v' k x hv hv' => by
      rcases hhand hv with ⟨rfl, -, rfl⟩ | ⟨-, hv⟩ <;>
        rcases hhand hv' with ⟨rfl, -, hx⟩ | ⟨-, hv'⟩
      · rfl
      · exact absurd rfl (hlt (h.handMade v' k _ hv'))
      · exact absurd hx (hlt (h.handMade v k x hv))
      · exact h.handUnique v v' k x hv hv'
    kept := fun k x hx hopen => by
      rw [hm.made] at hx
      rw [hm.closed] at hopen
      rw [hm.slot, hm.hand]
      by_cases hlen : x < b.made.length
      · rw [List.getElem?_append_left hlen] at hx
        rcases h.kept k x hx hopen with ⟨v, hv⟩ | hslot
        · have hvw : v ≠ w := by
            rintro rfl
            rw [hfree] at hv
            cases hv
          exact .inl ⟨v, by simpa [Function.update_of_ne hvw] using hv⟩
        · exact .inr hslot
      · obtain ⟨hxl, rfl⟩ : x = b.made.length ∧ i = k := by
          rw [List.getElem?_append_right (by omega), List.getElem?_singleton] at hx
          split at hx
          · exact ⟨by omega, Option.some.inj hx⟩
          · cases hx
        exact .inl ⟨w, by simp [hxl]⟩
    stale := fun k x hx hc => by
      rw [hm.slot] at hx
      rw [hm.closed] at hc
      exact (h.stale k x hx hc).imp (hm.clearing k).mpr (hm.past k).mpr
    clearing := fun k x hx hc => by
      rw [hm.slot] at hx
      rw [hm.closed]
      exact h.clearing k x hx ((hm.clearing k).mp hc)
    settled := fun k x hx hs => by
      rw [hm.slot] at hx
      rw [hm.closed]
      exact h.settled k x hx ((hm.settled k).mp hs) }

/-- A handle that is put into an empty slot is closed later, if no closer is about to clear the
slot and the last closer has not gone by. -/
theorem Balanced.assigns [DecidableEq ι] [DecidableEq κ] {w : κ} {i : ι} {x : ℕ} (h : Balanced b)
    (hempty : b.slot i = none) (hclear : ¬ b.clearing i) (hsettled : ¬ b.settled i)
    (ha : Assigns w i x b b') : Balanced b' := by
  obtain ⟨hopen, -⟩ := h.handOpen w i x ha.inHand
  -- A slot holds the handle, or what it held before.
  have hslot : ∀ {k : ι} {y : ℕ}, b'.slot k = some y →
      (k = i ∧ y = x) ∨ (k ≠ i ∧ b.slot k = some y) := by
    intro k y hk
    rw [ha.slot] at hk
    by_cases hki : k = i
    · subst hki
      simp only [Function.update_self, Option.some.injEq] at hk
      exact .inl ⟨rfl, hk.symm⟩
    · exact .inr ⟨hki, by simpa [Function.update_of_ne hki] using hk⟩
  have hhand : ∀ {v : κ} {p : ι × ℕ}, b'.hand v = some p → v ≠ w ∧ b.hand v = some p := by
    intro v p hv
    rw [ha.hand] at hv
    by_cases hvw : v = w
    · subst hvw
      simp at hv
    · exact ⟨hvw, by simpa [Function.update_of_ne hvw] using hv⟩
  exact {
    once := ha.closed ▸ h.once
    closedMade := ha.closed ▸ ha.made ▸ h.closedMade
    slotMade := fun k y hk => by
      rw [ha.made]
      rcases hslot hk with ⟨rfl, rfl⟩ | ⟨-, hk⟩
      · exact h.handMade w k y ha.inHand
      · exact h.slotMade k y hk
    handMade := fun v k y hv => by
      rw [ha.made]
      exact h.handMade v k y (hhand hv).2
    handOpen := fun v k y hv => by
      obtain ⟨hvw, hv⟩ := hhand hv
      refine ⟨ha.closed ▸ (h.handOpen v k y hv).1, fun hk => ?_⟩
      rcases hslot hk with ⟨rfl, rfl⟩ | ⟨-, hk⟩
      · exact hvw (h.handUnique v w k y hv ha.inHand)
      · exact (h.handOpen v k y hv).2 hk
    handUnique := fun v v' k y hv hv' => h.handUnique v v' k y (hhand hv).2 (hhand hv').2
    kept := fun k y hy hyo => by
      rw [ha.made] at hy
      rw [ha.closed] at hyo
      rw [ha.slot, ha.hand]
      rcases h.kept k y hy hyo with ⟨v, hv⟩ | hk
      · by_cases hvw : v = w
        · subst hvw
          obtain ⟨rfl, rfl⟩ : k = i ∧ y = x := by simpa using hv.symm.trans ha.inHand
          exact .inr (by simp)
        · exact .inl ⟨v, by simpa [Function.update_of_ne hvw] using hv⟩
      · have hki : k ≠ i := by
          rintro rfl
          rw [hempty] at hk
          cases hk
        exact .inr (by simpa [Function.update_of_ne hki] using hk)
    stale := fun k y hk hy => by
      rw [ha.closed] at hy
      rcases hslot hk with ⟨rfl, rfl⟩ | ⟨-, hk⟩
      · exact absurd hy hopen
      · exact (h.stale k y hk hy).imp (ha.clearing k).mpr (ha.past k).mpr
    clearing := fun k y hk hc => by
      rw [ha.closed]
      have hc := (ha.clearing k).mp hc
      rcases hslot hk with ⟨rfl, -⟩ | ⟨-, hk⟩
      · exact absurd hc hclear
      · exact h.clearing k y hk hc
    settled := fun k y hk hs => by
      rw [ha.closed]
      have hs := (ha.settled k).mp hs
      rcases hslot hk with ⟨rfl, -⟩ | ⟨-, hk⟩
      · exact absurd hs hsettled
      · exact h.settled k y hk hs }

/-- A close is the first one of its handle, if no other closer of the owner is about to clear the
slot and the last closer has not gone by. -/
theorem Balanced.closes {i : ι} (h : Balanced b)
    (hguard : b.slot i ≠ none → ¬ b.clearing i ∧ ¬ b.past i) (hc : Closes i b b') :
    Balanced b' := by
  have hfresh : ∀ {x : ℕ}, b.slot i = some x → x ∉ b.closed := by
    intro x hx hmem
    obtain ⟨hclear, hpast⟩ := hguard (by simp [hx])
    exact (h.stale i x hx hmem).elim hclear hpast
  have hmem : ∀ {x : ℕ}, x ∈ b'.closed ↔ x ∈ b.closed ∨ b.slot i = some x := by
    intro x
    rw [hc.closed, List.mem_append, Option.mem_toList]
  exact {
    once := by
      rw [hc.closed]
      cases hx : b.slot i with
      | none => simpa using h.once
      | some x => simpa [List.nodup_append] using ⟨h.once, fun y hy => by
          rintro rfl
          exact hfresh hx hy⟩
    closedMade := fun x hx => by
      rw [hc.made]
      rcases hmem.mp hx with hx | hx
      · exact h.closedMade x hx
      · exact (List.getElem?_eq_some_iff.mp (h.slotMade i x hx)).1
    slotMade := hc.slot ▸ hc.made ▸ h.slotMade
    handMade := hc.hand ▸ hc.made ▸ h.handMade
    handOpen := fun w k x hw => by
      rw [hc.hand] at hw
      rw [hc.slot]
      obtain ⟨hopen, hslot⟩ := h.handOpen w k x hw
      refine ⟨fun hx => ?_, hslot⟩
      rcases hmem.mp hx with hx | hx
      · exact hopen hx
      · -- The handle has one owner.
        have hki := (h.slotMade i x hx).symm.trans (h.handMade w k x hw)
        obtain rfl := Option.some.inj hki
        exact hslot hx
    handUnique := hc.hand ▸ h.handUnique
    kept := fun k x hx hopen => by
      rw [hc.made] at hx
      rw [hc.hand, hc.slot]
      exact h.kept k x hx fun hmem' => hopen (hmem.mpr (.inl hmem'))
    stale := fun k x hx hxc => by
      rw [hc.slot] at hx
      rcases hmem.mp hxc with hxc | hxi
      · exact (h.stale k x hx hxc).imp (hc.clearing k) (hc.past k)
      · have hki := (h.slotMade k x hx).symm.trans (h.slotMade i x hxi)
        obtain rfl := Option.some.inj hki
        exact hc.reason
    clearing := fun k x hx hcl => by
      rw [hc.slot] at hx
      rcases hc.clearing' k hcl with hcl | rfl
      · exact hmem.mpr (.inl (h.clearing k x hx hcl))
      · exact hmem.mpr (.inr hx)
    settled := fun k x hx hs => by
      rw [hc.slot] at hx
      rcases hc.settled k hs with hs | rfl
      · exact hmem.mpr (.inl (h.settled k x hx hs))
      · exact hmem.mpr (.inr hx) }

/-- A closer that clears the slot has closed what is in it. -/
theorem Balanced.clears [DecidableEq ι] {i : ι} (h : Balanced b) (hc : Clears i b b') :
    Balanced b' := by
  have hslot : ∀ {k : ι} {x : ℕ}, b'.slot k = some x → k ≠ i ∧ b.slot k = some x := by
    intro k x hk
    rw [hc.slot] at hk
    by_cases hki : k = i
    · subst hki
      simp at hk
    · exact ⟨hki, by simpa [Function.update_of_ne hki] using hk⟩
  exact {
    once := hc.closed ▸ h.once
    closedMade := hc.closed ▸ hc.made ▸ h.closedMade
    slotMade := fun k x hk => by
      rw [hc.made]
      exact h.slotMade k x (hslot hk).2
    handMade := hc.hand ▸ hc.made ▸ h.handMade
    handOpen := fun w k x hw => by
      rw [hc.hand] at hw
      exact ⟨hc.closed ▸ (h.handOpen w k x hw).1, fun hk => (h.handOpen w k x hw).2 (hslot hk).2⟩
    handUnique := hc.hand ▸ h.handUnique
    kept := fun k x hx hopen => by
      rw [hc.made] at hx
      rw [hc.closed] at hopen
      rw [hc.hand, hc.slot]
      rcases h.kept k x hx hopen with hw | hk
      · exact .inl hw
      · have hki : k ≠ i := by
          rintro rfl
          exact hopen (h.clearing k x hk hc.before)
        exact .inr (by simpa [Function.update_of_ne hki] using hk)
    stale := fun k x hk hx => by
      obtain ⟨hki, hk⟩ := hslot hk
      rw [hc.closed] at hx
      exact (h.stale k x hk hx).imp (hc.clearing k hki).mpr (hc.past k).mpr
    clearing := fun k x hk hcl => by
      obtain ⟨hki, hk⟩ := hslot hk
      rw [hc.closed]
      exact h.clearing k x hk ((hc.clearing k hki).mp hcl)
    settled := fun k x hk hs => by
      obtain ⟨-, hk⟩ := hslot hk
      rw [hc.closed]
      exact h.settled k x hk ((hc.settled k).mp hs) }

end Handles
