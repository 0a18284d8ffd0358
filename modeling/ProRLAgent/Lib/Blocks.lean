import Mathlib.Algebra.GroupWithZero.Nat
import Mathlib.Algebra.Order.BigOperators.Group.List
import Mathlib.Algebra.Order.Group.Nat
import Mathlib.Data.List.Basic

set_option relaxedAutoImplicit false
set_option autoImplicit false

/-!
# Lists made of blocks

A list that is put together from one block for each element of another list. If no block is longer
than `n` and the whole is as long as blocks of `n` would make it, all blocks have length `n`, and
position `k` is position `k % n` of block `k / n`.

The even shares of a list for `m` takers are consecutive pieces, the first ones longer by one
element if the length is not a multiple of `m`.

## Main definitions

* `Blocks.share` — the even share of a taker.

## Main results

* `Blocks.length_eq_of_length_flatMap` — a full count leaves no short block.
* `Blocks.getElem?_flatMap` — the positions in equal blocks.
* `Blocks.exists_mem_share`, `Blocks.share_unique` — every element is in one share.
-/

namespace Blocks

variable {α β : Type*}

/-- **A full count**: blocks of length at most `n` whose total is that of blocks of length `n` all
have length `n`. -/
theorem length_eq_of_length_flatMap {f : α → List β} {n : ℕ} {l : List α}
    (hle : ∀ a ∈ l, (f a).length ≤ n) (htotal : (l.flatMap f).length = n * l.length) :
    ∀ a ∈ l, (f a).length = n := by
  induction l with
  | nil => simp
  | cons a l ih =>
    obtain ⟨ha, hl⟩ := List.forall_mem_cons.mp hle
    have hrest : (l.flatMap f).length ≤ n * l.length := by
      rw [List.length_flatMap, mul_comm]
      refine (List.sum_le_card_nsmul _ n ?_).trans_eq (by simp)
      intro m hm
      obtain ⟨b, hb, rfl⟩ := List.mem_map.mp hm
      exact hl b hb
    rw [List.flatMap_cons, List.length_append, List.length_cons, Nat.mul_succ] at htotal
    exact List.forall_mem_cons.mpr ⟨by omega, ih hl (by omega)⟩

/-- **Positions in equal blocks.** -/
theorem getElem?_flatMap {f : α → List β} {n : ℕ} {l : List α} (hn : ∀ a ∈ l, (f a).length = n)
    (hpos : 0 < n) (k : ℕ) :
    (l.flatMap f)[k]? = l[k / n]?.bind fun a => (f a)[k % n]? := by
  induction l generalizing k with
  | nil => simp
  | cons a l ih =>
    obtain ⟨ha, hl⟩ := List.forall_mem_cons.mp hn
    rw [List.flatMap_cons]
    by_cases hk : k < n
    · rw [List.getElem?_append_left (by omega), Nat.div_eq_of_lt hk, Nat.mod_eq_of_lt hk]
      rfl
    · obtain ⟨j, rfl⟩ : ∃ j, k = j + n := ⟨k - n, by omega⟩
      rw [List.getElem?_append_right (by omega), ha, Nat.add_sub_cancel, ih hl,
        Nat.add_div_right j hpos, Nat.add_mod_right]
      rfl

/-! ## Even shares -/

/-- The length of share `i` of `n` elements for `m` takers. -/
def shareSize (n m i : ℕ) : ℕ := n / m + if i < n % m then 1 else 0

/-- The number of elements in the shares before share `i`. -/
def shareStart (n m i : ℕ) : ℕ := i * (n / m) + min i (n % m)

/-- Share `i` of a list for `m` takers. -/
def share (l : List α) (m i : ℕ) : List α :=
  (l.drop (shareStart l.length m i)).take (shareSize l.length m i)

lemma shareStart_succ (n m i : ℕ) :
    shareStart n m (i + 1) = shareStart n m i + shareSize n m i := by
  rw [shareStart, shareStart, shareSize, Nat.succ_mul]
  split_ifs with h <;> omega

/-- All shares together have all elements. -/
lemma shareStart_self {m : ℕ} (hm : 0 < m) (n : ℕ) : shareStart n m m = n := by
  have hmod := Nat.mod_lt n hm
  have hdiv := Nat.div_add_mod n m
  rw [shareStart, Nat.min_eq_right hmod.le]
  exact hdiv

lemma shareStart_mono (n m : ℕ) : Monotone (shareStart n m) :=
  monotone_nat_of_le_succ fun i => by
    rw [shareStart_succ]
    exact Nat.le_add_right _ _

/-- The positions of a share. -/
lemma mem_share_iff {l : List α} {m i : ℕ} {a : α} :
    a ∈ share l m i ↔ ∃ p, l[p]? = some a ∧ shareStart l.length m i ≤ p ∧
      p < shareStart l.length m (i + 1) := by
  rw [share, List.mem_iff_getElem?, shareStart_succ]
  constructor
  · rintro ⟨p, hp⟩
    rw [List.getElem?_take] at hp
    split_ifs at hp with hlt
    rw [List.getElem?_drop] at hp
    exact ⟨_, hp, Nat.le_add_right _ _, by omega⟩
  · rintro ⟨p, hp, hle, hlt⟩
    refine ⟨p - shareStart l.length m i, ?_⟩
    rw [List.getElem?_take, if_pos (by omega), List.getElem?_drop, Nat.add_sub_cancel' hle, hp]

/-- **Every element is in a share.** -/
theorem exists_mem_share {l : List α} {m : ℕ} (hm : 0 < m) {a : α} (ha : a ∈ l) :
    ∃ i < m, a ∈ share l m i := by
  obtain ⟨p, hp⟩ := List.mem_iff_getElem?.mp ha
  have hlt : p < shareStart l.length m m := by
    rw [shareStart_self hm]
    exact (List.getElem?_eq_some_iff.mp hp).1
  -- The last share that starts at the position or before it.
  have hfind : ∀ n, p < shareStart l.length m n → ∃ i < n, shareStart l.length m i ≤ p ∧
      p < shareStart l.length m (i + 1) := by
    intro n
    induction n with
    | zero => simp [shareStart]
    | succ n ih =>
      intro hn
      by_cases hle : shareStart l.length m n ≤ p
      · exact ⟨n, by omega, hle, hn⟩
      · obtain ⟨i, hi, hbounds⟩ := ih (by omega)
        exact ⟨i, by omega, hbounds⟩
  obtain ⟨i, hi, hbounds⟩ := hfind m hlt
  exact ⟨i, hi, mem_share_iff.2 ⟨p, hp, hbounds⟩⟩

/-- **In one share only**, if the list has no duplicates. -/
theorem share_unique {l : List α} (hl : l.Nodup) {m i j : ℕ} {a : α} (hi : a ∈ share l m i)
    (hj : a ∈ share l m j) : i = j := by
  obtain ⟨p, hp, hpi, hpi'⟩ := mem_share_iff.1 hi
  obtain ⟨q, hq, hqj, hqj'⟩ := mem_share_iff.1 hj
  obtain rfl : p = q :=
    (List.getElem?_inj (List.getElem?_eq_some_iff.mp hp).1 hl).mp (hp.trans hq.symm)
  rcases lt_trichotomy i j with hlt | rfl | hlt
  · have := shareStart_mono l.length m (show i + 1 ≤ j by omega)
    omega
  · rfl
  · have := shareStart_mono l.length m (show j + 1 ≤ i by omega)
    omega

/-- A share of a list without duplicates has none. -/
lemma nodup_share {l : List α} (hl : l.Nodup) (m i : ℕ) : (share l m i).Nodup :=
  hl.sublist ((List.take_sublist _ _).trans (List.drop_sublist _ _))

/-- The elements of a share are elements of the list. -/
lemma mem_of_mem_share {l : List α} {m i : ℕ} {a : α} (h : a ∈ share l m i) : a ∈ l := by
  obtain ⟨p, hp, -⟩ := mem_share_iff.1 h
  exact List.mem_of_getElem? hp

end Blocks
