import Mathlib.Data.List.Basic
import Mathlib.Data.List.Perm.Basic

set_option relaxedAutoImplicit false
set_option autoImplicit false

/-!
# Binary heaps in lists

The operations of `heapq`: the children of position `p` are at `2 * p + 1` and `2 * p + 2`, an item
that is pushed moves towards the root while it is smaller than its parent, and an item that is put
at a position moves to a leaf below the smaller children and from there towards that position. The
item that is moved is swapped with its neighbour at every step, where `heapq` moves a hole.

The loops run with fuel: a path to the root has at most as many steps as its position, and a path to
a leaf at most as many as the list is long.

## Main definitions

* `Heapq.siftdown`, `Heapq.siftup` — the loops.
* `Heapq.heappush`, `Heapq.heapreplace`, `Heapq.heapify` — the operations.

* `Heapq.IsHeap` — every item is at most as large as its children.

## Main results

* `Heapq.heappush_perm`, `Heapq.heapreplace_perm`, `Heapq.heapify_perm` — what a heap holds after an
  operation.
* `Heapq.isHeap_heappush`, `Heapq.isHeap_heapreplace`, `Heapq.isHeap_heapify` — the operations keep
  or make a heap.
* `Heapq.IsHeap.root_le` — the first item of a heap is a smallest one.
-/

namespace Heapq

variable {α : Type*}

/-- The list with the items at two positions exchanged. -/
def swap (heap : List α) (i j : ℕ) : List α :=
  match heap[i]?, heap[j]? with
  | some a, some b => (heap.set i b).set j a
  | _, _ => heap

/-- `_siftdown`: the item at `pos` moves towards `startpos` while it is smaller than its parent. -/
def siftdown (lt : α → α → Bool) (startpos : ℕ) : ℕ → ℕ → List α → List α
  | 0, _, heap => heap
  | fuel + 1, pos, heap =>
    if startpos < pos then
      let parentpos := (pos - 1) / 2
      match heap[pos]?, heap[parentpos]? with
      | some newitem, some parent =>
        if lt newitem parent then siftdown lt startpos fuel parentpos (swap heap pos parentpos)
        else heap
      | _, _ => heap
    else heap

/-- The child that the item at `pos` moves to: the right one if it is there and the left one is not
smaller. -/
def smallerChild (lt : α → α → Bool) (heap : List α) (pos : ℕ) : ℕ :=
  match heap[2 * pos + 1]?, heap[2 * pos + 2]? with
  | some left, some right => if lt left right then 2 * pos + 1 else 2 * pos + 2
  | _, _ => 2 * pos + 1

/-- `_siftup`: the item at `pos` moves to a leaf, and from there towards `startpos`. -/
def siftup (lt : α → α → Bool) (startpos : ℕ) : ℕ → ℕ → List α → List α
  | 0, _, heap => heap
  | fuel + 1, pos, heap =>
    if 2 * pos + 1 < heap.length then
      let childpos := smallerChild lt heap pos
      siftup lt startpos fuel childpos (swap heap pos childpos)
    else siftdown lt startpos pos pos heap

def heappush (lt : α → α → Bool) (heap : List α) (item : α) : List α :=
  siftdown lt 0 heap.length heap.length (heap ++ [item])

/-- `heapreplace`, without the item that it returns. -/
def heapreplace (lt : α → α → Bool) (heap : List α) (item : α) : List α :=
  siftup lt 0 heap.length 0 (heap.set 0 item)

def heapify (lt : α → α → Bool) (heap : List α) : List α :=
  (List.range (heap.length / 2)).reverse.foldl (fun h i => siftup lt i h.length i h) heap

/-! ## What a heap holds -/

/-- An exchange keeps the items. -/
lemma swap_perm (heap : List α) (i j : ℕ) : (swap heap i j).Perm heap := by
  unfold swap
  split
  · rename_i a b ha hb
    obtain ⟨hi, rfl⟩ := List.getElem?_eq_some_iff.mp ha
    obtain ⟨hj, rfl⟩ := List.getElem?_eq_some_iff.mp hb
    exact List.set_set_perm hi hj
  · exact List.Perm.refl _

/-- The way to the root keeps the items. -/
lemma siftdown_perm (lt : α → α → Bool) (startpos fuel pos : ℕ) (heap : List α) :
    (siftdown lt startpos fuel pos heap).Perm heap := by
  induction fuel generalizing pos heap with
  | zero => exact List.Perm.refl _
  | succ fuel ih =>
    rw [siftdown]
    split
    · dsimp only
      split
      · split
        · exact (ih _ _).trans (swap_perm _ _ _)
        · exact List.Perm.refl _
      · exact List.Perm.refl _
    · exact List.Perm.refl _

/-- The way to a leaf and back keeps the items. -/
lemma siftup_perm (lt : α → α → Bool) (startpos fuel pos : ℕ) (heap : List α) :
    (siftup lt startpos fuel pos heap).Perm heap := by
  induction fuel generalizing pos heap with
  | zero => exact List.Perm.refl _
  | succ fuel ih =>
    rw [siftup]
    split
    · exact (ih _ _).trans (swap_perm _ _ _)
    · exact siftdown_perm _ _ _ _ _

/-- A push adds its item. -/
theorem heappush_perm (lt : α → α → Bool) (heap : List α) (item : α) :
    (heappush lt heap item).Perm (item :: heap) :=
  (siftdown_perm _ _ _ _ _).trans (List.perm_append_singleton _ _)

/-- A replacement exchanges the root. -/
theorem heapreplace_perm (lt : α → α → Bool) (a : α) (heap : List α) (item : α) :
    (heapreplace lt (a :: heap) item).Perm (item :: heap) :=
  siftup_perm _ _ _ _ _

/-- Making a heap of a list keeps its items. -/
theorem heapify_perm (lt : α → α → Bool) (heap : List α) : (heapify lt heap).Perm heap := by
  unfold heapify
  generalize (List.range (heap.length / 2)).reverse = positions
  induction positions generalizing heap with
  | nil => exact List.Perm.refl _
  | cons i positions ih => exact (ih _).trans (siftup_perm _ _ _ _ _)

/-! ## The order of a heap -/

/-- What the comparison is relied on for: it is a strict order, and incomparable items count as
equal. -/
structure Comparison (lt : α → α → Bool) : Prop where
  asymm : ∀ a b, lt a b = true → lt b a = false
  trans : ∀ a b c, lt b a = false → lt c b = false → lt c a = false

/-- If both items are there, the second is not smaller. -/
def LeAt (lt : α → α → Bool) (x y : Option α) : Prop :=
  ∀ a b, x = some a → y = some b → lt b a = false

/-- `j` is a child of `i`. -/
def IsChild (i j : ℕ) : Prop := j = 2 * i + 1 ∨ j = 2 * i + 2

/-- Every item from position `start` on is at most as large as its children. -/
def HeapFrom (lt : α → α → Bool) (start : ℕ) (heap : List α) : Prop :=
  ∀ i j, start ≤ i → IsChild i j → LeAt lt heap[i]? heap[j]?

/-- **A heap**: every item is at most as large as its children. -/
def IsHeap (lt : α → α → Bool) (heap : List α) : Prop := HeapFrom lt 0 heap

/-- The children of `pos` are not smaller than its parent. -/
def GrandLe (lt : α → α → Bool) (start pos : ℕ) (heap : List α) : Prop :=
  ∀ i j, start ≤ i → IsChild i pos → IsChild pos j → LeAt lt heap[i]? heap[j]?

/-- What the way up starts from: only the item at `pos` may be smaller than its parent. -/
structure UpOrder (lt : α → α → Bool) (start pos : ℕ) (heap : List α) : Prop where
  pairs : ∀ i j, start ≤ i → j ≠ pos → IsChild i j → LeAt lt heap[i]? heap[j]?
  grand : GrandLe lt start pos heap

/-- What the way down starts from: the item at `pos` may be out of order on both sides. -/
structure DownOrder (lt : α → α → Bool) (start pos : ℕ) (heap : List α) : Prop where
  pairs : ∀ i j, start ≤ i → i ≠ pos → j ≠ pos → IsChild i j → LeAt lt heap[i]? heap[j]?
  grand : GrandLe lt start pos heap

/-- The positions of the subtree below `start`. -/
inductive Descends (start : ℕ) : ℕ → Prop
  | root : Descends start start
  | child {i j : ℕ} (h : Descends start i) (hchild : IsChild i j) : Descends start j

lemma Descends.le {start pos : ℕ} (h : Descends start pos) : start ≤ pos := by
  induction h with
  | root => exact Nat.le_refl _
  | child _ hchild ih =>
    unfold IsChild at hchild
    omega

/-- Above a position of the subtree stands its parent, which is one too. -/
lemma Descends.parent {start pos : ℕ} (h : Descends start pos) (hlt : start < pos) :
    Descends start ((pos - 1) / 2) ∧ IsChild ((pos - 1) / 2) pos := by
  cases h with
  | root => omega
  | child h hchild =>
    rename_i i
    have hi : (pos - 1) / 2 = i := by
      unfold IsChild at hchild
      omega
    rw [hi]
    exact ⟨h, hchild⟩

/-- Every position is below the root. -/
lemma descends_zero (pos : ℕ) : Descends 0 pos := by
  induction pos using Nat.strongRecOn with
  | ind pos ih =>
    obtain rfl | hpos := Nat.eq_zero_or_pos pos
    · exact .root
    · refine .child (ih ((pos - 1) / 2) (by omega)) ?_
      unfold IsChild
      omega

/-- The items after an exchange of a parent and its child. -/
lemma getElem?_swap {heap : List α} {i j : ℕ} {a b : α} (hne : i ≠ j) (ha : heap[i]? = some a)
    (hb : heap[j]? = some b) (k : ℕ) :
    (swap heap i j)[k]? = if k = i then some b else if k = j then some a else heap[k]? := by
  have hi := (List.getElem?_eq_some_iff.mp ha).1
  have hj := (List.getElem?_eq_some_iff.mp hb).1
  unfold swap
  simp only [ha, hb]
  rw [List.getElem?_set, List.getElem?_set, List.length_set]
  by_cases hki : k = i
  · subst hki
    simp [Ne.symm hne, hi]
  · by_cases hkj : k = j
    · subst hkj
      simp [hki, hj]
    · simp [hki, hkj, Ne.symm hki, Ne.symm hkj]

section Order

variable {lt : α → α → Bool} {start pos fuel : ℕ} {heap : List α}

lemma Comparison.irrefl (hlt : Comparison lt) (a : α) : lt a a = false := by
  by_contra h
  have htrue : lt a a = true := by simpa using h
  rw [hlt.asymm a a htrue] at htrue
  cases htrue

lemma LeAt.trans (hlt : Comparison lt) {x z : Option α} {b : α} (hxy : LeAt lt x (some b))
    (hyz : LeAt lt (some b) z) : LeAt lt x z :=
  fun a c ha hc => hlt.trans a b c (hxy a b ha rfl) (hyz b c rfl hc)

/-- An item that is smaller than its parent, with the parent in its place. -/
lemma UpOrder.swap (hlt : Comparison lt) {parentpos : ℕ} {newitem parent : α}
    (h : UpOrder lt start pos heap) (hstart : start ≤ parentpos) (hchild : IsChild parentpos pos)
    (hnew : heap[pos]? = some newitem) (hparent : heap[parentpos]? = some parent)
    (hless : lt newitem parent = true) :
    UpOrder lt start parentpos (swap heap pos parentpos) := by
  have hne : pos ≠ parentpos := by
    unfold IsChild at hchild
    omega
  have hget := getElem?_swap hne hnew hparent
  have hnewLe : LeAt lt (some newitem) (some parent) := by
    rintro _ _ ⟨⟩ ⟨⟩
    exact hlt.asymm _ _ hless
  refine ⟨fun i j hi hj hij => ?_, fun i j hi hgrand hij => ?_⟩
  · rw [hget i, hget j, if_neg hj]
    by_cases hip : i = parentpos
    · subst hip
      rw [if_neg (Ne.symm hne), if_pos rfl]
      split_ifs with hjp
      · exact hnewLe
      · exact hnewLe.trans hlt (hparent ▸ h.pairs i j hi hjp hij)
    · by_cases hic : i = pos
      · subst hic
        have hjp : j ≠ i := by
          unfold IsChild at hij
          omega
        rw [if_pos rfl, if_neg hjp]
        exact hparent ▸ h.grand parentpos j hstart hchild hij
      · have hjp : j ≠ pos := by
          rintro rfl
          unfold IsChild at hij hchild
          omega
        rw [if_neg hic, if_neg hip, if_neg hjp]
        exact h.pairs i j hi hjp hij
  · have hip : i ≠ parentpos ∧ i ≠ pos ∧ j ≠ parentpos := by
      unfold IsChild at *
      omega
    have hup : LeAt lt heap[i]? (some parent) := hparent ▸ h.pairs i parentpos hi hne.symm hgrand
    rw [hget i, hget j, if_neg hip.2.1, if_neg hip.1, if_neg hip.2.2]
    split_ifs with hjp
    · exact hup
    · exact hup.trans hlt (hparent ▸ h.pairs parentpos j hstart hjp hij)

/-- **The way up** ends in a heap from `start` on. -/
theorem heapFrom_siftdown (hlt : Comparison lt) (hpos : Descends start pos) (hfuel : pos ≤ fuel)
    (h : UpOrder lt start pos heap) : HeapFrom lt start (siftdown lt start fuel pos heap) := by
  induction fuel generalizing pos heap with
  | zero =>
    refine fun i j hi hij => h.pairs i j hi ?_ hij
    unfold IsChild at hij
    omega
  | succ fuel ih =>
    rw [siftdown]
    split
    · next hlt' =>
      obtain ⟨hup, hchild⟩ := hpos.parent hlt'
      dsimp only
      split
      · next newitem parent hnew hparent =>
        split
        · next hless =>
          exact ih hup (by omega) (h.swap hlt hup.le hchild hnew hparent hless)
        · next hless =>
          -- The item has found its place: its parent is not larger.
          intro i j hi hij
          by_cases hj : j = pos
          · have hi' : i = (pos - 1) / 2 := by
              unfold IsChild at hij
              omega
            rw [hj, hi', hnew, hparent]
            rintro _ _ ⟨⟩ ⟨⟩
            simpa using hless
          · exact h.pairs i j hi hj hij
      · next hnone =>
        intro i j hi hij
        by_cases hj : j = pos
        · have hi' : i = (pos - 1) / 2 := by
            unfold IsChild at hij
            omega
          intro a b ha hb
          exact absurd (hi' ▸ ha) (hnone b a (hj ▸ hb))
        · exact h.pairs i j hi hj hij
    · next hge =>
      have hroot := hpos.le
      refine fun i j hi hij => h.pairs i j hi ?_ hij
      unfold IsChild at hij
      omega

/-- The child that an item moves to is there, and it is at most as large as the other one. -/
lemma smallerChild_spec (hlt : Comparison lt) (h : 2 * pos + 1 < heap.length) :
    IsChild pos (smallerChild lt heap pos) ∧ smallerChild lt heap pos < heap.length ∧
      ∀ j, IsChild pos j → LeAt lt heap[smallerChild lt heap pos]? heap[j]? := by
  have hleft : heap[2 * pos + 1]? = some heap[2 * pos + 1] := List.getElem?_eq_getElem h
  unfold smallerChild
  rw [hleft]
  split
  · next left right hl hright =>
    obtain rfl := Option.some.inj hl
    have hlt' := (List.getElem?_eq_some_iff.mp hright).1
    split
    · next hless =>
      refine ⟨.inl rfl, h, fun j hj => ?_⟩
      rintro a b ha hb
      obtain rfl | rfl := hj
      · obtain rfl := Option.some.inj (ha.symm.trans hb)
        exact hlt.irrefl a
      · rw [hleft] at ha
        obtain rfl := Option.some.inj ha
        obtain rfl := Option.some.inj (hright.symm.trans hb)
        exact hlt.asymm _ _ hless
    · next hless =>
      refine ⟨.inr rfl, hlt', fun j hj => ?_⟩
      rintro a b ha hb
      obtain rfl := Option.some.inj (hright.symm.trans ha)
      obtain rfl | rfl := hj
      · rw [hleft] at hb
        obtain rfl := Option.some.inj hb
        simpa using hless
      · obtain rfl := Option.some.inj (hright.symm.trans hb)
        exact hlt.irrefl _
  · next hnone =>
    refine ⟨.inl rfl, h, fun j hj => ?_⟩
    rintro a b ha hb
    obtain rfl | rfl := hj
    · obtain rfl := Option.some.inj (ha.symm.trans hb)
      exact hlt.irrefl a
    · exact absurd hb (hnone _ b rfl)

/-- An item that changes places with its smaller child. -/
lemma DownOrder.swap (h : DownOrder lt start pos heap) (hstart : start ≤ pos) {childpos : ℕ}
    (hchild : IsChild pos childpos) (hpos : pos < heap.length) (hlen : childpos < heap.length)
    (hsmall : ∀ j, IsChild pos j → LeAt lt heap[childpos]? heap[j]?) :
    DownOrder lt start childpos (swap heap pos childpos) := by
  have hne : pos ≠ childpos := by
    unfold IsChild at hchild
    omega
  have hitem := List.getElem?_eq_getElem hpos
  have hc := List.getElem?_eq_getElem hlen
  have hget := getElem?_swap hne hitem hc
  refine ⟨fun i j hi hic hjc hij => ?_, fun i j hi hgrand hij => ?_⟩
  · rw [hget i, hget j, if_neg hic, if_neg hjc]
    by_cases hip : i = pos
    · subst hip
      have hji : j ≠ i := by
        unfold IsChild at hij
        omega
      rw [if_pos rfl, if_neg hji, ← hc]
      exact hsmall j hij
    · rw [if_neg hip]
      split_ifs with hjp
      · subst hjp
        rw [← hc]
        exact h.grand i childpos hi hij hchild
      · exact h.pairs i j hi hip hjp hij
  · have hi' : i = pos ∧ j ≠ pos ∧ j ≠ childpos := by
      unfold IsChild at *
      omega
    obtain ⟨rfl, hji, hjc⟩ := hi'
    rw [hget i, hget j, if_pos rfl, if_neg hji, if_neg hjc, ← hc]
    exact h.pairs childpos j (by unfold IsChild at hchild; omega) hne.symm hji hij

/-- **The way down and up again** ends in a heap from `start` on. -/
theorem heapFrom_siftup (hlt : Comparison lt) (hpos : Descends start pos)
    (hlen : pos < heap.length) (hfuel : heap.length ≤ pos + fuel)
    (h : DownOrder lt start pos heap) : HeapFrom lt start (siftup lt start fuel pos heap) := by
  induction fuel generalizing pos heap with
  | zero => omega
  | succ fuel ih =>
    rw [siftup]
    split
    · next hleft =>
      obtain ⟨hchild, hclen, hsmall⟩ := smallerChild_spec hlt hleft
      have hlength := (swap_perm heap pos (smallerChild lt heap pos)).length_eq
      refine ih (.child hpos hchild) (by omega) ?_ (h.swap hpos.le hchild hlen hclen hsmall)
      unfold IsChild at hchild
      omega
    · next hleaf =>
      -- The item is at a leaf, so nothing stands below it.
      refine heapFrom_siftdown hlt hpos (Nat.le_refl _) ⟨fun i j hi hj hij => ?_, h.grand⟩
      by_cases hi' : i = pos
      · rintro a b - hb
        have := (List.getElem?_eq_some_iff.mp hb).1
        unfold IsChild at hij
        omega
      · exact h.pairs i j hi hi' hj hij

/-- A push keeps the heap. -/
theorem isHeap_heappush (hlt : Comparison lt) (h : IsHeap lt heap) (item : α) :
    IsHeap lt (heappush lt heap item) := by
  refine heapFrom_siftdown hlt (descends_zero _) (Nat.le_refl _) ⟨?_, ?_⟩
  · intro i j hi hj hij a b ha hb
    have hjlen := (List.getElem?_eq_some_iff.mp hb).1
    rw [List.length_append, List.length_singleton] at hjlen
    have hjlt : j < heap.length := by omega
    have hilt : i < heap.length := by
      unfold IsChild at hij
      omega
    rw [List.getElem?_append_left hilt] at ha
    rw [List.getElem?_append_left hjlt] at hb
    exact h i j hi hij a b ha hb
  · rintro i j - - hij a b - hb
    have hjlen := (List.getElem?_eq_some_iff.mp hb).1
    rw [List.length_append, List.length_singleton] at hjlen
    unfold IsChild at hij
    omega

/-- A replacement of the root keeps the heap. -/
theorem isHeap_heapreplace (hlt : Comparison lt) {a : α} (h : IsHeap lt (a :: heap)) (item : α) :
    IsHeap lt (heapreplace lt (a :: heap) item) := by
  refine heapFrom_siftup hlt .root (by simp) (by simp) ⟨?_, ?_⟩
  · intro i j hi hi0 hj0 hij
    rw [List.getElem?_set_ne (Ne.symm hi0), List.getElem?_set_ne (Ne.symm hj0)]
    exact h i j hi hij
  · rintro i j - hgrand -
    unfold IsChild at hgrand
    omega

/-- One step of `heapify`: the item at `pos` joins the heap behind it. -/
lemma heapFrom_step (hlt : Comparison lt) (hlen : pos < heap.length)
    (h : HeapFrom lt (pos + 1) heap) :
    HeapFrom lt pos (siftup lt pos heap.length pos heap) := by
  refine heapFrom_siftup hlt .root hlen (by omega) ⟨?_, ?_⟩
  · intro i j hi hip hjp hij
    exact h i j (by omega) hij
  · rintro i j hi hgrand -
    unfold IsChild at hgrand
    omega

/-- **Making a heap** of a list. -/
theorem isHeap_heapify (hlt : Comparison lt) (heap : List α) : IsHeap lt (heapify lt heap) := by
  have hloop : ∀ n, n ≤ heap.length → ∀ heap' : List α, heap'.length = heap.length →
      HeapFrom lt n heap' →
      IsHeap lt ((List.range n).reverse.foldl (fun h i => siftup lt i h.length i h) heap') := by
    intro n
    induction n with
    | zero => exact fun _ _ _ h => h
    | succ n ih =>
      intro hn heap' hlength h
      rw [List.range_succ, List.reverse_append, List.reverse_singleton, List.singleton_append,
        List.foldl_cons]
      refine ih (by omega) _ ?_ (heapFrom_step hlt (by omega) h)
      rw [(siftup_perm _ _ _ _ _).length_eq, hlength]
  refine hloop _ (by omega) heap rfl fun i j hi hij => ?_
  rintro a b - hb
  have := (List.getElem?_eq_some_iff.mp hb).1
  unfold IsChild at hij
  omega

/-- **The root of a heap** is a smallest item. -/
theorem IsHeap.root_le (hlt : Comparison lt) {a : α} (h : IsHeap lt (a :: heap)) :
    ∀ b ∈ a :: heap, lt b a = false := by
  have hall : ∀ pos : ℕ, LeAt lt (some a) (a :: heap)[pos]? := by
    intro pos
    induction pos using Nat.strongRecOn with
    | ind pos ih =>
      obtain rfl | hpos := Nat.eq_zero_or_pos pos
      · rintro _ _ ⟨⟩ ⟨⟩
        exact hlt.irrefl a
      · have hchild : IsChild ((pos - 1) / 2) pos := by
          unfold IsChild
          omega
        rintro x b hx hb
        have hlen := (List.getElem?_eq_some_iff.mp hb).1
        have hparent : (a :: heap)[(pos - 1) / 2]? = some (a :: heap)[(pos - 1) / 2] :=
          List.getElem?_eq_getElem (by omega)
        have hup := ih ((pos - 1) / 2) (by omega)
        have hpair := h ((pos - 1) / 2) pos (Nat.zero_le _) hchild
        rw [hparent] at hup hpair
        exact hup.trans hlt hpair x b hx hb
  intro b hb
  obtain ⟨pos, hpos⟩ := List.mem_iff_getElem?.mp hb
  exact hall pos a b rfl hpos

end Order

end Heapq
