import Mathlib.Algebra.GroupWithZero.Nat
import Mathlib.Algebra.Ring.Int.Defs
import Mathlib.Data.Vector.Basic
import ProRLAgent.Basic
import ProRLAgent.Lib.Except

set_option relaxedAutoImplicit false
set_option autoImplicit false

/-!
# Padding a batch

The two padding helpers of the rollout (`verl_custom/nvidia/rollout/utils.py`):
`convert_right_padding_to_left` moves the padding of the prompts to the left, and
`pad_to_max_length_right` pads the responses to a fixed width. Both fill preallocated rows by
slice assignment, which fails in torch if the sizes differ.

The tensors carry no dtype: a number of the model stands for the value that the tensor holds.

## Main definitions

* `ProRLAgent.Rollout.Tensor` — a two-dimensional tensor: rows of one width.
* `ProRLAgent.Rollout.assignSlice` — the assignment `row[start:stop] = values`.
* `ProRLAgent.Rollout.convertRightPaddingToLeft`, `ProRLAgent.Rollout.padToMaxLengthRight`.

## Main results

* `ProRLAgent.Rollout.exists_convertRightPaddingToLeft` — right-padded rows come out left-padded.
* `ProRLAgent.Rollout.exists_padToMaxLengthRight` — aligned rows come out cut and right-padded.
-/

namespace ProRLAgent.Rollout

variable {α F : Type}

/-! ## Tensors -/

/-- A two-dimensional tensor: rows of one width. -/
structure Tensor (α : Type) where
  /-- The length of each row, `shape[1]`. -/
  width : ℕ
  /-- The rows. -/
  rows : List (List.Vector α width)

/-- The rows as plain lists. -/
def Tensor.toLists (t : Tensor α) : List (List α) := t.rows.map List.Vector.toList

/-- The call `torch.tensor(rows)`: the rows must have one length. -/
def Tensor.ofLists (rows : List (List α)) : Except PyError (Tensor α) :=
  if h : ∀ row ∈ rows, row.length = (rows.headD []).length then
    .ok ⟨_, rows.attach.map fun row => ⟨row.1, h row.1 row.2⟩⟩
  else
    .error (.valueError "expected sequence of equal length at dim 1")

/-- The call `torch.cat([s, t], dim=1)`: the tensors must have the same number of rows. -/
def Tensor.cat (s t : Tensor α) : Except PyError (Tensor α) :=
  if s.rows.length = t.rows.length then
    .ok ⟨s.width + t.width, List.zipWith (· ++ ·) s.rows t.rows⟩
  else
    .error (.runtimeError "Sizes of tensors must match except in dimension 1")

/-- Rows of one width become a tensor with these rows. -/
lemma Tensor.exists_ofLists (rows : List (List α)) {n : ℕ} (h : ∀ row ∈ rows, row.length = n) :
    ∃ t, Tensor.ofLists rows = .ok t ∧ t.toLists = rows ∧ (rows ≠ [] → t.width = n) := by
  have hhead : ∀ row ∈ rows, row.length = (rows.headD []).length := by
    intro row hrow
    cases rows with
    | nil => exact absurd hrow List.not_mem_nil
    | cons first rest => rw [h row hrow, List.headD_cons, h first List.mem_cons_self]
  refine ⟨_, dif_pos hhead, ?_, ?_⟩
  · exact List.map_map.trans (List.attach_map_subtype_val rows)
  · intro hne
    obtain ⟨first, rest, rfl⟩ := List.exists_cons_of_ne_nil hne
    exact h first List.mem_cons_self

/-- Tensors with the same number of rows are joined row by row. -/
lemma Tensor.exists_cat {s t : Tensor α} (h : s.toLists.length = t.toLists.length) :
    ∃ u, s.cat t = .ok u ∧ u.toLists = List.zipWith (· ++ ·) s.toLists t.toLists ∧
      u.width = s.width + t.width := by
  have hlen : s.rows.length = t.rows.length := by simpa [Tensor.toLists] using h
  refine ⟨_, if_pos hlen, ?_, rfl⟩
  simp [Tensor.toLists, List.map_zipWith, List.zipWith_map_left, List.zipWith_map_right]

/-! ## Slice assignment -/

/-- The assignment `row[start:stop] = values`: the sizes agree, or a single value is broadcast
over the slice. -/
def assignSlice {n : ℕ} (row : List.Vector α n) (start stop : ℕ) (values : List α) :
    Except PyError (List.Vector α n) :=
  let size := min stop n - start
  let write (values : List α) (h : values.length = size) : List.Vector α n :=
    ⟨row.toList.take start ++ values ++ row.toList.drop (min start n + size), by
      simp only [List.length_append, List.length_take, List.length_drop,
        List.Vector.toList_length, h]
      omega⟩
  if h : values.length = size then
    .ok (write values h)
  else
    match values with
    | [value] => .ok (write (List.replicate size value) List.length_replicate)
    | _ => .error (.runtimeError "The expanded size of the tensor must match the existing size")

/-- Values that fit the slice replace it. -/
lemma exists_assignSlice {n : ℕ} (row : List.Vector α n) {start stop : ℕ} {values : List α}
    (hstop : stop ≤ n) (hsize : start + values.length = stop) :
    ∃ out, assignSlice row start stop values = .ok out ∧
      out.toList = row.toList.take start ++ values ++ row.toList.drop stop := by
  have h : values.length = min stop n - start := by omega
  refine ⟨_, dif_pos h, ?_⟩
  have hend : min start n + (min stop n - start) = stop := by omega
  rw [List.Vector.toList_mk, hend]

/-- A single value fills the slice. -/
lemma exists_assignSlice_single {n : ℕ} (row : List.Vector α n) {start stop : ℕ} (value : α)
    (hstop : stop ≤ n) (hstart : start ≤ stop) :
    ∃ out, assignSlice row start stop [value] = .ok out ∧
      out.toList =
        row.toList.take start ++ List.replicate (stop - start) value ++ row.toList.drop stop := by
  by_cases h : [value].length = min stop n - start
  · have hone : stop - start = 1 := by
      simp only [List.length_singleton] at h
      omega
    rw [hone, List.replicate_one]
    exact exists_assignSlice row hstop (by simp only [List.length_singleton]; omega)
  · refine ⟨_, dif_neg h, ?_⟩
    have hend : min start n + (min stop n - start) = stop := by omega
    have hsize : min stop n - start = stop - start := by omega
    rw [List.Vector.toList_mk, hend, hsize]

/-! ## Padding on the left -/

/-- One row of `convert_right_padding_to_left`. -/
def leftPadRow {n m : ℕ} (padTokenId : Token) (seqLength : ℕ) (inputIds : List.Vector Token n)
    (attentionMask : List.Vector ℕ m) :
    Except PyError (List.Vector Token seqLength × List.Vector ℕ seqLength) := do
  let seqLen := attentionMask.toList.sum
  -- A sequence that is longer than the row is trimmed to its first tokens.
  let seqLen := if seqLen > seqLength then seqLength else seqLen
  let offset := seqLength - seqLen
  let leftPaddedInputIds ← assignSlice (List.Vector.replicate seqLength padTokenId) offset
    seqLength (inputIds.toList.take seqLen)
  let leftPaddedAttentionMask ← assignSlice (List.Vector.replicate seqLength 0) offset
    seqLength [1]
  return (leftPaddedInputIds, leftPaddedAttentionMask)

/-- The function `convert_right_padding_to_left`. -/
def convertRightPaddingToLeft (padTokenId : Token) (inputIds : Tensor Token)
    (attentionMask : Tensor ℕ) (maxLen : Option ℕ) :
    Except PyError (Tensor Token × Tensor ℕ) := do
  let seqLength := maxLen.getD inputIds.width
  if attentionMask.rows.length < inputIds.rows.length then
    throw .indexError
  let rows ← (inputIds.rows.zip attentionMask.rows).mapM fun row =>
    leftPadRow padTokenId seqLength row.1 row.2
  return (⟨seqLength, rows.map Prod.fst⟩, ⟨seqLength, rows.map Prod.snd⟩)

/-! ## Padding on the right -/

/-- One row of the response encodings: four parallel lists. -/
structure ResponseEncoding (F : Type) where
  inputIds : List Token
  attentionMask : List ℕ
  assistantMasks : List ℕ
  logProbs : List F

/-- One row of the padded responses. -/
structure PaddedRow (F : Type) (width : ℕ) where
  inputIds : List.Vector Token width
  attentionMask : List.Vector ℕ width
  assistantMask : List.Vector ℕ width
  logProbs : List.Vector F width

/-- The padded responses. -/
structure PaddedResponses (F : Type) where
  inputIds : Tensor Token
  attentionMask : Tensor ℕ
  assistantMask : Tensor ℕ
  logProbs : Tensor F

/-- One row of `pad_to_max_length_right`. -/
def rightPadRow [Zero F] (padTokenId : Token) (maxLength : ℕ) (encoding : ResponseEncoding F) :
    Except PyError (PaddedRow F maxLength) := do
  let seqLen := encoding.attentionMask.sum
  let actualLen := min seqLen maxLength
  let inputIds ← assignSlice (List.Vector.replicate maxLength padTokenId) 0 actualLen
    (encoding.inputIds.take actualLen)
  let attentionMask ← assignSlice (List.Vector.replicate maxLength 0) 0 actualLen
    (encoding.attentionMask.take actualLen)
  let assistantMask ← assignSlice (List.Vector.replicate maxLength 0) 0 actualLen
    (encoding.assistantMasks.take actualLen)
  let logProbs ← assignSlice (List.Vector.replicate maxLength 0) 0 actualLen
    (encoding.logProbs.take actualLen)
  return ⟨inputIds, attentionMask, assistantMask, logProbs⟩

/-- The function `pad_to_max_length_right`. -/
def padToMaxLengthRight [Zero F] (padTokenId : Token) (encodings : List (ResponseEncoding F))
    (maxLength : ℕ) : Except PyError (PaddedResponses F) := do
  let rows ← encodings.mapM (rightPadRow padTokenId maxLength)
  return ⟨⟨maxLength, rows.map (·.inputIds)⟩, ⟨maxLength, rows.map (·.attentionMask)⟩,
    ⟨maxLength, rows.map (·.assistantMask)⟩, ⟨maxLength, rows.map (·.logProbs)⟩⟩

/-! ## What the helpers return -/

/-- A row with padding on the right. -/
def rightPadded (pad : α) (width : ℕ) (row : List α) : List α :=
  row ++ List.replicate (width - row.length) pad

/-- A row with padding on the left. -/
def leftPadded (pad : α) (width : ℕ) (row : List α) : List α :=
  List.replicate (width - row.length) pad ++ row

/-- The mask of a row of tokens. -/
def ones (row : List α) : List ℕ := List.replicate row.length 1

@[simp] lemma length_ones (row : List α) : (ones row).length = row.length :=
  List.length_replicate

@[simp] lemma sum_rightPadded_ones (width : ℕ) (row : List α) :
    (rightPadded 0 width (ones row)).sum = row.length := by
  simp [rightPadded, ones]

lemma take_ones (n : ℕ) (row : List α) : (ones row).take n = ones (row.take n) := by
  simp [ones]

/-- Padding at the end is not seen by a cut inside the row. -/
lemma take_rightPadded {pad : α} {width n : ℕ} {row : List α} :
    (rightPadded pad width row).take (min row.length n) = row.take n := by
  rw [rightPadded, List.take_append_of_le_length (Nat.min_le_left _ _)]
  by_cases h : row.length ≤ n
  · rw [Nat.min_eq_left h, List.take_length, List.take_of_length_le h]
  · rw [Nat.min_eq_right (by omega)]

/-- The entries of a constant tensor row. -/
lemma toList_replicate (n : ℕ) (a : α) :
    (List.Vector.replicate n a).toList = List.replicate n a := rfl

/-- A right-padded row comes out left-padded. -/
lemma exists_leftPadRow {n m : ℕ} {padTokenId : Token} (seqLength : ℕ)
    {inputIds : List.Vector Token n} {attentionMask : List.Vector ℕ m} {row : List Token}
    (hids : inputIds.toList = rightPadded padTokenId n row)
    (hmask : attentionMask.toList = rightPadded 0 m (ones row)) :
    ∃ out, leftPadRow padTokenId seqLength inputIds attentionMask = .ok out ∧
      out.1.toList = leftPadded padTokenId seqLength (row.take seqLength) ∧
      out.2.toList = leftPadded 0 seqLength (ones (row.take seqLength)) := by
  have hsum : attentionMask.toList.sum = row.length := by rw [hmask, sum_rightPadded_ones]
  have hlen : (if row.length > seqLength then seqLength else row.length)
      = min row.length seqLength := by
    split <;> omega
  have hkept : inputIds.toList.take (min row.length seqLength) = row.take seqLength := by
    rw [hids, take_rightPadded]
  have hlenKept : (row.take seqLength).length = min row.length seqLength := by
    rw [List.length_take, Nat.min_comm]
  obtain ⟨ids, hids, hidsList⟩ := exists_assignSlice
    (List.Vector.replicate seqLength padTokenId) le_rfl
    (show seqLength - min row.length seqLength + (row.take seqLength).length = seqLength by omega)
  obtain ⟨mask, hmask, hmaskList⟩ := exists_assignSlice_single
    (List.Vector.replicate seqLength 0) 1 le_rfl
    (show seqLength - min row.length seqLength ≤ seqLength by omega)
  refine ⟨(ids, mask), ?_, ?_, ?_⟩
  · simp only [leftPadRow, hsum, hlen, hkept, hids, hmask, bind, Except.bind, pure, Except.pure]
  · rw [hidsList, leftPadded, hlenKept, toList_replicate]
    simp
  · rw [hmaskList, leftPadded, length_ones, hlenKept]
    have hones : seqLength - (seqLength - min row.length seqLength)
        = (row.take seqLength).length := by
      omega
    rw [toList_replicate]
    simp [ones, hones]

/-- **Left padding**: right-padded rows come out left-padded, each cut to its first `maxLen`
tokens. -/
theorem exists_convertRightPaddingToLeft {padTokenId : Token} {inputIds : Tensor Token}
    {attentionMask : Tensor ℕ} (rows : List (List Token)) (maxLen : ℕ)
    (hids : inputIds.toLists = rows.map (rightPadded padTokenId inputIds.width))
    (hmask : attentionMask.toLists =
      rows.map fun row => rightPadded 0 attentionMask.width (ones row)) :
    ∃ out, convertRightPaddingToLeft padTokenId inputIds attentionMask (some maxLen) = .ok out ∧
      out.1.toLists = rows.map (fun row => leftPadded padTokenId maxLen (row.take maxLen)) ∧
      out.2.toLists = rows.map (fun row => leftPadded 0 maxLen (ones (row.take maxLen))) ∧
      out.1.width = maxLen ∧ out.2.width = maxLen := by
  obtain ⟨n, idRows⟩ := inputIds
  obtain ⟨m, maskRows⟩ := attentionMask
  simp only [Tensor.toLists] at hids hmask
  have hlen : ¬ maskRows.length < idRows.length := by
    have h1 := congrArg List.length hids
    have h2 := congrArg List.length hmask
    simp only [List.length_map] at h1 h2
    omega
  have hloop : ∃ out, (idRows.zip maskRows).mapM
        (fun row => leftPadRow padTokenId maxLen row.1 row.2) = .ok out ∧
      out.map (fun row => row.1.toList)
        = rows.map (fun row => leftPadded padTokenId maxLen (row.take maxLen)) ∧
      out.map (fun row => row.2.toList)
        = rows.map (fun row => leftPadded 0 maxLen (ones (row.take maxLen))) := by
    clear hlen
    induction rows generalizing idRows maskRows with
    | nil =>
      obtain rfl : idRows = [] := by simpa using hids
      exact ⟨[], rfl, rfl, rfl⟩
    | cons row rows ih =>
      obtain ⟨ids, idRows, rfl, hid, hids⟩ := List.map_eq_cons_iff.mp hids
      obtain ⟨mask, maskRows, rfl, hm, hmask⟩ := List.map_eq_cons_iff.mp hmask
      obtain ⟨first, hfirst, hfirst₁, hfirst₂⟩ := exists_leftPadRow maxLen hid hm
      obtain ⟨rest, hrest, hrest₁, hrest₂⟩ := ih idRows hids maskRows hmask
      refine ⟨first :: rest, ?_, ?_, ?_⟩
      · simp only [List.zip_cons_cons, List.mapM_cons, hfirst, hrest, bind, Except.bind, pure,
          Except.pure]
      · simp only [List.map_cons, hfirst₁, hrest₁]
      · simp only [List.map_cons, hfirst₂, hrest₂]
  obtain ⟨out, hout, hout₁, hout₂⟩ := hloop
  refine ⟨(⟨maxLen, out.map Prod.fst⟩, ⟨maxLen, out.map Prod.snd⟩), ?_, ?_, ?_, rfl, rfl⟩
  · simp only [convertRightPaddingToLeft, hlen, Option.getD_some, hout, bind, Except.bind, pure,
      Except.pure, if_false]
  · exact List.map_map.trans hout₁
  · exact List.map_map.trans hout₂

/-- The four lists of an encoding reach at least as far as its mask counts. -/
structure ResponseEncoding.Covers (encoding : ResponseEncoding F) : Prop where
  inputIds : encoding.attentionMask.sum ≤ encoding.inputIds.length
  attentionMask : encoding.attentionMask.sum ≤ encoding.attentionMask.length
  assistantMasks : encoding.attentionMask.sum ≤ encoding.assistantMasks.length
  logProbs : encoding.attentionMask.sum ≤ encoding.logProbs.length

/-- A row that reaches far enough is written at the start of a row of pads. -/
lemma exists_assignSlice_take (pad : α) (n : ℕ) {len : ℕ} {values : List α}
    (h : len ≤ values.length) :
    ∃ out, assignSlice (List.Vector.replicate n pad) 0 (min len n)
        (values.take (min len n)) = .ok out ∧
      out.toList = rightPadded pad n (values.take (min len n)) := by
  have hlen : (values.take (min len n)).length = min len n := by
    rw [List.length_take]
    omega
  obtain ⟨out, hout, hlist⟩ := exists_assignSlice (List.Vector.replicate n pad)
    (Nat.min_le_right len n) (show 0 + (values.take (min len n)).length = min len n by omega)
  refine ⟨out, hout, ?_⟩
  rw [hlist, rightPadded, hlen, toList_replicate]
  simp

/-- What `pad_to_max_length_right` makes of one encoding. -/
structure PaddedRow.Pads [Zero F] {width : ℕ} (padTokenId : Token)
    (encoding : ResponseEncoding F) (row : PaddedRow F width) : Prop where
  inputIds : row.inputIds.toList = rightPadded padTokenId width
    (encoding.inputIds.take (min encoding.attentionMask.sum width))
  attentionMask : row.attentionMask.toList = rightPadded 0 width
    (encoding.attentionMask.take (min encoding.attentionMask.sum width))
  assistantMask : row.assistantMask.toList = rightPadded 0 width
    (encoding.assistantMasks.take (min encoding.attentionMask.sum width))
  logProbs : row.logProbs.toList = rightPadded 0 width
    (encoding.logProbs.take (min encoding.attentionMask.sum width))

/-- A row that covers its mask comes out cut and padded. -/
lemma exists_rightPadRow [Zero F] (padTokenId : Token) (maxLength : ℕ)
    {encoding : ResponseEncoding F} (h : encoding.Covers) :
    ∃ out, rightPadRow padTokenId maxLength encoding = .ok out ∧
      out.Pads padTokenId encoding := by
  obtain ⟨ids, hids, hids'⟩ := exists_assignSlice_take padTokenId maxLength h.inputIds
  obtain ⟨mask, hmask, hmask'⟩ := exists_assignSlice_take 0 maxLength h.attentionMask
  obtain ⟨loss, hloss, hloss'⟩ := exists_assignSlice_take 0 maxLength h.assistantMasks
  obtain ⟨probs, hprobs, hprobs'⟩ := exists_assignSlice_take (0 : F) maxLength h.logProbs
  refine ⟨⟨ids, mask, loss, probs⟩, ?_, hids', hmask', hloss', hprobs'⟩
  simp only [rightPadRow, hids, hmask, hloss, hprobs, bind, Except.bind, pure, Except.pure]

/-- **Right padding**: encodings that cover their masks come out cut to `maxLength` and padded. -/
theorem exists_padToMaxLengthRight [Zero F] (padTokenId : Token) (maxLength : ℕ)
    (encodings : List (ResponseEncoding F)) (h : ∀ encoding ∈ encodings, encoding.Covers) :
    ∃ rows : List (PaddedRow F maxLength),
      padToMaxLengthRight padTokenId encodings maxLength =
        .ok ⟨⟨maxLength, rows.map (·.inputIds)⟩, ⟨maxLength, rows.map (·.attentionMask)⟩,
          ⟨maxLength, rows.map (·.assistantMask)⟩, ⟨maxLength, rows.map (·.logProbs)⟩⟩ ∧
      List.Forall₂ (fun encoding row => row.Pads padTokenId encoding) encodings rows := by
  obtain ⟨rows, hrows, hpads⟩ := Except.exists_mapM_eq_ok fun encoding hmem =>
    exists_rightPadRow padTokenId maxLength (h encoding hmem)
  refine ⟨rows, ?_, hpads⟩
  simp only [padToMaxLengthRight, hrows, bind, Except.bind, pure, Except.pure]

end ProRLAgent.Rollout
