import ProRLAgent.Lib.Except
import ProRLAgent.Memory.View

set_option relaxedAutoImplicit false
set_option autoImplicit false

/-!
# Rolling condensers

Two condensers keep the view of a history short (`openhands/memory/condenser/impl`). When the view
gets longer than `max_size`, the amortized one forgets the events in its middle, and the summarizing
one replaces them by a summary behind the first `keep_first` events.

A condensation is computed by positions in the view and speaks in ids about the whole history. Over
a run both agree: the kept events have increasing ids, so the range of the forgotten ids holds no
other kept event.

The summarizing condenser counts the summary among the events it keeps. With `keep_first` one less
than half of `max_size` it keeps no event of the tail, the slice up to `-0` is empty, and the
condensation raises.

## Main definitions

* `ProRLAgent.Memory.Condenser` — a condenser with admitted sizes.
* `ProRLAgent.Memory.Condenser.getCondensation` — the condensation of a view.
* `ProRLAgent.Memory.Condenser.Run` — the histories that a condenser leads to.
* `ProRLAgent.Memory.Condenser.Agrees` — the view and the condensation agree at a history.

## Main results

* `ProRLAgent.Memory.Condenser.agrees_iff` — when they agree over all runs.
-/

namespace ProRLAgent.Memory

/-! ## The condensers -/

/-- The two condensers. -/
inductive Strategy where
  | amortizedForgetting
  | llmSummarizing
  deriving DecidableEq, Repr

/-- A condenser with admitted sizes. -/
structure Condenser where
  strategy : Strategy
  maxSize : ℕ
  keepFirst : ℕ
  keepFirst_lt : keepFirst < maxSize / 2

/-- The call `min(ids)`. -/
def minId (ids : List ℤ) : Except PyError ℤ :=
  match ids.min? with
  | some id => .ok id
  | none => .error (.valueError "min() arg is an empty sequence")

/-- The call `max(ids)`. -/
def maxId (ids : List ℤ) : Except PyError ℤ :=
  match ids.max? with
  | some id => .ok id
  | none => .error (.valueError "max() arg is an empty sequence")

/-- The event is not part of a condensation. -/
def Event.Ordinary (event : Event) : Prop :=
  event.condensation? = none ∧ event.isCondensationObservation = false

namespace Condenser

/-- The constructor: the checks of the sizes. -/
def init (strategy : Strategy) (maxSize keepFirst : ℤ) : Except PyError Condenser :=
  if hhalf : keepFirst ≥ maxSize / 2 then
    .error (.valueError ("keep_first (" ++ toString keepFirst ++
      ") must be less than half of max_size (" ++ toString maxSize ++ ")"))
  else if hneg : keepFirst < 0 then
    .error (.valueError ("keep_first (" ++ toString keepFirst ++ ") cannot be negative"))
  else if maxSize < 1 then
    -- The amortized condenser names the other size in this text.
    let shown := if strategy = .amortizedForgetting then keepFirst else maxSize
    .error (.valueError ("max_size (" ++ toString shown ++ ") cannot be non-positive"))
  else
    .ok ⟨strategy, maxSize.toNat, keepFirst.toNat, by omega⟩

/-- **The admitted sizes** are those of the condensers. -/
lemma init_eq_ok_iff {strategy : Strategy} {maxSize keepFirst : ℤ} {c : Condenser} :
    init strategy maxSize keepFirst = .ok c ↔
      c.strategy = strategy ∧ (c.maxSize : ℤ) = maxSize ∧ (c.keepFirst : ℤ) = keepFirst := by
  obtain ⟨s, m, k, hlt⟩ := c
  constructor
  · intro h
    simp only [init] at h
    split_ifs at h with hhalf hneg hpos
    obtain ⟨rfl, rfl, rfl⟩ := Condenser.mk.inj (Except.ok.inj h)
    exact ⟨rfl, by dsimp only; omega, by dsimp only; omega⟩
  · rintro ⟨rfl, rfl, rfl⟩
    simp only [init]
    rw [dif_neg (by omega), dif_neg (by omega), if_neg (by omega)]
    simp

variable (c : Condenser)

/-- The function `should_condense`. -/
def shouldCondense (view : List Event) : Bool := view.length > c.maxSize

/-- The function `get_condensation` of the amortized condenser. -/
def amortizedCondensation (view : List Event) : Except PyError CondensationAction := do
  let targetSize : ℤ := (c.maxSize / 2 : ℕ)
  let head := Slices.slice view none (some c.keepFirst)
  let eventsFromTail := targetSize - head.length
  let tail := Slices.slice view (some (-eventsFromTail)) none
  let eventIdsToKeep := (head ++ tail).map Event.id
  let eventIdsToForget := (view.map Event.id).filter fun id => decide (id ∉ eventIdsToKeep)
  let startId ← minId eventIdsToForget
  let endId ← maxId eventIdsToForget
  return ⟨.range startId endId, none⟩

/-- The function `get_condensation` of the summarizing condenser; the summary is what the model
answers. -/
def summarizingCondensation (summary : String) (view : List Event) :
    Except PyError CondensationAction := do
  let head := Slices.slice view none (some c.keepFirst)
  let targetSize : ℤ := (c.maxSize / 2 : ℕ)
  let eventsFromTail := targetSize - head.length - 1
  -- The event behind the head is read as the previous summary.
  if view.length ≤ c.keepFirst then
    throw .indexError
  let forgottenEvents := (Slices.slice view (some c.keepFirst) (some (-eventsFromTail))).filter
    fun event => !event.isCondensationObservation
  let startId ← minId (forgottenEvents.map Event.id)
  let endId ← maxId (forgottenEvents.map Event.id)
  return ⟨.range startId endId, some (summary, c.keepFirst)⟩

/-- The function `get_condensation`. -/
def getCondensation (summary : String) (view : List Event) : Except PyError CondensationAction :=
  match c.strategy with
  | .amortizedForgetting => c.amortizedCondensation view
  | .llmSummarizing => c.summarizingCondensation summary view

/-! ## Runs -/

/-- **The histories of a run**: events are appended with increasing ids, and whenever the view is
too long its condensation. -/
inductive Run : List Event → Prop
  | nil : Run []
  | event {history : List Event} (h : Run history)
      (hshort : c.shouldCondense (fromEvents history) = false) (e : Event) (hordinary : e.Ordinary)
      (hid : ∀ e' ∈ history, e'.id < e.id) : Run (history ++ [e])
  | condensation {history : List Event} (h : Run history)
      (hlong : c.shouldCondense (fromEvents history) = true) (summary : String)
      (action : CondensationAction)
      (haction : c.getCondensation summary (fromEvents history) = .ok action) (e : Event)
      (he : e.condensation? = some action) (hid : ∀ e' ∈ history, e'.id < e.id) :
      Run (history ++ [e])

/-- What the condenser puts behind the first events. -/
def summaryEvents (summary : String) : List Event :=
  match c.strategy with
  | .amortizedForgetting => []
  | .llmSummarizing => [summaryEvent summary]

/-- **The view of a condensed history**: the first `keep_first` events of the old view, the summary
and the last events of the old view, half of `max_size` together, and the action. -/
def CondensedTo (summary : String) (view : List Event) (action : Event) (view' : List Event) :
    Prop :=
  ∃ tail, tail <:+ view ∧
    view' = view.take c.keepFirst ++ c.summaryEvents summary ++ tail ++ [action] ∧
    (view.take c.keepFirst ++ c.summaryEvents summary ++ tail).length = c.maxSize / 2

/-- **The view and the condenser agree** at a history: the view is not much too long, and if it is
too long its condensation returns and leaves the condensed view. -/
def Agrees (history : List Event) : Prop :=
  (fromEvents history).length ≤ c.maxSize + 1 ∧
    (c.shouldCondense (fromEvents history) = true → ∀ summary,
      ∃ action, c.getCondensation summary (fromEvents history) = .ok action ∧
        ∀ e : Event, e.condensation? = some action → (∀ e' ∈ history, e'.id < e.id) →
          c.CondensedTo summary (fromEvents history) e (fromEvents (history ++ [e])))

/-- The condenser keeps an event of the tail. -/
def KeepsTail : Prop := c.strategy = .amortizedForgetting ∨ c.keepFirst + 1 < c.maxSize / 2

/-! ## The condensation of a view -/

/-- The least and the greatest id of a list that is not empty. -/
lemma exists_minId_maxId {ids : List ℤ} (h : ids ≠ []) :
    ∃ startId ∈ ids, ∃ endId ∈ ids, minId ids = .ok startId ∧ maxId ids = .ok endId ∧
      ∀ id ∈ ids, startId ≤ id ∧ id ≤ endId := by
  obtain ⟨startId, hstart⟩ := Option.ne_none_iff_exists'.mp (mt List.min?_eq_none_iff.mp h)
  obtain ⟨endId, hend⟩ := Option.ne_none_iff_exists'.mp (mt List.max?_eq_none_iff.mp h)
  obtain ⟨hstartMem, hstartLe⟩ := List.min?_eq_some_iff.mp hstart
  obtain ⟨hendMem, hendLe⟩ := List.max?_eq_some_iff.mp hend
  refine ⟨startId, hstartMem, endId, hendMem, ?_, ?_,
    fun id hid => ⟨hstartLe id hid, hendLe id hid⟩⟩
  · rw [minId, hstart]
  · rw [maxId, hend]

/-- The number of events that the condenser puts behind the first ones. -/
def summarySize : ℕ := if c.strategy = .amortizedForgetting then 0 else 1

lemma length_summaryEvents (summary : String) :
    (c.summaryEvents summary).length = c.summarySize := by
  cases hstrategy : c.strategy <;> simp [summaryEvents, summarySize, hstrategy]

/-- The summary of the condensation action. -/
def actionSummary (summary : String) : Option (String × ℤ) :=
  match c.strategy with
  | .amortizedForgetting => none
  | .llmSummarizing => some (summary, c.keepFirst)

variable {c}

/-- The tail keeps an event besides the first ones and the summary. -/
lemma KeepsTail.lt (h : c.KeepsTail) : c.keepFirst + c.summarySize < c.maxSize / 2 := by
  have hlt := c.keepFirst_lt
  rw [summarySize]
  split_ifs with hstrategy
  · exact hlt
  · rcases h with h | h
    · exact absurd h hstrategy
    · exact h

/-- **The parts of a view that is too long**: the kept events are the first ones, a middle part and
a tail that fills up the condensed view. -/
lemma exists_parts {kept view obs : List Event} (htail : c.KeepsTail)
    (hview : view = kept.take c.keepFirst ++ obs ++ kept.drop c.keepFirst)
    (hobs : obs.length ≤ c.summarySize) (hlong : c.maxSize < view.length) :
    ∃ head middle tail, kept = head ++ middle ++ tail ∧ view = head ++ (obs ++ middle) ++ tail ∧
      head.length = c.keepFirst ∧ middle ≠ [] ∧ tail ≠ [] ∧
      c.keepFirst + c.summarySize + tail.length = c.maxSize / 2 := by
  have hlt := htail.lt
  have hlen : view.length = kept.length + obs.length := by
    rw [hview]
    simp only [List.length_append, List.length_take, List.length_drop]
    omega
  -- The position in the kept events where the tail starts.
  obtain ⟨q, hq⟩ : ∃ q, q + (c.maxSize / 2 - c.keepFirst - c.summarySize) = kept.length :=
    ⟨kept.length - (c.maxSize / 2 - c.keepFirst - c.summarySize), by omega⟩
  have hkq : c.keepFirst < q := by omega
  have hhead : kept.take q = kept.take c.keepFirst ++ (kept.take q).drop c.keepFirst := by
    conv_lhs => rw [← List.take_append_drop c.keepFirst (kept.take q)]
    rw [List.take_take, Nat.min_eq_left hkq.le]
  have hkept : kept = kept.take c.keepFirst ++ (kept.take q).drop c.keepFirst ++ kept.drop q := by
    rw [← hhead, List.take_append_drop]
  have hheadLen : (kept.take c.keepFirst).length = c.keepFirst := by
    rw [List.length_take]
    omega
  have hrest : kept.drop c.keepFirst = (kept.take q).drop c.keepFirst ++ kept.drop q := by
    conv_lhs => rw [hkept, List.append_assoc]
    rw [List.drop_left' hheadLen]
  refine ⟨kept.take c.keepFirst, (kept.take q).drop c.keepFirst, kept.drop q, hkept, ?_, hheadLen,
    ?_, ?_, ?_⟩
  · rw [hview, hrest]
    simp only [List.append_assoc]
  · refine List.ne_nil_of_length_pos ?_
    simp only [List.length_drop, List.length_take]
    omega
  · refine List.ne_nil_of_length_pos ?_
    rw [List.length_drop]
    omega
  · rw [List.length_drop]
    omega

/-- The condensation of the amortized condenser is the range of the middle part. -/
lemma amortizedCondensation_eq {head middle tail : List Event} (hhead : head.length = c.keepFirst)
    (htail : tail ≠ []) (hlen : c.keepFirst + tail.length = c.maxSize / 2)
    (hids : ((head ++ middle ++ tail).map Event.id).Nodup) :
    c.amortizedCondensation (head ++ middle ++ tail) = (do
      let startId ← minId (middle.map Event.id)
      let endId ← maxId (middle.map Event.id)
      return ⟨.range startId endId, none⟩) := by
  have hfirst : Slices.slice (head ++ middle ++ tail) none (some c.keepFirst) = head := by
    rw [Slices.slice_none_natCast, List.append_assoc, List.take_left' hhead]
  have hcount : ((c.maxSize / 2 : ℕ) : ℤ) - head.length = (tail.length : ℤ) := by omega
  have hlast : Slices.slice (head ++ middle ++ tail) (some (-(tail.length : ℤ))) none = tail := by
    rw [Slices.slice_neg_none _ (List.length_pos_iff.mpr htail), List.length_append,
      Nat.add_sub_cancel, List.drop_left]
  simp only [amortizedCondensation, hfirst, hcount, hlast, Slices.filter_notMem_ends hids]

/-- The condensation of the summarizing condenser is the range of the middle part. -/
lemma summarizingCondensation_eq {head obs middle tail : List Event}
    (hhead : head.length = c.keepFirst) (hmiddle : middle ≠ []) (htail : tail ≠ [])
    (hlen : c.keepFirst + 1 + tail.length = c.maxSize / 2)
    (hobsType : ∀ e ∈ obs, e.isCondensationObservation = true)
    (hmiddleType : ∀ e ∈ middle, e.isCondensationObservation = false) (summary : String) :
    c.summarizingCondensation summary (head ++ (obs ++ middle) ++ tail) = (do
      let startId ← minId (middle.map Event.id)
      let endId ← maxId (middle.map Event.id)
      return ⟨.range startId endId, some (summary, c.keepFirst)⟩) := by
  have hfirst : Slices.slice (head ++ (obs ++ middle) ++ tail) none (some c.keepFirst) = head := by
    rw [Slices.slice_none_natCast, List.append_assoc, List.take_left' hhead]
  have hcount : ((c.maxSize / 2 : ℕ) : ℤ) - head.length - 1 = (tail.length : ℤ) := by omega
  have hpos := List.length_pos_iff.mpr hmiddle
  have hbehind : ¬ (head ++ (obs ++ middle) ++ tail).length ≤ c.keepFirst := by
    simp only [List.length_append]
    omega
  have hslice : Slices.slice (head ++ (obs ++ middle) ++ tail) (some c.keepFirst)
      (some (-(tail.length : ℤ))) = obs ++ middle := by
    rw [Slices.slice_natCast_neg _ (List.length_pos_iff.mpr htail) (by omega), List.length_append,
      Nat.add_sub_cancel, List.take_left, List.drop_left' hhead]
  have hfilter : (obs ++ middle).filter (fun event => !event.isCondensationObservation)
      = middle := by
    rw [List.filter_append, List.filter_eq_nil_iff.mpr (by simpa using hobsType),
      List.filter_eq_self.mpr (by simpa using hmiddleType), List.nil_append]
  simp only [summarizingCondensation, hfirst, hcount, hslice, hfilter, if_neg hbehind]

/-- **The condensation of a view that is too long** is the range of the ids of the middle part. -/
lemma exists_getCondensation {head obs middle tail : List Event}
    (hhead : head.length = c.keepFirst) (hmiddle : middle ≠ []) (htail : tail ≠ [])
    (hlen : c.keepFirst + c.summarySize + tail.length = c.maxSize / 2)
    (hobs : obs.length ≤ c.summarySize)
    (hobsType : ∀ e ∈ obs, e.isCondensationObservation = true)
    (hmiddleType : ∀ e ∈ middle, e.isCondensationObservation = false)
    (hids : ((head ++ middle ++ tail).map Event.id).Nodup) (summary : String) :
    ∃ startId endId, c.getCondensation summary (head ++ (obs ++ middle) ++ tail) =
        .ok ⟨.range startId endId, c.actionSummary summary⟩ ∧
      (∃ e ∈ middle, e.id = startId) ∧ (∃ e ∈ middle, e.id = endId) ∧
      ∀ e ∈ middle, startId ≤ e.id ∧ e.id ≤ endId := by
  obtain ⟨startId, hstart, endId, hend, hmin, hmax, hbounds⟩ :=
    exists_minId_maxId (show middle.map Event.id ≠ [] by simpa using hmiddle)
  refine ⟨startId, endId, ?_, List.mem_map.mp hstart, List.mem_map.mp hend,
    List.forall_mem_map.mp hbounds⟩
  cases hstrategy : c.strategy with
  | amortizedForgetting =>
    have hsize : c.summarySize = 0 := by rw [summarySize, if_pos hstrategy]
    obtain rfl : obs = [] := List.length_eq_zero_iff.mp (by omega)
    rw [List.nil_append, getCondensation, hstrategy, actionSummary, hstrategy]
    dsimp only
    rw [amortizedCondensation_eq hhead htail (by omega) hids, hmin, hmax]
    rfl
  | llmSummarizing =>
    have hsize : c.summarySize = 1 := by rw [summarySize, if_neg (by simp [hstrategy])]
    rw [getCondensation, hstrategy, actionSummary, hstrategy]
    dsimp only
    rw [summarizingCondensation_eq hhead hmiddle htail (by omega) hobsType hmiddleType, hmin, hmax]
    rfl

/-! ## The invariant of a run -/

/-- **What a run keeps**: increasing ids, condensations of the past only, a summary only behind the
first events, and a view that is at most one event too long. -/
structure Settled (c : Condenser) (history : List Event) : Prop where
  sorted : history.Pairwise fun a b => a.id < b.id
  past : ForgetsPast history
  types : ∀ e ∈ history, e.isCondensationObservation = false
  summary : lastSummary history = none ∨ (c.strategy = .llmSummarizing ∧
    ∃ text, lastSummary history = some (text, (c.keepFirst : ℤ)) ∧
      c.keepFirst ≤ (keptEvents history).length)
  size : (fromEvents history).length ≤ c.maxSize + 1

variable {history : List Event} {e : Event}

/-- The view is made of the kept events, with a summary behind the first ones or without. -/
lemma Settled.exists_obs (h : c.Settled history) :
    ∃ obs, fromEvents history = (keptEvents history).take c.keepFirst ++ obs ++
        (keptEvents history).drop c.keepFirst ∧ obs.length ≤ c.summarySize ∧
      ∀ e ∈ obs, e.isCondensationObservation = true := by
  rcases h.summary with hnone | ⟨hstrategy, text, hsome, hle⟩
  · refine ⟨[], ?_, Nat.zero_le _, by simp⟩
    rw [fromEvents, hnone, List.append_nil, List.take_append_drop]
  · refine ⟨[summaryEvent text], ?_, ?_, by simp [summaryEvent, Event.isCondensationObservation]⟩
    · rw [fromEvents, hsome]
      dsimp only
      rw [Slices.insertAt_natCast _ hle, List.append_assoc, List.singleton_append]
    · simp [summarySize, hstrategy]

/-- The last summary behind a condensation is its own. -/
lemma Settled.lastSummary_concat (h : c.Settled history) {ids : ForgottenIds} {summary : String}
    (he : e.condensation? = some ⟨ids, c.actionSummary summary⟩) :
    lastSummary (history ++ [e]) = c.actionSummary summary := by
  have hlast : lastSummary (history ++ [e]) =
      (c.actionSummary summary).or (lastSummary history) := by
    rw [Memory.lastSummary_concat, he]
    rfl
  rw [hlast]
  cases hstrategy : c.strategy with
  | amortizedForgetting =>
    rcases h.summary with hnone | ⟨hsum, -⟩
    · rw [hnone, Option.or_none]
    · simp [hstrategy] at hsum
  | llmSummarizing =>
    rw [actionSummary, hstrategy]
    rfl

/-- **One condensation**: it returns, and the view behind it is the condensed one. -/
lemma Settled.exists_condensed (h : c.Settled history) (htail : c.KeepsTail)
    (hlong : c.shouldCondense (fromEvents history) = true) (summary : String) :
    ∃ startId endId head middle tail,
      c.getCondensation summary (fromEvents history) =
        .ok ⟨.range startId endId, c.actionSummary summary⟩ ∧
      (∃ e ∈ history, e.id = endId) ∧ head.length = c.keepFirst ∧
      c.keepFirst + c.summarySize + tail.length = c.maxSize / 2 ∧
      fromEvents history = head ++ middle ++ tail ∧
      ∀ e : Event, e.condensation? = some ⟨.range startId endId, c.actionSummary summary⟩ →
        (∀ e' ∈ history, e'.id < e.id) →
        keptEvents (history ++ [e]) = head ++ tail ++ [e] ∧
        fromEvents (history ++ [e]) = head ++ c.summaryEvents summary ++ tail ++ [e] := by
  obtain ⟨obs, hview, hobs, hobsType⟩ := h.exists_obs
  have hlt : c.maxSize < (fromEvents history).length := by simpa [shouldCondense] using hlong
  obtain ⟨head, middle, tail, hkept, hparts, hhead, hmiddle, htailNe, hlen⟩ :=
    exists_parts htail hview hobs hlt
  have hmem : ∀ e ∈ middle, e ∈ history := fun e he =>
    List.mem_of_mem_filter (show e ∈ keptEvents history by simp [hkept, he])
  have hids : ((head ++ middle ++ tail).map Event.id).Nodup := by
    rw [← hkept]
    refine (List.pairwise_map.mpr ?_)
    exact (h.sorted.filter _).imp fun hlt => hlt.ne
  obtain ⟨startId, endId, haction, hstart, hend, hbounds⟩ :=
    exists_getCondensation hhead hmiddle htailNe hlen hobs hobsType
      (fun e he => h.types e (hmem e he)) hids summary
  rw [hparts]
  refine ⟨startId, endId, head, obs ++ middle, tail, haction, ?_, hhead, hlen, rfl, ?_⟩
  · obtain ⟨e, he, hid⟩ := hend
    exact ⟨e, hmem e he, hid⟩
  · intro e he hid
    have hkept' := keptEvents_condense h.past hid h.sorted he hkept hstart hend hbounds
    refine ⟨hkept', ?_⟩
    rw [fromEvents, h.lastSummary_concat he, hkept']
    cases hstrategy : c.strategy with
    | amortizedForgetting =>
      rw [actionSummary, hstrategy, summaryEvents, hstrategy]
      simp
    | llmSummarizing =>
      rw [actionSummary, hstrategy, summaryEvents, hstrategy]
      dsimp only
      rw [Slices.insertAt_natCast _ (by simp only [List.length_append]; omega), List.append_assoc,
        List.take_left' hhead, List.drop_left' hhead]
      simp

/-- The view and the condenser agree at every settled history. -/
lemma Settled.agrees (h : c.Settled history) (htail : c.KeepsTail) : c.Agrees history := by
  refine ⟨h.size, fun hlong summary => ?_⟩
  obtain ⟨startId, endId, head, middle, tail, haction, -, hhead, hlen, hview, hnext⟩ :=
    h.exists_condensed htail hlong summary
  have hfirst : (fromEvents history).take c.keepFirst = head := by
    rw [hview, List.append_assoc, List.take_left' hhead]
  refine ⟨_, haction, fun e he hid => ⟨tail, ?_, ?_, ?_⟩⟩
  · rw [hview]
    exact List.suffix_append _ _
  · rw [(hnext e he hid).2, hfirst]
  · rw [hfirst, List.length_append, List.length_append, length_summaryEvents, hhead, hlen]

/-- An ordinary event keeps a run settled. -/
lemma Settled.concat_event (h : c.Settled history)
    (hshort : c.shouldCondense (fromEvents history) = false) (hordinary : e.Ordinary)
    (hid : ∀ e' ∈ history, e'.id < e.id) : c.Settled (history ++ [e]) := by
  have hkept := keptEvents_concat h.past hid hordinary.1
  have hsummary : lastSummary (history ++ [e]) = lastSummary history := by
    rw [Memory.lastSummary_concat, hordinary.1]
    rfl
  have hview : fromEvents (history ++ [e]) = fromEvents history ++ [e] := by
    refine fromEvents_concat h.past hid hordinary.1 fun text offset hlast => ?_
    rcases h.summary with hnone | ⟨-, text', hsome, hle⟩
    · simp [hnone] at hlast
    · obtain ⟨-, rfl⟩ := Prod.mk.inj (Option.some.inj (hsome.symm.trans hlast))
      omega
  have hlen : (fromEvents history).length ≤ c.maxSize := by simpa [shouldCondense] using hshort
  refine ⟨?_, h.past.concat (by simp [hordinary.1]), ?_, ?_, ?_⟩
  · exact List.pairwise_append.mpr ⟨h.sorted, List.pairwise_singleton _ _, by simpa using hid⟩
  · simpa [or_imp, forall_and] using ⟨h.types, hordinary.2⟩
  · rw [hsummary, hkept, List.length_append]
    rcases h.summary with hnone | ⟨hstrategy, text, hsome, hle⟩
    · exact .inl hnone
    · exact .inr ⟨hstrategy, text, hsome, by omega⟩
  · rw [hview, List.length_append, List.length_singleton]
    omega

/-- A condensation keeps a run settled. -/
lemma Settled.concat_condensation (h : c.Settled history) (htail : c.KeepsTail)
    (hlong : c.shouldCondense (fromEvents history) = true) {summary : String}
    {action : CondensationAction}
    (haction : c.getCondensation summary (fromEvents history) = .ok action)
    (he : e.condensation? = some action) (hid : ∀ e' ∈ history, e'.id < e.id) :
    c.Settled (history ++ [e]) := by
  obtain ⟨startId, endId, head, middle, tail, haction', hend, hhead, hlen, hview, hnext⟩ :=
    h.exists_condensed htail hlong summary
  obtain rfl := Except.ok.inj (haction'.symm.trans haction)
  obtain ⟨hkept, hview'⟩ := hnext e he hid
  have hhalf : c.maxSize / 2 ≤ c.maxSize := Nat.div_le_self _ _
  refine ⟨?_, ?_, ?_, ?_, ?_⟩
  · exact List.pairwise_append.mpr ⟨h.sorted, List.pairwise_singleton _ _, by simpa using hid⟩
  · refine h.past.concat fun action hsome id hmem => ?_
    obtain rfl := Option.some.inj (he.symm.trans hsome)
    obtain ⟨last, hlast, rfl⟩ := hend
    exact ⟨last, hlast, (mem_forgotten_range.mp hmem).2⟩
  · have htype : e.isCondensationObservation = false := by
      cases htype : e.type <;> simp_all [Event.condensation?, Event.isCondensationObservation]
    simpa [or_imp, forall_and] using ⟨h.types, htype⟩
  · rw [h.lastSummary_concat he]
    cases hstrategy : c.strategy with
    | amortizedForgetting => exact .inl (by rw [actionSummary, hstrategy])
    | llmSummarizing =>
      refine .inr ⟨rfl, summary, by rw [actionSummary, hstrategy], ?_⟩
      rw [hkept, List.length_append, List.length_append]
      omega
  · rw [hview', List.length_append, List.length_append, List.length_append, length_summaryEvents,
      hhead, hlen, List.length_singleton]
    omega

/-- **Runs are settled**, if the condenser keeps an event of the tail. -/
theorem Run.settled (h : c.Run history) (htail : c.KeepsTail) : c.Settled history := by
  induction h with
  | nil => exact ⟨.nil, by simp [ForgetsPast, forgottenEventIds], by simp, .inl rfl, Nat.zero_le _⟩
  | event _ hshort e hordinary hid ih => exact ih.concat_event hshort hordinary hid
  | condensation _ hlong summary action haction e he hid ih =>
    exact ih.concat_condensation htail hlong haction he hid

/-! ## A condenser that keeps no event of the tail -/

/-- User messages with the ids from 0 on. -/
def numbered (n : ℕ) : List Event :=
  (List.range n).map fun i : ℕ => ⟨i, some .user, none, .message ""⟩

lemma numbered_succ (n : ℕ) :
    numbered (n + 1) = numbered n ++ [⟨n, some .user, none, .message ""⟩] := by
  rw [numbered, List.range_succ, List.map_append]
  rfl

lemma length_numbered (n : ℕ) : (numbered n).length = n := by
  rw [numbered, List.length_map, List.length_range]

/-- Nothing is forgotten of these messages. -/
lemma fromEvents_numbered (n : ℕ) : fromEvents (numbered n) = numbered n := by
  have hnone : ∀ e ∈ numbered n, e.condensation? = none := by
    simp [numbered, Event.condensation?]
  have hforgotten : forgottenEventIds (numbered n) = [] := by
    rw [forgottenEventIds, List.flatMap_eq_nil_iff]
    intro e he
    rw [hnone e he]
    rfl
  have hsummary : lastSummary (numbered n) = none := by
    rw [lastSummary, List.findSome?_eq_none_iff]
    intro e he
    rw [hnone e (List.mem_reverse.mp he)]
    rfl
  rw [fromEvents, hsummary]
  simp [keptEvents, hforgotten]

/-- The messages are appended until the view is too long. -/
lemma run_numbered (n : ℕ) (hn : n ≤ c.maxSize + 1) : c.Run (numbered n) := by
  induction n with
  | zero => exact .nil
  | succ n ih =>
    rw [numbered_succ]
    refine (ih (by omega)).event ?_ _ ⟨rfl, rfl⟩ ?_
    · rw [shouldCondense, fromEvents_numbered, length_numbered]
      simpa using hn
    · simp [numbered]

/-- Without an event of the tail, the slice of the forgotten events is empty. -/
lemma summarizingCondensation_of_not_keepsTail (htail : ¬ c.KeepsTail) {view : List Event}
    (hlong : c.shouldCondense view = true) (summary : String) :
    c.getCondensation summary view = .error (.valueError "min() arg is an empty sequence") := by
  have hlt := c.keepFirst_lt
  have hlen : c.maxSize < view.length := by simpa [shouldCondense] using hlong
  rw [KeepsTail, not_or] at htail
  have hstrategy : c.strategy = .llmSummarizing := by
    cases hstrategy : c.strategy with
    | amortizedForgetting => exact absurd hstrategy htail.1
    | llmSummarizing => rfl
  have hhalf : c.maxSize / 2 = c.keepFirst + 1 := by omega
  have hcount : ((c.maxSize / 2 : ℕ) : ℤ) - (view.take c.keepFirst).length - 1 = 0 := by
    rw [List.length_take]
    omega
  have hbehind : ¬ view.length ≤ c.keepFirst := by omega
  rw [getCondensation, hstrategy]
  simp only [summarizingCondensation, Slices.slice_none_natCast, hcount, Slices.slice_neg_zero,
    if_neg hbehind]
  rfl

/-- **The view and the condenser agree over all runs** exactly if the condenser keeps an event of
the tail. -/
theorem agrees_iff (c : Condenser) :
    (∀ history, c.Run history → c.Agrees history) ↔ c.KeepsTail := by
  constructor
  · intro h
    by_contra htail
    have hlong : c.shouldCondense (fromEvents (numbered (c.maxSize + 1))) = true := by
      simp [shouldCondense, fromEvents_numbered, length_numbered]
    obtain ⟨action, haction, -⟩ := (h _ (run_numbered _ le_rfl)).2 hlong ""
    rw [summarizingCondensation_of_not_keepsTail htail hlong] at haction
    cases haction
  · intro htail history hrun
    exact (hrun.settled htail).agrees htail

/-- The smallest summarizing condenser. -/
def smallest : Condenser := ⟨.llmSummarizing, 2, 0, by decide⟩

/-- **A condensation that raises**: three events are too many for the smallest condenser, and it
keeps none of their tail. -/
theorem not_agrees_smallest : init .llmSummarizing 2 0 = .ok smallest ∧
    smallest.Run (numbered 3) ∧ smallest.shouldCondense (fromEvents (numbered 3)) = true ∧
    smallest.getCondensation "" (fromEvents (numbered 3)) =
      .error (.valueError "min() arg is an empty sequence") ∧
    ¬ smallest.Agrees (numbered 3) := by
  have hraises : smallest.getCondensation "" (fromEvents (numbered 3)) =
      .error (.valueError "min() arg is an empty sequence") := by decide
  refine ⟨rfl, run_numbered 3 (by decide), by decide, hraises, fun h => ?_⟩
  obtain ⟨action, haction, -⟩ := h.2 (by decide) ""
  rw [hraises] at haction
  cases haction

end Condenser

end ProRLAgent.Memory
