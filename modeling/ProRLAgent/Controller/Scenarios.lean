import ProRLAgent.Controller.Stuck

set_option relaxedAutoImplicit false
set_option autoImplicit false

/-!
# What the loop detectors look for

Each scenario of the loop detectors returns, and reports exactly a property of the events that it
looks at. The properties are stated without indices: events that are like the first one, contents
whose error lines are the same, messages without an observation between them.

## Main definitions

* `ProRLAgent.Stuck.LikeFirst`, `ProRLAgent.Stuck.EveryOther` — repeated events.
* `ProRLAgent.Stuck.ErrorLoop` — observations with the same error.
* `ProRLAgent.Stuck.Monologue` — equal messages without an observation between them.
* `ProRLAgent.Stuck.Repeats` — what the strict detector reports.

## Main results

* `ProRLAgent.Stuck.collectLast_eq` — the loop takes the last actions and observations.
* `ProRLAgent.Stuck.decides_isStuck`, `ProRLAgent.Stuck.decides_strictIsStuck` — what the detectors
  report.
-/

namespace ProRLAgent.Stuck

open Except (Decides decides_pure)
open PyText (strip)

variable {φ : Type}

/-! ## Items of lists -/

/-- An item that is there. -/
lemma item_natCast {α : Type} {l : List α} {k : ℕ} {a : α} (h : l[k]? = some a) :
    item l k = .ok a := by
  rw [item, Slices.item?_natCast, h]

/-- An item that is counted from the end. -/
lemma item_neg {α : Type} {l : List α} {k : ℕ} (hpos : 0 < k) {a : α} (hk : k ≤ l.length)
    (h : l[l.length - k]? = some a) : item l (-k) = .ok a := by
  rw [item, Slices.item?_neg l hpos hk, h]

/-- The positions of selected elements increase. -/
lemma pairwise_filter_zipIdx {α : Type} (l : List α) (p : α × ℕ → Bool) :
    (l.zipIdx.filter p).Pairwise fun x y => x.2 < y.2 := by
  have hall : l.zipIdx.Pairwise fun x y => x.2 < y.2 := by
    rw [← List.pairwise_map, List.zipIdx_map_snd]
    exact List.pairwise_lt_range'
  exact hall.filter _

/-- The selected elements without their positions. -/
lemma map_fst_filter_zipIdx {α : Type} (l : List α) (p : α → Bool) :
    (l.zipIdx.filter fun x => p x.1).map Prod.fst = l.filter p := by
  conv_rhs => rw [← List.zipIdx_map_fst 0 l, List.filter_map]
  rfl

/-! ## The last actions and observations -/

/-- The last actions, from the end. -/
def lastActions (n : ℕ) (events : List (Event φ)) : List (Event φ) :=
  (events.filter Event.isAction).reverse.take n

/-- The last observations, from the end. -/
def lastObservations (n : ℕ) (events : List (Event φ)) : List (Event φ) :=
  (events.filter Event.isObservation).reverse.take n

lemma lastActions_take {n k : ℕ} (hk : k ≤ n) (events : List (Event φ)) :
    (lastActions n events).take k = lastActions k events := by
  rw [lastActions, List.take_take, Nat.min_eq_left hk, lastActions]

lemma lastObservations_take {n k : ℕ} (hk : k ≤ n) (events : List (Event φ)) :
    (lastObservations n events).take k = lastObservations k events := by
  rw [lastObservations, List.take_take, Nat.min_eq_left hk, lastObservations]

/-- An action is no observation. -/
lemma Event.isObservation_of_isAction {event : Event φ} (h : event.isAction = true) :
    event.isObservation = false := by
  obtain ⟨source, body⟩ := event
  cases body <;> first | rfl | cases h

/-- The loop, from two lists that are not too long. -/
lemma collectLast_append (n : ℕ) {events as os : List (Event φ)} (ha : as.length ≤ n)
    (ho : os.length ≤ n) : collectLast n events as os =
      (as ++ (events.filter Event.isAction).take (n - as.length),
        os ++ (events.filter Event.isObservation).take (n - os.length)) := by
  induction events generalizing as os with
  | nil => simp [collectLast]
  | cons event events ih =>
    -- The loop stops early only if nothing is missing.
    have hrest : ∀ {as os : List (Event φ)}, as.length ≤ n → os.length ≤ n →
        (if as.length = n ∧ os.length = n then (as, os) else collectLast n events as os) =
          (as ++ (events.filter Event.isAction).take (n - as.length),
            os ++ (events.filter Event.isObservation).take (n - os.length)) := by
      intro as os ha ho
      split_ifs with hfull
      · simp [hfull.1, hfull.2]
      · exact ih ha ho
    rw [collectLast]
    by_cases haction : event.isAction = true
    · have hobs := Event.isObservation_of_isAction haction
      by_cases hroom : as.length < n
      · obtain ⟨k, hk⟩ : ∃ k, n - as.length = k + 1 := ⟨n - as.length - 1, by omega⟩
        have hk' : n - (as ++ [event]).length = k := by
          rw [List.length_append, List.length_singleton]
          omega
        simp only [haction, hroom, and_self, if_true]
        rw [hrest (by simp; omega) ho, List.filter_cons_of_pos haction,
          List.filter_cons_of_neg (by simp [hobs]), hk, hk', List.take_succ_cons,
          List.append_assoc, List.singleton_append]
      · have hfull : n - as.length = 0 := by omega
        simp only [haction, hroom, hobs, and_false, Bool.false_eq_true, false_and, if_false]
        rw [hrest ha ho, List.filter_cons_of_neg (p := Event.isObservation) (by simp [hobs]), hfull,
          List.take_zero, List.take_zero]
    · by_cases hobs : event.isObservation = true
      · by_cases hroom : os.length < n
        · obtain ⟨k, hk⟩ : ∃ k, n - os.length = k + 1 := ⟨n - os.length - 1, by omega⟩
          have hk' : n - (os ++ [event]).length = k := by
            rw [List.length_append, List.length_singleton]
            omega
          simp only [haction, Bool.false_eq_true, false_and, if_false, hobs, hroom, and_self,
            if_true]
          rw [hrest ha (by simp; omega), List.filter_cons_of_neg haction,
            List.filter_cons_of_pos hobs, hk, hk', List.take_succ_cons, List.append_assoc,
            List.singleton_append]
        · have hfull : n - os.length = 0 := by omega
          simp only [haction, Bool.false_eq_true, false_and, if_false, hroom, and_false]
          rw [hrest ha ho, List.filter_cons_of_neg haction, hfull, List.take_zero, List.take_zero]
      · simp only [haction, hobs, Bool.false_eq_true, false_and, if_false]
        rw [hrest ha ho, List.filter_cons_of_neg haction, List.filter_cons_of_neg hobs]

/-- **The loop takes the last actions and observations.** -/
theorem collectLast_eq (n : ℕ) (events : List (Event φ)) :
    collectLast n events.reverse [] [] = (lastActions n events, lastObservations n events) := by
  rw [collectLast_append n (Nat.zero_le _) (Nat.zero_le _), List.filter_reverse, List.filter_reverse]
  rfl

section Compare

variable [DecidableEq φ]

/-! ## Repeated events -/

/-- All events are like the first one. -/
def LikeFirst (events : List (Event φ)) : Prop :=
  ∀ first ∈ events.head?, ∀ event ∈ events, eqNoPid first event = true

/-- Six events in which two alternate. -/
def EveryOther (events : List (Event φ)) : Prop :=
  ∃ a b a' b' a'' b'', events = [a, b, a', b', a'', b''] ∧ eqNoPid a a' = true ∧
    eqNoPid a a'' = true ∧ eqNoPid b b' = true ∧ eqNoPid b b'' = true

lemma decides_allEqNoPid (events : List (Event φ)) :
    Decides (allEqNoPid events) (LikeFirst events) := by
  cases events with
  | nil => exact (decides_pure true).congr (by simp [LikeFirst])
  | cons first events =>
    have hfirst : item (first :: events) 0 = .ok first := item_natCast (k := 0) rfl
    refine (Decides.allM (p := fun event => eqNoPid first event = true) fun event _ => ?_).congr ?_
    · rw [hfirst]
      exact decides_pure _
    · simp [LikeFirst]

/-- Fewer events that are like the first one. -/
lemma LikeFirst.take {events : List (Event φ)} (h : LikeFirst events) (k : ℕ) :
    LikeFirst (events.take k) := by
  cases events with
  | nil => simp [LikeFirst]
  | cons first events =>
    cases k with
    | zero => simp [LikeFirst]
    | succ k =>
      intro first' hfirst event hevent
      obtain rfl : first = first' := by simpa using hfirst
      exact h first rfl event (List.mem_of_mem_take hevent)

lemma decides_allEveryOther {events : List (Event φ)} (h : events.length = 6) :
    Decides (allEveryOther events) (EveryOther events) := by
  obtain ⟨a, b, a', b', a'', b'', rfl⟩ : ∃ a b a' b' a'' b'', events = [a, b, a', b', a'', b''] := by
    rcases events with _ | ⟨a, _ | ⟨b, _ | ⟨a', _ | ⟨b', _ | ⟨a'', _ | ⟨b'', _ | _⟩⟩⟩⟩⟩⟩
    all_goals first | exact ⟨_, _, _, _, _, _, rfl⟩ | simp at h
  refine (Decides.allM (p := fun ij : ℤ × ℤ => ∃ x y, item [a, b, a', b', a'', b''] ij.1 = .ok x ∧
    item [a, b, a', b', a'', b''] ij.2 = .ok y ∧ eqNoPid x y = true) ?_).congr ?_
  · have hitem : ∀ {i j : ℤ} {x y : Event φ}, item [a, b, a', b', a'', b''] i = .ok x →
        item [a, b, a', b', a'', b''] j = .ok y →
        Decides (do
          let obj1 ← item [a, b, a', b', a'', b''] i
          let obj2 ← item [a, b, a', b', a'', b''] j
          return eqNoPid obj1 obj2) (∃ x y, item [a, b, a', b', a'', b''] i = .ok x ∧
            item [a, b, a', b', a'', b''] j = .ok y ∧ eqNoPid x y = true) := by
      intro i j x y hx hy
      rw [hx, hy]
      exact (decides_pure (eqNoPid x y)).congr (by simp)
    intro ij hij
    simp only [List.mem_cons, List.not_mem_nil, or_false] at hij
    rcases hij with rfl | rfl | rfl | rfl <;> exact hitem rfl rfl
  · simp only [List.forall_mem_cons, List.not_mem_nil, false_imp_iff, implies_true, and_true]
    constructor
    · rintro ⟨⟨_, _, h1, h2, h02⟩, ⟨_, _, h3, h4, h04⟩, ⟨_, _, h5, h6, h13⟩, ⟨_, _, h7, h8, h15⟩⟩
      cases h1; cases h2; cases h3; cases h4; cases h5; cases h6; cases h7; cases h8
      exact ⟨a, b, a', b', a'', b'', rfl, h02, h04, h13, h15⟩
    · rintro ⟨_, _, _, _, _, _, heq, h02, h04, h13, h15⟩
      cases heq
      exact ⟨⟨_, _, rfl, rfl, h02⟩, ⟨_, _, rfl, rfl, h04⟩, ⟨_, _, rfl, rfl, h13⟩,
        ⟨_, _, rfl, rfl, h15⟩⟩

/-- The same steps. -/
lemma decides_isStuckRepeatingActionObservation (n : ℕ) (as os : List (Event φ)) :
    Decides (isStuckRepeatingActionObservation n as os)
      ((as.length = n ∧ os.length = n) ∧ LikeFirst as ∧ LikeFirst os) := by
  refine (Decides.ite (P := LikeFirst as ∧ LikeFirst os) (Q := False) (fun _ => ?_) fun _ => ?_).congr
    (by simp)
  · obtain ⟨b, hb, hiff⟩ := decides_allEqNoPid as
    obtain ⟨b', hb', hiff'⟩ := decides_allEqNoPid os
    rw [hb, hb']
    exact (decides_pure (b && b')).congr (by rw [Bool.and_eq_true, hiff, hiff'])
  · exact (decides_pure false).congr (by simp)

/-- **The pattern.** -/
lemma decides_isStuckActionObservationPattern (events : List (Event φ)) :
    Decides (isStuckActionObservationPattern events)
      (EveryOther (lastActions 6 events) ∧ EveryOther (lastObservations 6 events)) := by
  have hlen : ∀ {events : List (Event φ)}, EveryOther events → events.length = 6 := by
    rintro events ⟨_, _, _, _, _, _, rfl, -⟩
    rfl
  rw [isStuckActionObservationPattern, collectLast_eq]
  refine (Decides.ite (P := EveryOther (lastActions 6 events) ∧ EveryOther (lastObservations 6 events))
    (Q := False) (fun hlen => ?_) fun _ => ?_).congr ?_
  · obtain ⟨b, hb, hiff⟩ := decides_allEveryOther hlen.1
    obtain ⟨b', hb', hiff'⟩ := decides_allEveryOther hlen.2
    rw [hb, hb']
    exact (decides_pure (b && b')).congr (by rw [Bool.and_eq_true, hiff, hiff'])
  · exact (decides_pure false).congr (by simp)
  · simp only [and_false, or_false, and_iff_right_iff_imp]
    exact fun h => ⟨hlen h.1, hlen h.2⟩

end Compare

/-! ## Errors of the interpreter -/

/-- All texts are the same one. -/
def Uniform (texts : List (List Char)) : Prop := texts ≠ [] ∧ ∀ a ∈ texts, ∀ b ∈ texts, a = b

/-- A set with one element. -/
lemma dedup_length_eq_one_iff {texts : List (List Char)} :
    texts.dedup.length = 1 ↔ Uniform texts := by
  rw [List.length_eq_one_iff]
  constructor
  · rintro ⟨c, hc⟩
    have hmem : ∀ a ∈ texts, a = c := fun a ha => by
      simpa [hc] using List.mem_dedup.mpr ha
    refine ⟨?_, fun a ha b hb => (hmem a ha).trans (hmem b hb).symm⟩
    rintro rfl
    cases hc
  · rintro ⟨hne, hall⟩
    obtain ⟨c, texts, rfl⟩ := List.exists_cons_of_ne_nil hne
    have hrepeat : c :: texts = List.replicate (texts.length + 1) c :=
      List.eq_replicate_of_mem fun a ha => hall a ha c (by simp)
    exact ⟨c, by rw [hrepeat, List.replicate_dedup (Nat.succ_ne_zero _)]⟩

/-- A part that is not empty. -/
lemma Uniform.subset {texts part : List (List Char)} (h : Uniform texts) (hsub : part ⊆ texts)
    (hne : part ≠ []) : Uniform part :=
  ⟨hne, fun a ha b hb => h.2 a (hsub ha) b (hsub hb)⟩

/-- The line `k` from the end of a content. -/
def lineFromEnd (k : ℕ) (content : List Char) : List Char :=
  ((lines content)[(lines content).length - k]?).getD []

/-- The first line of a content. -/
def firstLine (content : List Char) : List Char := strip (((lines content)[0]?).getD [])

/-- The last two lines are those of the runtime. -/
def HasTrailer (content : List Char) : Prop :=
  interpreterStart <+: lineFromEnd 1 content ∧ directoryStart <+: lineFromEnd 2 content

instance (content : List Char) : Decidable (HasTrailer content) := by
  unfold HasTrailer
  infer_instance

lemma item_lines {content : List Char} {k : ℕ} (hpos : 0 < k) (hk : k ≤ (lines content).length) :
    item (lines content) (-k) = .ok (lineFromEnd k content) := by
  refine item_neg hpos hk ?_
  rw [lineFromEnd, List.getElem?_eq_getElem (by omega), Option.getD_some]

/-- The observation looks like a syntax error. -/
def LooksLikeError (content : List Char) : Prop :=
  6 ≤ (lines content).length ∧ cellStart <+: firstLine content

instance (content : List Char) : Decidable (LooksLikeError content) := by
  unfold LooksLikeError
  infer_instance

/-- The message is in the last line of the error. -/
def HasMessage (errorMessage content : List Char) : Prop :=
  HasTrailer content ∧ errorMessage <:+: lineFromEnd 3 content

instance (errorMessage content : List Char) : Decidable (HasMessage errorMessage content) := by
  unfold HasMessage
  infer_instance

/-- **Consistent invalid syntax**: all observations look like syntax errors with the same first line,
and `n` of them have the message in the same line. -/
structure InvalidSyntax (n : ℕ) (errorMessage : List Char) (contents : List (List Char)) : Prop where
  errors : ∀ content ∈ contents, LooksLikeError content
  first : Uniform (contents.map firstLine)
  count : (contents.filter fun content => decide (HasMessage errorMessage content)).length = n
  same : Uniform ((contents.filter fun content => decide (HasMessage errorMessage content)).map
    (lineFromEnd 3))

/-- The observation ends with the lines of the runtime. -/
def IsOutput (content : List Char) : Prop := 3 ≤ (lines content).length ∧ HasTrailer content

instance (content : List Char) : Decidable (IsOutput content) := by
  unfold IsOutput
  infer_instance

/-- **A consistent line error**: all observations have the lines of the runtime, and the message is
in the same line of `n` of them. -/
structure LineError (n : ℕ) (errorMessage : List Char) (contents : List (List Char)) : Prop where
  outputs : ∀ content ∈ contents, IsOutput content
  count : ((contents.map (lineFromEnd 3)).filter fun line =>
    decide (errorMessage <:+: line)).length = n
  same : Uniform ((contents.map (lineFromEnd 3)).filter fun line => decide (errorMessage <:+: line))

lemma invalidSyntaxStep_eq (errorMessage content : List Char) :
    invalidSyntaxStep errorMessage content = .ok (if LooksLikeError content then
      some (firstLine content, decide (HasMessage errorMessage content)) else none) := by
  rw [invalidSyntaxStep]
  simp only
  by_cases hlen : (lines content).length < 6
  · rw [if_pos hlen, if_neg fun h => absurd h.1 (by omega)]
    rfl
  · have hfirst : item (lines content) 0 = .ok (((lines content)[0]?).getD []) := by
      refine item_natCast (k := 0) ?_
      rw [List.getElem?_eq_getElem (by omega), Option.getD_some]
    have hlast : item (lines content) (-1) = .ok (lineFromEnd 1 content) :=
      item_lines (k := 1) (by decide) (by omega)
    have hbefore : item (lines content) (-2) = .ok (lineFromEnd 2 content) :=
      item_lines (k := 2) (by decide) (by omega)
    have herror : item (lines content) (-3) = .ok (lineFromEnd 3 content) :=
      item_lines (k := 3) (by decide) (by omega)
    rw [if_neg hlen, hfirst, Except.ok_bind, ← firstLine]
    by_cases hcell : cellStart <+: firstLine content
    · rw [if_neg (not_not.mpr hcell), if_pos ⟨by omega, hcell⟩, hlast, Except.ok_bind, hbefore,
        Except.ok_bind, herror, Except.ok_bind]
      by_cases hinterpreter : interpreterStart <+: lineFromEnd 1 content
      · by_cases hdirectory : directoryStart <+: lineFromEnd 2 content
        · simp [HasMessage, HasTrailer, hinterpreter, hdirectory, pure, Except.pure]
        · simp [HasMessage, HasTrailer, hinterpreter, hdirectory, pure, Except.pure]
      · simp [HasMessage, HasTrailer, hinterpreter, pure, Except.pure]
    · rw [if_pos hcell, if_neg fun h => hcell h.2]
      rfl

lemma invalidSyntaxLoop_eq (errorMessage : List Char) (contents : List (List Char)) :
    invalidSyntaxLoop errorMessage contents =
      .ok (if ∀ content ∈ contents, LooksLikeError content then
        some (contents.map firstLine,
          contents.filter fun content => decide (HasMessage errorMessage content)) else none) := by
  induction contents with
  | nil => rfl
  | cons content contents ih =>
    rw [invalidSyntaxLoop, invalidSyntaxStep_eq, Except.ok_bind]
    by_cases hcontent : LooksLikeError content
    · rw [if_pos hcontent]
      simp only
      rw [ih, Except.ok_bind]
      by_cases hrest : ∀ content ∈ contents, LooksLikeError content
      · rw [if_pos hrest, if_pos (List.forall_mem_cons.mpr ⟨hcontent, hrest⟩), List.filter_cons]
        rfl
      · rw [if_neg hrest, if_neg fun h => hrest (List.forall_mem_cons.mp h).2]
        rfl
    · rw [if_neg hcontent, if_neg fun h => hcontent (List.forall_mem_cons.mp h).1]
      rfl

/-- The last line that is read without the lines of the runtime. -/
lemma item_slice_lines {content : List Char} (h : 3 ≤ (lines content).length) :
    item (Slices.slice (lines content) none (some (-2))) (-1) = .ok (lineFromEnd 3 content) := by
  have hslice : Slices.slice (lines content) none (some (-2)) =
      (lines content).take ((lines content).length - 2) := by
    have hbound := Slices.bound_neg (n := (lines content).length) (k := 2) (by decide)
    simp only [Slices.slice, Option.map_some, Option.map_none, Option.getD_some, Option.getD_none,
      List.drop_zero]
    rw [← hbound]
    rfl
  have hlen : ((lines content).take ((lines content).length - 2)).length =
      (lines content).length - 2 := by
    rw [List.length_take]
    omega
  have hindex : (lines content).length - 2 - 1 = (lines content).length - 3 := by omega
  rw [hslice]
  refine item_neg (k := 1) (by decide) (by omega) ?_
  rw [hlen, List.getElem?_take_of_lt (by omega), hindex, lineFromEnd,
    List.getElem?_eq_getElem (by omega), Option.getD_some]

lemma decides_checkForConsistentInvalidSyntax (n : ℕ) (contents : List (List Char))
    (errorMessage : List Char) :
    Decides (checkForConsistentInvalidSyntax n contents errorMessage)
      (InvalidSyntax n errorMessage contents) := by
  rw [checkForConsistentInvalidSyntax, invalidSyntaxLoop_eq, Except.ok_bind]
  by_cases herrors : ∀ content ∈ contents, LooksLikeError content
  · rw [if_pos herrors]
    simp only
    set valid := contents.filter fun content => decide (HasMessage errorMessage content) with hvalid
    have hread : (valid.mapM fun content =>
        item (Slices.slice (lines content) none (some (-2))) (-1)) =
          .ok (valid.map (lineFromEnd 3)) := by
      rw [Except.mapM_eq_ok_iff, List.forall₂_map_right_iff, List.forall₂_same]
      intro content hcontent
      have := (herrors content (List.mem_of_mem_filter hcontent)).1
      exact item_slice_lines (by omega)
    rw [hread, Except.ok_bind]
    refine (Decides.ite (P := Uniform (valid.map (lineFromEnd 3))) (Q := False) (fun _ => ?_)
      fun _ => ?_).congr ?_
    · refine (decides_pure _).congr ?_
      rw [decide_eq_true_eq, dedup_length_eq_one_iff]
    · exact (decides_pure false).congr (by simp)
    · rw [dedup_length_eq_one_iff]
      constructor
      · rintro (⟨⟨hfirst, hcount⟩, hsame⟩ | ⟨-, hfalse⟩)
        · exact ⟨herrors, hfirst, hcount, hsame⟩
        · exact hfalse.elim
      · intro h
        exact .inl ⟨⟨h.first, h.count⟩, h.same⟩
  · rw [if_neg herrors]
    exact (decides_pure false).congr ⟨fun h => absurd h (by simp), fun h => absurd h.errors herrors⟩

lemma lineErrorStep_eq (errorMessage content : List Char) :
    lineErrorStep errorMessage content =
      .ok (if IsOutput content then
        some (if errorMessage <:+: lineFromEnd 3 content then [lineFromEnd 3 content] else [])
      else none) := by
  rw [lineErrorStep]
  simp only
  by_cases hlen : (lines content).length < 3
  · rw [if_pos hlen, if_neg fun h => absurd h.1 (by omega)]
    rfl
  · rw [if_neg hlen]
    -- The last three lines are counted from the end, like all of them.
    have hslice : Slices.slice (lines content) (some (-3)) none =
        (lines content).drop ((lines content).length - 3) :=
      Slices.slice_neg_none (lines content) (n := 3) (by decide)
    have hlength : ((lines content).drop ((lines content).length - 3)).length = 3 := by
      rw [List.length_drop]
      omega
    have hitem : ∀ k : ℕ, 0 < k → k ≤ 3 →
        item ((lines content).drop ((lines content).length - 3)) (-k) =
          .ok (lineFromEnd k content) := by
      intro k hpos hk
      have hindex : (lines content).length - 3 + (3 - k) = (lines content).length - k := by omega
      refine item_neg hpos (by omega) ?_
      rw [hlength, List.getElem?_drop, hindex, lineFromEnd, List.getElem?_eq_getElem (by omega),
        Option.getD_some]
    set lastLines := (lines content).drop ((lines content).length - 3)
    have hlast : item lastLines (-1) = .ok (lineFromEnd 1 content) :=
      hitem 1 (by decide) (by decide)
    have hbefore : item lastLines (-2) = .ok (lineFromEnd 2 content) :=
      hitem 2 (by decide) (by decide)
    have herror : item lastLines (-3) = .ok (lineFromEnd 3 content) :=
      hitem 3 (by decide) (by decide)
    rw [hslice, hbefore, Except.ok_bind]
    by_cases hdirectory : directoryStart <+: lineFromEnd 2 content
    · rw [if_neg (not_not.mpr hdirectory), hlast, Except.ok_bind]
      by_cases hinterpreter : interpreterStart <+: lineFromEnd 1 content
      · have houtput : IsOutput content := ⟨by omega, hinterpreter, hdirectory⟩
        rw [if_neg (not_not.mpr hinterpreter), herror, Except.ok_bind, if_pos houtput]
        rfl
      · rw [if_pos hinterpreter, if_neg fun h => hinterpreter h.2.1]
        rfl
    · rw [if_pos hdirectory, if_neg fun h => hdirectory h.2.2]
      rfl

lemma lineErrorLoop_eq (errorMessage : List Char) (contents : List (List Char)) :
    lineErrorLoop errorMessage contents =
      .ok (if ∀ content ∈ contents, IsOutput content then
        some ((contents.map (lineFromEnd 3)).filter fun line => decide (errorMessage <:+: line))
      else none) := by
  induction contents with
  | nil => rfl
  | cons content contents ih =>
    rw [lineErrorLoop, lineErrorStep_eq, Except.ok_bind]
    by_cases hcontent : IsOutput content
    · rw [if_pos hcontent]
      simp only
      rw [ih, Except.ok_bind]
      by_cases hrest : ∀ content ∈ contents, IsOutput content
      · rw [if_pos hrest, if_pos (List.forall_mem_cons.mpr ⟨hcontent, hrest⟩), List.map_cons,
          List.filter_cons]
        by_cases hmessage : errorMessage <:+: lineFromEnd 3 content
        · simp only [hmessage, if_true, decide_true]
          rfl
        · simp only [hmessage, if_false, decide_false, Bool.false_eq_true]
          rfl
      · rw [if_neg hrest, if_neg fun h => hrest (List.forall_mem_cons.mp h).2]
        rfl
    · rw [if_neg hcontent, if_neg fun h => hcontent (List.forall_mem_cons.mp h).1]
      rfl

lemma decides_checkForConsistentLineError (n : ℕ) (contents : List (List Char))
    (errorMessage : List Char) :
    Decides (checkForConsistentLineError n contents errorMessage)
      (LineError n errorMessage contents) := by
  rw [checkForConsistentLineError, lineErrorLoop_eq, Except.ok_bind]
  by_cases houtputs : ∀ content ∈ contents, IsOutput content
  · rw [if_pos houtputs]
    refine (decides_pure _).congr ?_
    rw [decide_eq_true_eq, dedup_length_eq_one_iff]
    exact ⟨fun h => ⟨houtputs, h.1, h.2⟩, fun h => ⟨h.count, h.same⟩⟩
  · rw [if_neg houtputs]
    exact (decides_pure false).congr
      ⟨fun h => absurd h (by simp), fun h => absurd h.outputs houtputs⟩

/-- A filter that keeps as much as there is keeps everything. -/
lemma filter_eq_self_of_length {α : Type} {l : List α} {p : α → Bool}
    (h : (l.filter p).length = l.length) : l.filter p = l :=
  List.filter_sublist.eq_of_length h

/-- **Fewer observations** of a consistent line error. -/
lemma LineError.take {n : ℕ} {errorMessage : List Char} {contents : List (List Char)}
    (h : LineError n errorMessage contents) (hlen : contents.length = n) {k : ℕ} (hpos : 0 < k)
    (hk : k ≤ n) : LineError k errorMessage (contents.take k) := by
  have hall := filter_eq_self_of_length (h.count.trans (by rw [List.length_map, hlen]))
  have hpart : ((contents.take k).map (lineFromEnd 3)).filter (fun line =>
      decide (errorMessage <:+: line)) = (contents.take k).map (lineFromEnd 3) := by
    refine List.filter_eq_self.mpr fun line hline => List.filter_eq_self.mp hall line ?_
    rw [List.map_take] at hline
    exact List.mem_of_mem_take hline
  have hcount : ((contents.take k).map (lineFromEnd 3)).length = k := by
    rw [List.length_map, List.length_take]
    omega
  refine ⟨fun content hcontent => h.outputs content (List.mem_of_mem_take hcontent), ?_, ?_⟩
  · rw [hpart, hcount]
  · rw [hpart]
    have hsame := h.same
    rw [hall] at hsame
    refine hsame.subset (fun line hline => ?_) (List.ne_nil_of_length_pos (by omega))
    rw [List.map_take] at hline
    exact List.mem_of_mem_take hline

/-- **Fewer observations** of a consistent invalid syntax. -/
lemma InvalidSyntax.take {n : ℕ} {errorMessage : List Char} {contents : List (List Char)}
    (h : InvalidSyntax n errorMessage contents) (hlen : contents.length = n) {k : ℕ} (hpos : 0 < k)
    (hk : k ≤ n) : InvalidSyntax k errorMessage (contents.take k) := by
  have hall := filter_eq_self_of_length (h.count.trans hlen.symm)
  have hpart : (contents.take k).filter (fun content => decide (HasMessage errorMessage content)) =
      contents.take k :=
    List.filter_eq_self.mpr fun content hcontent =>
      List.filter_eq_self.mp hall content (List.mem_of_mem_take hcontent)
  have hcount : (contents.take k).length = k := by
    rw [List.length_take]
    omega
  have hne : ∀ f : List Char → List Char, (contents.take k).map f ≠ [] := fun f =>
    List.ne_nil_of_length_pos (by rw [List.length_map]; omega)
  have hsub : ∀ f : List Char → List Char, (contents.take k).map f ⊆ contents.map f := by
    intro f line hline
    rw [List.map_take] at hline
    exact List.mem_of_mem_take hline
  have hsame := h.same
  rw [hall] at hsame
  refine ⟨fun content hcontent => h.errors content (List.mem_of_mem_take hcontent),
    h.first.subset (hsub _) (hne _), ?_, ?_⟩
  · rw [hpart, hcount]
  · rw [hpart]
    exact hsame.subset (hsub _) (hne _)

/-- **Observations with errors**: all are errors, or all are outputs of the interpreter with the
same syntax error. -/
def ErrorLoop (n : ℕ) (observations : List (Event φ)) : Prop :=
  (∀ obs ∈ observations, obs.isError = true) ∨
    (∀ obs ∈ observations, obs.ipythonContent?.isSome = true) ∧
      (LineError n unterminatedString (observations.filterMap Event.ipythonContent?) ∨
        InvalidSyntax n forgottenComma (observations.filterMap Event.ipythonContent?) ∨
        InvalidSyntax n incompleteInput (observations.filterMap Event.ipythonContent?))

/-- **Fewer observations** with errors. -/
lemma ErrorLoop.take {n : ℕ} {observations : List (Event φ)} (h : ErrorLoop n observations)
    (hlen : observations.length = n) {k : ℕ} (hpos : 0 < k) (hk : k ≤ n) :
    ErrorLoop k (observations.take k) := by
  rcases h with h | ⟨hall, h⟩
  · exact .inl fun obs hobs => h obs (List.mem_of_mem_take hobs)
  · -- All observations have a content, so the first contents are those of the first observations.
    obtain ⟨contents, hcontents⟩ : ∃ contents : List (List Char),
        observations.map Event.ipythonContent? = contents.map some := by
      refine ⟨observations.filterMap Event.ipythonContent?, ?_⟩
      clear hlen h
      induction observations with
      | nil => rfl
      | cons obs observations ih =>
        obtain ⟨hobs, hrest⟩ := List.forall_mem_cons.mp hall
        obtain ⟨content, hcontent⟩ := Option.isSome_iff_exists.mp hobs
        rw [List.map_cons, hcontent, List.filterMap_cons_some hcontent, List.map_cons, ih hrest]
    have hread : ∀ observations : List (Event φ), observations.filterMap Event.ipythonContent? =
        (observations.map Event.ipythonContent?).filterMap id := fun observations => by
      rw [List.filterMap_map]
      rfl
    have hwhole : observations.filterMap Event.ipythonContent? = contents := by
      rw [hread, hcontents, List.filterMap_map]
      exact List.filterMap_some
    have hpart : (observations.take k).filterMap Event.ipythonContent? = contents.take k := by
      rw [hread, List.map_take, hcontents, ← List.map_take, List.filterMap_map]
      exact List.filterMap_some
    have hcount : contents.length = n := by
      rw [← hlen, ← List.length_map (f := Event.ipythonContent?), hcontents, List.length_map]
    rw [hwhole] at h
    refine .inr ⟨fun obs hobs => hall obs (List.mem_of_mem_take hobs), ?_⟩
    rw [hpart]
    exact h.imp (fun h => h.take hcount hpos hk)
      (Or.imp (fun h => h.take hcount hpos hk) fun h => h.take hcount hpos hk)

/-- **Equal actions with errors.** -/
lemma decides_repeatingActionError [DecidableEq φ] (n : ℕ) (as os : List (Event φ)) :
    Decides (repeatingActionError n as os) (LikeFirst as ∧ ErrorLoop n os) := by
  rw [repeatingActionError]
  refine ((decides_allEqNoPid as).bind (Q := ErrorLoop n os) (R := False) (fun _ => ?_)
    fun _ => ?_).congr (by simp)
  · rw [if_pos rfl]
    refine (Decides.ite (P := True) (fun _ => (decides_pure true).congr (by simp)) fun _ =>
      Decides.ite (P := LineError n unterminatedString (os.filterMap Event.ipythonContent?) ∨
        InvalidSyntax n forgottenComma (os.filterMap Event.ipythonContent?) ∨
        InvalidSyntax n incompleteInput (os.filterMap Event.ipythonContent?)) (Q := False)
        (fun _ => ?_) fun _ => (decides_pure false).congr (by simp)).congr ?_
    · refine (Decides.anyM (p := fun errorMessage =>
        if unterminatedString <+: errorMessage then
          LineError n errorMessage (os.filterMap Event.ipythonContent?)
        else InvalidSyntax n errorMessage (os.filterMap Event.ipythonContent?)) ?_).congr ?_
      · intro errorMessage hmem
        by_cases hline : unterminatedString <+: errorMessage
        · rw [if_pos hline, if_pos hline]
          exact decides_checkForConsistentLineError n _ errorMessage
        · have hsyntax : errorMessage ∈ [forgottenComma, incompleteInput] := by
            rcases List.mem_cons.mp hmem with rfl | hmem
            · exact absurd (List.prefix_refl _) hline
            · exact hmem
          rw [if_neg hline, if_neg hline, if_pos hsyntax]
          exact decides_checkForConsistentInvalidSyntax n _ errorMessage
      · have hcomma : ¬ unterminatedString <+: forgottenComma := by
          delta unterminatedString forgottenComma
          rw [String.toList_ofList, String.toList_ofList]
          decide
        have hincomplete : ¬ unterminatedString <+: incompleteInput := by
          delta unterminatedString incompleteInput
          rw [String.toList_ofList, String.toList_ofList]
          decide
        simp only [syntaxErrorMessages, List.exists_mem_cons_iff, List.not_mem_nil, false_and,
          exists_false, or_false, List.prefix_refl, if_true, if_neg hcomma, if_neg hincomplete]
    · rw [ErrorLoop, List.all_eq_true, List.all_eq_true]
      constructor
      · rintro (⟨herrors, -⟩ | ⟨-, houtputs | ⟨-, hfalse⟩⟩)
        · exact .inl herrors
        · exact .inr houtputs
        · exact hfalse.elim
      · intro h
        by_cases herrors : ∀ obs ∈ os, obs.isError = true
        · exact .inl ⟨herrors, trivial⟩
        · exact .inr ⟨herrors, .inl (h.resolve_left herrors)⟩
  · rw [if_neg (by simp)]
    exact (decides_pure false).congr (by simp)

/-! ## Monologues -/

/-- The messages of the agent, with their positions. -/
def agentMessages (events : List (Event φ)) : List (Event φ × ℕ) :=
  events.zipIdx.filter fun action => action.1.isAgentMessage

/-- No observation stands between the first and the last one of some messages. -/
def Uninterrupted (events : List (Event φ)) (messages : List (Event φ × ℕ)) : Prop :=
  ∀ first ∈ messages.head?, ∀ last ∈ messages.getLast?, ∀ p event, first.2 < p → p < last.2 →
    events[p]? = some event → event.isObservation = false

/-- **A monologue**: the last `n` messages of the agent are equal, without an observation between
them. -/
def Monologue (n : ℕ) (events : List (Event φ)) : Prop :=
  ∃ messages, messages <:+ agentMessages events ∧ messages.length = n ∧
    (∀ message ∈ messages, ∀ message' ∈ messages, message.1.body = message'.1.body) ∧
      Uninterrupted events messages

/-- **Fewer messages** of a monologue. -/
lemma Monologue.take {n : ℕ} {events : List (Event φ)} (h : Monologue n events) {k : ℕ}
    (hpos : 0 < k) (hk : k ≤ n) : Monologue k events := by
  obtain ⟨messages, hsuffix, hlen, hsame, hbetween⟩ := h
  have hlen' : (messages.drop (n - k)).length = k := by
    rw [List.length_drop]
    omega
  refine ⟨messages.drop (n - k), (List.drop_suffix _ _).trans hsuffix, hlen',
    fun m hm m' hm' => hsame m (List.mem_of_mem_drop hm) m' (List.mem_of_mem_drop hm'), ?_⟩
  intro first hfirst last hlast p event hp hp' hevent
  have hlast' : messages.getLast? = some last := by
    rw [List.getLast?_drop, if_neg (by omega)] at hlast
    exact hlast
  have hne : messages ≠ [] := List.ne_nil_of_length_pos (by omega)
  -- The first one of the messages stands before the first one that is left.
  have hle : (messages.head hne).2 ≤ first.2 := by
    have hmem := List.mem_of_mem_drop (List.mem_of_mem_head? hfirst)
    obtain ⟨head, rest, rfl⟩ := List.exists_cons_of_ne_nil hne
    rcases List.mem_cons.mp hmem with rfl | hmem
    · exact le_rfl
    · exact (List.rel_of_pairwise_cons ((pairwise_filter_zipIdx events _).sublist hsuffix.sublist)
        hmem).le
  exact hbetween _ (List.head?_eq_some_head hne) last hlast' p event (lt_of_le_of_lt hle hp) hp'
    hevent

/-- **The monologue.** -/
lemma decides_isStuckMonologue [DecidableEq φ] {n : ℕ} (hpos : 0 < n) (events : List (Event φ)) :
    Decides (isStuckMonologue n events) (Monologue n events) := by
  rw [isStuckMonologue]
  simp only
  rw [← agentMessages, Slices.slice_neg_none _ hpos]
  set messages := (agentMessages events).drop ((agentMessages events).length - n) with hmessages
  -- The last messages are the only ones of their number.
  have hlast : ∀ {messages'}, messages' <:+ agentMessages events → messages'.length = n →
      messages' = messages := by
    intro messages' hsuffix hlen
    rw [hmessages, ← hlen]
    exact (List.suffix_iff_eq_drop.mp hsuffix)
  by_cases hlen : n ≤ (agentMessages events).length
  · rw [if_pos hlen]
    have hcount : messages.length = n := by
      rw [hmessages, List.length_drop]
      omega
    have hne : messages ≠ [] := List.ne_nil_of_length_pos (by omega)
    obtain ⟨first, rest, hcons⟩ := List.exists_cons_of_ne_nil hne
    have hfirst : item messages 0 = .ok first := item_natCast (k := 0) (by rw [hcons]; rfl)
    have hend : item messages (-1) = .ok (messages.getLast hne) := by
      refine item_neg (k := 1) (by decide) (by omega) ?_
      rw [← List.getLast?_eq_getElem?, List.getLast?_eq_some_getLast hne]
    have hequal : Decides (messages.allM fun action => do
        let first ← item messages 0
        return first.1.eq action.1) (∀ message ∈ messages, first.1.body = message.1.body) := by
      refine Decides.allM fun message _ => ?_
      rw [hfirst]
      exact (decides_pure _).congr (by rw [Event.eq, decide_eq_true_eq])
    have hmonologue : Monologue n events ↔
        (∀ message ∈ messages, first.1.body = message.1.body) ∧ Uninterrupted events messages := by
      constructor
      · rintro ⟨messages', hsuffix, hlen', hsame, hbetween⟩
        obtain rfl := hlast hsuffix hlen'
        exact ⟨fun message hmem => hsame first (by rw [hcons]; simp) message hmem, hbetween⟩
      · rintro ⟨hsame, hbetween⟩
        exact ⟨messages, List.drop_suffix _ _, hcount,
          fun m hm m' hm' => (hsame m hm).symm.trans (hsame m' hm'), hbetween⟩
    refine (hequal.bind (Q := Uninterrupted events messages) (R := False) (fun _ => ?_)
      fun _ => ?_).congr ?_
    · rw [if_pos rfl, hfirst, Except.ok_bind, hend, Except.ok_bind]
      refine (decides_pure _).congr ?_
      rw [Bool.not_eq_true', List.any_eq_false]
      constructor
      · intro h first' hfirst' last hlast' p event hp hp' hevent
        obtain rfl : first = first' := by simpa [hcons] using hfirst'
        obtain rfl : messages.getLast hne = last := by
          rw [List.getLast?_eq_some_getLast hne] at hlast'
          exact Option.some.inj hlast'
        exact Bool.eq_false_iff.mpr (h event (Slices.mem_slice_natCast.mpr ⟨p, hp, hp', hevent⟩))
      · intro h event hevent
        obtain ⟨p, hp, hp', hget⟩ := Slices.mem_slice_natCast.mp hevent
        exact Bool.eq_false_iff.mp (h first (by rw [hcons]; rfl) _
          (List.getLast?_eq_some_getLast hne) p event hp hp' hget)
    · rw [if_neg (by simp)]
      exact (decides_pure false).congr (by simp)
    · rw [hmonologue]
      simp
  · rw [if_neg hlen]
    refine (decides_pure false).congr ⟨fun h => absurd h (by simp), ?_⟩
    rintro ⟨messages', hsuffix, hlen', -⟩
    exact absurd (hlen' ▸ hsuffix.length_le) hlen

/-! ## The detectors -/

section Detectors

variable [DecidableEq φ]

/-- **Repeated steps**: the last `n` actions are alike, and the last `n` observations. -/
def RepeatsSteps (n : ℕ) (events : List (Event φ)) : Prop :=
  ((lastActions n events).length = n ∧ (lastObservations n events).length = n) ∧
    LikeFirst (lastActions n events) ∧ LikeFirst (lastObservations n events)

/-- **An alternation**: every other one of the last six actions is alike, and of the last six
observations. -/
def Alternates (events : List (Event φ)) : Prop :=
  EveryOther (lastActions 6 events) ∧ EveryOther (lastObservations 6 events)

/-- An action that is only talk. -/
def Event.isUseless (action : Event φ) : Prop := action.isMessage = true ∨ action.isThink = true

/-- **What the strict detector reports** of a history with two events or more. -/
inductive Repeats (events : List (Event φ)) : Prop
  | useless (h : ∀ action ∈ lastActions 2 events, action.isUseless)
  | steps (h : RepeatsSteps 2 events)
  | errors (hactions : LikeFirst (lastActions 2 events))
      (h : ErrorLoop 2 (lastObservations 2 events))
  | monologue (h : Monologue 2 events)
  | pattern (h : Alternates events)

/-- An alternation has six events. -/
lemma Alternates.le_length {events : List (Event φ)} (h : Alternates events) : 6 ≤ events.length := by
  obtain ⟨⟨a, b, a', b', a'', b'', heq, -⟩, -⟩ := h
  have hlen := congrArg List.length heq
  have hle := List.length_filter_le Event.isAction events
  simp only [lastActions, List.length_take, List.length_reverse, List.length_cons,
    List.length_nil] at hlen
  omega

/-- The scenario of the alternation, behind the check of the length. -/
lemma decides_pattern (events : List (Event φ)) :
    Decides (if 6 ≤ events.length then isStuckActionObservationPattern events else return false)
      (Alternates events) := by
  refine (Decides.ite (fun _ => decides_isStuckActionObservationPattern events)
    fun _ => decides_pure false).congr ?_
  simp only [Bool.false_eq_true, and_false, or_false]
  exact ⟨And.right, fun h => ⟨Alternates.le_length h, h⟩⟩

/-- **What the strict detector reports.** -/
theorem decides_strictIsStuck (history : List (Event φ)) (headlessMode : Bool) :
    Decides (strictIsStuck history headlessMode)
      (2 ≤ (filteredHistory history headlessMode).length ∧
        Repeats (filteredHistory history headlessMode)) := by
  rw [strictIsStuck]
  simp only
  set events := filteredHistory history headlessMode
  rw [collectLast_eq]
  have huseless : Decides (return isStuckUselessAction (lastActions 2 events) : Except PyError Bool)
      (∀ action ∈ lastActions 2 events, action.isUseless) :=
    (decides_pure _).congr (by simp [isStuckUselessAction, Event.isUseless])
  refine (Decides.ite (P := False) (fun _ => (decides_pure false).congr (by simp)) fun _ =>
    huseless.anyM_cons ((decides_isStuckRepeatingActionObservation 2 _ _).anyM_cons
      ((decides_repeatingActionError 2 _ _).anyM_cons
        ((decides_isStuckMonologue (by decide) events).anyM_cons
          ((decides_pattern events).anyM_cons Except.decides_anyM_nil))))).congr ?_
  rw [not_lt]
  constructor
  · rintro (⟨-, hfalse⟩ | ⟨hlen, h | h | h | h | h | h⟩)
    · exact hfalse.elim
    · exact ⟨hlen, .useless h⟩
    · exact ⟨hlen, .steps h⟩
    · exact ⟨hlen, .errors h.1 h.2⟩
    · exact ⟨hlen, .monologue h⟩
    · exact ⟨hlen, .pattern h⟩
    · exact h.elim
  · rintro ⟨hlen, h⟩
    refine .inr ⟨hlen, ?_⟩
    cases h with
    | useless h => exact .inl h
    | steps h => exact .inr (.inl h)
    | errors hactions h => exact .inr (.inr (.inl ⟨hactions, h⟩))
    | monologue h => exact .inr (.inr (.inr (.inl h)))
    | pattern h => exact .inr (.inr (.inr (.inr (.inl h))))

/-- **What the first detector reports.** -/
theorem decides_isStuck (history : List (Event φ)) (headlessMode : Bool) :
    Decides (isStuck history headlessMode)
      (3 ≤ (filteredHistory history headlessMode).length ∧
        (RepeatsSteps 4 (filteredHistory history headlessMode) ∨
          ((3 ≤ (lastActions 4 (filteredHistory history headlessMode)).length ∧
              3 ≤ (lastObservations 4 (filteredHistory history headlessMode)).length) ∧
            LikeFirst (lastActions 3 (filteredHistory history headlessMode)) ∧
            ErrorLoop 3 (lastObservations 3 (filteredHistory history headlessMode))) ∨
          Monologue 3 (filteredHistory history headlessMode) ∨
          Alternates (filteredHistory history headlessMode) ∨
          isStuckContextWindowError (filteredHistory history headlessMode) = true)) := by
  rw [isStuck]
  simp only
  set events := filteredHistory history headlessMode
  rw [collectLast_eq]
  simp only
  rw [lastActions_take (by decide), lastObservations_take (by decide)]
  have herrors := (Decides.ite
    (c := (lastActions 4 events).length < 3 ∨ (lastObservations 4 events).length < 3)
    (fun _ => decides_pure false)
    fun _ => decides_repeatingActionError 3 (lastActions 3 events) (lastObservations 3 events)).congr
      (Q := (3 ≤ (lastActions 4 events).length ∧ 3 ≤ (lastObservations 4 events).length) ∧
        LikeFirst (lastActions 3 events) ∧ ErrorLoop 3 (lastObservations 3 events))
      (by simp only [Bool.false_eq_true, and_false, false_or, not_or, not_lt])
  have hwindow : Decides (if 10 ≤ events.length then
      return isStuckContextWindowError events else return false : Except PyError Bool)
        (isStuckContextWindowError events = true) := by
    refine (Decides.ite (fun _ => decides_pure _) fun _ => decides_pure false).congr ?_
    simp only [Bool.false_eq_true, and_false, or_false, and_iff_right_iff_imp]
    intro h
    rw [isStuckContextWindowError] at h
    split_ifs at h with hlen
    exact (not_lt.mp hlen).trans (List.length_filter_le _ _)
  refine (Decides.ite (P := False) (fun _ => (decides_pure false).congr (by simp)) fun _ =>
    (decides_isStuckRepeatingActionObservation 4 _ _).anyM_cons (herrors.anyM_cons
      ((decides_isStuckMonologue (by decide) events).anyM_cons
        ((decides_pattern events).anyM_cons
          (hwindow.anyM_cons Except.decides_anyM_nil))))).congr ?_
  rw [not_lt, or_false]
  simp only [and_false, false_or]
  rfl

end Detectors

end ProRLAgent.Stuck
