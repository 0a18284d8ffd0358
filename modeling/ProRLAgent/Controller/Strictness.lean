import ProRLAgent.Controller.Scenarios

set_option relaxedAutoImplicit false
set_option autoImplicit false

/-!
# How strict the loop detectors are

The strict detector looks for shorter repetitions than the first one, in all scenarios but one: it
does not look for condensations without other events between them. Its windows may hold fewer than
two actions; a test of all actions of an empty window passes, and a single action is like itself.

The scenario of the condensations compares each of the last ten with its neighbour and reports a loop
at the first two without other events between them, where it should ask for that of all of them.

## Main definitions

* `ProRLAgent.Stuck.AtLeastAsStrict` — what the first detector reports, the strict one reports.
* `ProRLAgent.Stuck.ReportsRepetition` — the strict detector reports only repetitions.
* `ProRLAgent.Stuck.CondensationsOnly` — no other event stands among the last ten condensations.

## Main results

* `ProRLAgent.Stuck.atLeastAsStrict_iff` — when the strict detector is at least as strict.
* `ProRLAgent.Stuck.reportsRepetition_iff` — when it reports only repetitions.
* `ProRLAgent.Stuck.contextWindowExact_iff` — when the scenario of the condensations is right.
-/

namespace ProRLAgent.Stuck

variable {φ : Type}

/-! ## Condensations -/

/-- Only condensations stand between two positions. -/
def NothingBetween (events : List (Event φ)) (first last : ℕ) : Prop :=
  ∀ p event, first < p → p < last → events[p]? = some event → event.isCondensation = true

/-- The last ten condensations, each with the next one. -/
def neighbours (events : List (Event φ)) : List (ℕ × ℕ) :=
  (lastCondensationEvents events).zip (lastCondensationEvents events).tail

/-- The history has ten condensations. -/
def TenCondensations (events : List (Event φ)) : Prop :=
  10 ≤ (events.filter Event.isCondensation).length

/-- **Only condensations**: there are ten, and no other event stands between the first and the last
one of the last ten. -/
def CondensationsOnly (events : List (Event φ)) : Prop :=
  TenCondensations events ∧ ∀ first ∈ (lastCondensationEvents events).head?,
    ∀ last ∈ (lastCondensationEvents events).getLast?, NothingBetween events first last

/-- **Two neighbours**: there are ten condensations, and no other event stands between some two
neighbours of the last ten. -/
def CondensationLoop (events : List (Event φ)) : Prop :=
  TenCondensations events ∧ ∃ pair ∈ neighbours events, NothingBetween events pair.1 pair.2

/-- The positions of the condensations. -/
def condensationIndices (events : List (Event φ)) : List ℕ :=
  (events.zipIdx.filter fun event => event.1.isCondensation).map Prod.snd

lemma pairwise_condensationIndices (events : List (Event φ)) :
    (condensationIndices events).Pairwise fun i j => i < j := by
  rw [condensationIndices, List.pairwise_map]
  exact pairwise_filter_zipIdx events _

lemma isCondensation_of_mem_indices {events : List (Event φ)} {i : ℕ}
    (hi : i ∈ condensationIndices events) {event : Event φ} (hevent : events[i]? = some event) :
    event.isCondensation = true := by
  obtain ⟨⟨event', i⟩, hmem, rfl⟩ := List.mem_map.mp hi
  obtain ⟨hget, hcondensation⟩ := List.mem_filter.mp hmem
  rw [List.mk_mem_zipIdx_iff_getElem?] at hget
  obtain rfl := Option.some.inj (hget.symm.trans hevent)
  exact hcondensation

lemma length_condensationIndices (events : List (Event φ)) :
    (condensationIndices events).length = (events.filter Event.isCondensation).length := by
  rw [condensationIndices, List.length_map, ← map_fst_filter_zipIdx events, List.length_map]

lemma lastCondensationEvents_eq (events : List (Event φ)) : lastCondensationEvents events =
    (condensationIndices events).drop ((condensationIndices events).length - 10) :=
  Slices.slice_neg_none (condensationIndices events) (n := 10) (by decide)

/-- **Between the first and the last one**: nothing stands between the ends of a list of
condensations if and only if nothing stands between any two neighbours. By induction on the list. -/
lemma nothingBetween_ends_iff {events : List (Event φ)} {l : List ℕ}
    (hsorted : l.Pairwise fun i j => i < j) (hmem : ∀ i ∈ l, i ∈ condensationIndices events) :
    (∀ first ∈ l.head?, ∀ last ∈ l.getLast?, NothingBetween events first last) ↔
      ∀ pair ∈ l.zip l.tail, NothingBetween events pair.1 pair.2 := by
  induction l with
  | nil => simp
  | cons i l ih =>
    cases l with
    | nil =>
      simp only [List.head?_cons, Option.mem_some_iff, List.getLast?_singleton, forall_eq',
        List.tail_cons, List.zip_nil_right, List.not_mem_nil, false_imp_iff, implies_true, iff_true]
      exact fun p _ hp hp' => absurd hp (not_lt.mpr hp'.le)
    | cons j l =>
      obtain ⟨hi, hrest⟩ := List.pairwise_cons.mp hsorted
      have hij := hi j (by simp)
      have hlast : (j :: l).getLast (List.cons_ne_nil j l) ∈ j :: l := List.getLast_mem _
      have hle : j ≤ (j :: l).getLast (List.cons_ne_nil j l) := by
        rcases List.mem_cons.mp hlast with heq | hlast'
        · exact heq.ge
        · exact ((List.pairwise_cons.mp hrest).1 _ hlast').le
      have ih := ih hrest fun k hk => hmem k (List.mem_cons_of_mem i hk)
      simp only [List.head?_cons, Option.mem_some_iff, forall_eq', List.tail_cons,
        List.getLast?_cons_cons, List.zip_cons_cons, List.forall_mem_cons,
        List.getLast?_eq_some_getLast (List.cons_ne_nil j l)] at ih ⊢
      rw [← ih]
      constructor
      · exact fun h => ⟨fun p event hp hp' => h p event hp (by omega),
          fun p event hp hp' => h p event (by omega) hp'⟩
      · rintro ⟨hfirst, hsecond⟩ p event hp hp' hevent
        rcases lt_trichotomy p j with hlt | rfl | hgt
        · exact hfirst p event hp hlt hevent
        · exact isCondensation_of_mem_indices (hmem p (by simp)) hevent
        · exact hsecond p event hgt hp' hevent

lemma condensationsOnly_iff {events : List (Event φ)} : CondensationsOnly events ↔
    TenCondensations events ∧ ∀ pair ∈ neighbours events, NothingBetween events pair.1 pair.2 := by
  refine and_congr_right fun _ => ?_
  rw [neighbours]
  refine nothingBetween_ends_iff ?_ fun i hi => ?_
  · rw [lastCondensationEvents_eq]
    exact (pairwise_condensationIndices events).sublist (List.drop_sublist _ _)
  · rw [lastCondensationEvents_eq] at hi
    exact List.mem_of_mem_drop hi

/-- **What the scenario reports.** -/
theorem isStuckContextWindowError_iff {events : List (Event φ)} :
    isStuckContextWindowError events = true ↔ CondensationLoop events := by
  rw [isStuckContextWindowError, CondensationLoop, TenCondensations, ← not_lt]
  split_ifs with hfew
  · simp [hfew]
  · simp only [hfew, not_false_eq_true, true_and, List.any_eq_true]
    refine exists_congr fun pair => and_congr_right fun _ => ?_
    rw [Bool.not_eq_true', List.any_eq_false]
    simp only [Bool.not_eq_true', Bool.not_eq_false]
    constructor
    · exact fun h p event hp hp' hevent =>
        h event (Slices.mem_slice_natCast.mpr ⟨p, hp, hp', hevent⟩)
    · intro h event hevent
      obtain ⟨p, hp, hp', hget⟩ := Slices.mem_slice_natCast.mp hevent
      exact h p event hp hp' hget

/-- Ten condensations have neighbours. -/
lemma exists_neighbours {events : List (Event φ)} (h : TenCondensations events) :
    ∃ pair, pair ∈ neighbours events := by
  refine List.exists_mem_of_length_pos ?_
  rw [TenCondensations, ← length_condensationIndices] at h
  rw [neighbours, List.length_zip, List.length_tail, lastCondensationEvents_eq, List.length_drop]
  omega

/-- **The scenario is right**: it reports exactly that only condensations are left. -/
def ContextWindowExact (events : List (Event φ)) : Prop :=
  isStuckContextWindowError events = true ↔ CondensationsOnly events

/-- **The scenario is right if and only if** there are fewer than ten condensations, or no two
neighbours of the last ten have another event between them, or all of them have. -/
theorem contextWindowExact_iff (events : List (Event φ)) :
    ContextWindowExact events ↔ (events.filter Event.isCondensation).length < 10 ∨
      (∀ pair ∈ neighbours events, NothingBetween events pair.1 pair.2) ∨
      ∀ pair ∈ neighbours events, ¬ NothingBetween events pair.1 pair.2 := by
  rw [ContextWindowExact, isStuckContextWindowError_iff, condensationsOnly_iff, CondensationLoop,
    ← not_le, ← TenCondensations]
  constructor
  · intro h
    by_cases hten : TenCondensations events
    · refine .inr ?_
      by_cases hsome : ∃ pair ∈ neighbours events, NothingBetween events pair.1 pair.2
      · exact .inl (h.mp ⟨hten, hsome⟩).2
      · exact .inr fun pair hpair hnothing => hsome ⟨pair, hpair, hnothing⟩
    · exact .inl hten
  · rintro (hfew | hall | hnone)
    · exact ⟨fun h => absurd h.1 hfew, fun h => absurd h.1 hfew⟩
    · refine ⟨fun h => ⟨h.1, hall⟩, fun h => ⟨h.1, ?_⟩⟩
      obtain ⟨pair, hpair⟩ := exists_neighbours h.1
      exact ⟨pair, hpair, hall pair hpair⟩
    · constructor
      · rintro ⟨-, pair, hpair, hnothing⟩
        exact absurd hnothing (hnone pair hpair)
      · rintro ⟨hten, hall⟩
        obtain ⟨pair, hpair⟩ := exists_neighbours hten
        exact absurd (hall pair hpair) (hnone pair hpair)

/-! ## Messages and actions -/

/-- A message of the agent is an action. -/
lemma Event.isAction_of_isAgentMessage {event : Event φ} (h : event.isAgentMessage = true) :
    event.isAction = true := by
  obtain ⟨source, body⟩ := event
  have hmessage := (of_decide_eq_true h).1
  cases body <;> first | rfl | cases hmessage

/-- A monologue ends with two equal messages. -/
lemma Monologue.exists_messages {events : List (Event φ)} (h : Monologue 2 events) :
    ∃ before last, [before, last] <:+ events.filter Event.isAgentMessage ∧
      before.body = last.body := by
  obtain ⟨messages, hsuffix, hlen, hsame, -⟩ := h
  obtain ⟨before, last, rfl⟩ := List.length_eq_two.mp hlen
  refine ⟨before.1, last.1, ?_, hsame before (by simp) last (by simp)⟩
  rw [← map_fst_filter_zipIdx]
  exact hsuffix.map Prod.fst

/-- Two messages of the agent are two actions. -/
lemma two_le_of_messages {events : List (Event φ)} {before last : Event φ}
    (h : [before, last] <:+ events.filter Event.isAgentMessage) :
    2 ≤ (events.filter Event.isAction).length := by
  have hle : (events.filter Event.isAgentMessage).length ≤
      (events.filter Event.isAction).length := by
    rw [← List.countP_eq_length_filter, ← List.countP_eq_length_filter]
    exact List.countP_mono_left fun event _ hevent => Event.isAction_of_isAgentMessage hevent
  exact h.length_le.trans hle

/-- The last two of two actions or more. -/
lemma exists_lastActions {events : List (Event φ)}
    (h : 2 ≤ (events.filter Event.isAction).length) :
    ∃ last before, lastActions 2 events = [last, before] := by
  have hlen : (lastActions 2 events).length = 2 := by
    rw [lastActions, List.length_take, List.length_reverse]
    omega
  exact List.length_eq_two.mp hlen

/-! ## At least as strict -/

section Strict

variable [DecidableEq φ]

/-- **At least as strict**: what the first detector reports, the strict one reports. -/
def AtLeastAsStrict (history : List (Event φ)) (headlessMode : Bool) : Prop :=
  isStuck history headlessMode = .ok true → strictIsStuck history headlessMode = .ok true

/-- Steps that are repeated four times are repeated twice. -/
lemma RepeatsSteps.repeats {events : List (Event φ)} (h : RepeatsSteps 4 events) :
    Repeats events := by
  obtain ⟨⟨hactions, hobservations⟩, hlike, hlike'⟩ := h
  refine .steps ⟨⟨?_, ?_⟩, ?_, ?_⟩
  · rw [← lastActions_take (n := 4) (by decide), List.length_take, hactions]
    rfl
  · rw [← lastObservations_take (n := 4) (by decide), List.length_take, hobservations]
    rfl
  · rw [← lastActions_take (n := 4) (by decide)]
    exact hlike.take 2
  · rw [← lastObservations_take (n := 4) (by decide)]
    exact hlike'.take 2

/-- Three actions with errors are two actions with errors. -/
lemma repeats_of_errors {events : List (Event φ)} (hlen : 3 ≤ (lastObservations 4 events).length)
    (hactions : LikeFirst (lastActions 3 events)) (herrors : ErrorLoop 3 (lastObservations 3 events)) :
    Repeats events := by
  have hcount : (lastObservations 3 events).length = 3 := by
    rw [← lastObservations_take (n := 4) (by decide), List.length_take]
    exact Nat.min_eq_left hlen
  refine .errors ?_ ?_
  · rw [← lastActions_take (n := 3) (by decide)]
    exact hactions.take 2
  · rw [← lastObservations_take (n := 3) (by decide)]
    exact herrors.take hcount (by decide) (by decide)

/-- **The strict detector is at least as strict if and only if** it has something else to report
where two neighbours of the last ten condensations have no other event between them. -/
theorem atLeastAsStrict_iff (history : List (Event φ)) (headlessMode : Bool) :
    AtLeastAsStrict history headlessMode ↔
      (CondensationLoop (filteredHistory history headlessMode) →
        Repeats (filteredHistory history headlessMode)) := by
  rw [AtLeastAsStrict, (decides_isStuck history headlessMode).eq_true_iff,
    (decides_strictIsStuck history headlessMode).eq_true_iff, ← isStuckContextWindowError_iff]
  set events := filteredHistory history headlessMode
  constructor
  · intro h hwindow
    have hten := (isStuckContextWindowError_iff.1 hwindow).1
    have hlen := hten.trans (List.length_filter_le Event.isCondensation events)
    exact (h ⟨by omega, .inr (.inr (.inr (.inr hwindow)))⟩).2
  · rintro h ⟨hlen, hstuck⟩
    refine ⟨by omega, ?_⟩
    rcases hstuck with hsteps | ⟨hcount, hactions, herrors⟩ | hmonologue | hpattern | hwindow
    · exact hsteps.repeats
    · exact repeats_of_errors hcount.2 hactions herrors
    · exact .monologue (hmonologue.take (by decide) (by decide))
    · exact .pattern hpattern
    · exact h hwindow

/-! ## Only repetitions -/

/-- **A repetition**: the last two actions are alike or only talk, the last two messages of the agent
are equal, or two actions alternate. -/
inductive Repetition (events : List (Event φ)) : Prop
  | alike {last before : Event φ} (hlast : lastActions 2 events = [last, before])
      (h : eqNoPid last before = true)
  | talk {last before : Event φ} (hlast : lastActions 2 events = [last, before])
      (h : last.isUseless ∧ before.isUseless)
  | messages {last before : Event φ} (hlast : [before, last] <:+ events.filter Event.isAgentMessage)
      (h : before.body = last.body)
  | alternation (h : EveryOther (lastActions 6 events))

/-- **Only repetitions are reported**, and no history makes the strict detector raise. -/
structure ReportsRepetition (history : List (Event φ)) (headlessMode : Bool) : Prop where
  returns : ∃ stuck, strictIsStuck history headlessMode = .ok stuck
  repetition : strictIsStuck history headlessMode = .ok true →
    2 ≤ ((filteredHistory history headlessMode).filter Event.isAction).length ∧
      Repetition (filteredHistory history headlessMode)

/-- **No false alarm**: the history has two actions or fewer than two events, or one action that is
no talk; and if this is like itself, the last two observations are not all errors or the same syntax
error. -/
def NoFalseAlarm (events : List (Event φ)) : Prop :=
  events.length < 2 ∨ 2 ≤ (events.filter Event.isAction).length ∨
    ∃ action, events.filter Event.isAction = [action] ∧ ¬ action.isUseless ∧
      ¬ (eqNoPid action action = true ∧ ErrorLoop 2 (lastObservations 2 events))

/-- The windows of two actions or more show a repetition. -/
lemma Repeats.repetition {events : List (Event φ)} (h : Repeats events)
    (hcount : 2 ≤ (events.filter Event.isAction).length) : Repetition events := by
  obtain ⟨last, before, hlast⟩ := exists_lastActions hcount
  have halike : LikeFirst (lastActions 2 events) → Repetition events := fun hlike => by
    rw [hlast] at hlike
    exact .alike hlast (hlike last rfl before (by simp))
  cases h with
  | useless h =>
    rw [hlast] at h
    exact .talk hlast ⟨h last (by simp), h before (by simp)⟩
  | steps h => exact halike h.2.1
  | errors hactions h => exact halike hactions
  | monologue h =>
    obtain ⟨before, last, hsuffix, hsame⟩ := h.exists_messages
    exact .messages hsuffix hsame
  | pattern h => exact .alternation h.1

/-- **The strict detector reports only repetitions if and only if** there is no false alarm. -/
theorem reportsRepetition_iff (history : List (Event φ)) (headlessMode : Bool) :
    ReportsRepetition history headlessMode ↔
      NoFalseAlarm (filteredHistory history headlessMode) := by
  have hdecides := decides_strictIsStuck history headlessMode
  have hreturns : ∃ stuck, strictIsStuck history headlessMode = .ok stuck :=
    hdecides.imp fun _ h => h.1
  have hiff := hdecides.eq_true_iff
  set events := filteredHistory history headlessMode with hevents
  have hshort : ∀ {action}, events.filter Event.isAction = [action] →
      lastActions 2 events = [action] := by
    intro action haction
    rw [lastActions, haction]
    rfl
  constructor
  · rintro ⟨-, h⟩
    rw [hiff, ← hevents] at h
    by_contra hnot
    simp only [NoFalseAlarm, not_or, not_lt, not_le] at hnot
    obtain ⟨hlen, hcount, hone⟩ := hnot
    have hfew : ¬ Repeats events := fun hrepeats => absurd (h ⟨hlen, hrepeats⟩).1 (not_le.mpr hcount)
    -- Without an action, and with one that is only talk, the window is useless.
    cases hactions : events.filter Event.isAction with
    | nil =>
      refine hfew (.useless ?_)
      rw [lastActions, hactions]
      simp
    | cons action rest =>
      rw [hactions, List.length_cons] at hcount
      obtain rfl : rest = [] := List.length_eq_zero_iff.mp (by omega)
      refine hone ⟨action, hactions, fun huseless => hfew (.useless ?_), fun hloop =>
        hfew (.errors ?_ hloop.2)⟩
      · rw [hshort hactions]
        simpa using huseless
      · rw [hshort hactions]
        intro first hfirst event hevent
        obtain rfl : action = first := by simpa using hfirst
        obtain rfl : event = action := by simpa using hevent
        exact hloop.1
  · intro h
    refine ⟨hreturns, ?_⟩
    rw [hiff]
    rintro ⟨hlen, hrepeats⟩
    rcases h with hfew | hcount | ⟨action, haction, hnotUseless, hnotErrors⟩
    · exact absurd hlen (not_le.mpr hfew)
    · exact ⟨hcount, hrepeats.repetition hcount⟩
    · have hwindow := hshort haction
      have hsingle : (events.filter Event.isAction).length = 1 := by rw [haction]; rfl
      cases hrepeats with
      | useless h =>
        rw [hwindow] at h
        exact absurd (h action (by simp)) hnotUseless
      | steps h =>
        have hcount := h.1.1
        rw [hwindow] at hcount
        cases hcount
      | errors hactions h =>
        rw [hwindow] at hactions
        exact absurd ⟨hactions action rfl action (by simp), h⟩ hnotErrors
      | monologue h =>
        obtain ⟨before, last, hsuffix, -⟩ := h.exists_messages
        have := two_le_of_messages hsuffix
        omega
      | pattern h =>
        obtain ⟨a, b, a', b', a'', b'', heq, -⟩ := h.1
        have hcount := congrArg List.length heq
        simp only [lastActions, List.length_take, List.length_reverse, hsingle, List.length_cons,
          List.length_nil] at hcount
        omega

end Strict

/-! ## Three histories -/

/-- An event of the agent. -/
def agentEvent (body : Body ℕ) : Event ℕ := ⟨some .agent, body⟩

/-- A command. -/
def command : Event ℕ := agentEvent (.otherAction 0)

/-- A condensation. -/
def condensation : Event ℕ := agentEvent (.agentCondensation 0)

/-- A command and ten condensations. -/
def condensedHistory : List (Event ℕ) := command :: List.replicate 10 condensation

/-- **The strict detector misses a loop of condensations.** -/
theorem not_atLeastAsStrict_condensed :
    isStuck condensedHistory true = .ok true ∧ strictIsStuck condensedHistory true = .ok false ∧
      ¬ AtLeastAsStrict condensedHistory true := by
  have hfirst : isStuck condensedHistory true = .ok true := rfl
  have hstrict : strictIsStuck condensedHistory true = .ok false := rfl
  refine ⟨hfirst, hstrict, fun h => ?_⟩
  have htrue := h hfirst
  rw [hstrict] at htrue
  cases htrue

/-- **One failed command is reported**: the history has one action. -/
theorem not_reportsRepetition_failure :
    strictIsStuck [command, agentEvent (.error 0)] true = .ok true ∧
      ¬ ReportsRepetition [command, agentEvent (.error 0)] true := by
  have hstuck : strictIsStuck [command, agentEvent (.error 0)] true = .ok true := rfl
  exact ⟨hstuck, fun h => absurd (h.repetition hstuck).1 (by decide)⟩

/-- Ten condensations, the first two of them together and commands between the others. -/
def healthyHistory : List (Event ℕ) :=
  condensation :: condensation :: (List.replicate 8 [command, condensation]).flatten

/-- **A healthy session is reported**: commands stand between the condensations. -/
theorem not_contextWindowExact_healthy :
    isStuckContextWindowError healthyHistory = true ∧ ¬ CondensationsOnly healthyHistory ∧
      ¬ ContextWindowExact healthyHistory := by
  have hstuck : isStuckContextWindowError healthyHistory = true := by decide
  have hnot : ¬ CondensationsOnly healthyHistory := fun h =>
    absurd (h.2 0 rfl 17 rfl 2 command (by decide) (by decide) rfl) (by decide)
  exact ⟨hstuck, hnot, fun h => hnot (h.mp hstuck)⟩

end ProRLAgent.Stuck
