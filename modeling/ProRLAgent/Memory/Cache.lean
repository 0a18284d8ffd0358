import ProRLAgent.Memory.Prompt
import ProRLAgent.Memory.View

set_option relaxedAutoImplicit false
set_option autoImplicit false

/-!
# The cached view of a state

The view of a state (`openhands/controller/state/state.py`) is cached, and the cache is renewed when
the length of the history differs from the length at the last computation. The events of a view are
handed to `process_events` (`openhands/memory/conversation_memory.py`), which inserts a missing
system message and a missing first user message into the very list it gets.

View objects have an identity here: a state keeps all views that were computed, and the cache and
the readers name them by their index.

The cache tells the truth as long as no history comes back to the length of the last computation
with another view, and nothing is inserted into the cached view.

## Main definitions

* `ProRLAgent.Memory.State` — the history, the view objects and the cache.
* `ProRLAgent.Memory.State.view` — the property `view`.
* `ProRLAgent.Memory.Operation` — the operations on a state.
* `ProRLAgent.Memory.Operation.Safe` — the condition on an operation.

## Main results

* `ProRLAgent.Memory.readView_eq` — in every run of safe operations a read returns the view of the
  history.
-/

namespace ProRLAgent.Memory

/-! ## Preparing the events of a view -/

/-- What `process_events` does to the list it gets. -/
def prepareEvents (systemPrompt : String) (initialUserAction : Event) (events : List Event) :
    List Event :=
  ensureInitialUserMessage Event.isUserMessage initialUserAction
    (ensureSystemMessage Event.isSystemMessage
      (fun prompt => ⟨-1, none, none, .systemMessage prompt⟩) systemPrompt events)

/-! ## States -/

/-- A state: the history, the events of all view objects, and the cache with the length of the
history at the last computation (`_history_checksum`) and the index of the view (`_view`). -/
structure State where
  history : List Event
  views : List (List Event)
  cache : Option (ℕ × ℕ)
  deriving DecidableEq, Repr

namespace State

/-- The cached view is returned. -/
def hits (s : State) : Bool :=
  match s.cache with
  | some (checksum, _) => s.history.length = checksum
  | none => false

/-- A new view, which is cached. -/
def renew (s : State) : State :=
  { s with
    views := s.views ++ [fromEvents s.history]
    cache := some (s.history.length, s.views.length) }

/-- The property `view`: the index of the view object, and the state after it. -/
def view (s : State) : ℕ × State :=
  match s.cache with
  | some (checksum, index) =>
    if s.history.length = checksum then (index, s) else (s.views.length, s.renew)
  | none => (s.views.length, s.renew)

/-- The events of the view that a read returns. -/
def readView (s : State) : Option (List Event) := s.view.2.views[s.view.1]?

end State

/-- The operations on a state. A view object is passed to `process_events` by its index. -/
inductive Operation where
  | append (event : Event)
  | replace (history : List Event)
  | read
  | process (view : ℕ) (systemPrompt : String) (initialUserAction : Event)

/-- The effect of an operation. -/
def Operation.apply (s : State) : Operation → State
  | append event => { s with history := s.history ++ [event] }
  | replace history => { s with history := history }
  | read => s.view.2
  | process view systemPrompt initialUserAction =>
    { s with views := s.views.modify view (prepareEvents systemPrompt initialUserAction) }

/-! ## Safe operations -/

/-- Nothing is missing in the events of a view. -/
def Prepared (systemPrompt : String) (events : List Event) : Prop :=
  (events.any Event.isSystemMessage = true ∨ systemPrompt = "") ∧
    (events = [] ∨ ∃ first second rest, events = first :: second :: rest ∧
      second.isUserMessage = true)

/-- The history at the last computation of a view, after an operation. -/
def Operation.seen (s : State) (seen : Option (List Event)) : Operation → Option (List Event)
  | read => if s.hits then seen else some s.history
  | _ => seen

/-- A new history of the length that the history had at the last computation has the same view. -/
def SameView (seen : Option (List Event)) (history : List Event) : Prop :=
  ∀ old, seen = some old → history.length = old.length → fromEvents history = fromEvents old

/-- **Safe operations**: no other view comes with the cached length, and `process_events` gets the
cached view only if nothing is missing in it. -/
def Operation.Safe (s : State) (seen : Option (List Event)) : Operation → Prop
  | append event => SameView seen (s.history ++ [event])
  | replace history => SameView seen history
  | read => True
  | process view systemPrompt _ => ∀ checksum events, s.cache = some (checksum, view) →
      s.views[view]? = some events → Prepared systemPrompt events

/-- The states of a run of safe operations, with the history at the last computation. -/
inductive Reaches : State → Option (List Event) → Prop
  | init (history : List Event) : Reaches ⟨history, [], none⟩ none
  | step {s : State} {seen : Option (List Event)} (h : Reaches s seen) (op : Operation)
      (hsafe : op.Safe s seen) : Reaches (op.apply s) (op.seen s seen)

/-! ## The cache tells the truth -/

/-- Nothing is inserted if nothing is missing. -/
lemma Prepared.prepareEvents_eq {systemPrompt : String} {events : List Event}
    (h : Prepared systemPrompt events) (initialUserAction : Event) :
    prepareEvents systemPrompt initialUserAction events = events := by
  have hsystem : ensureSystemMessage Event.isSystemMessage
      (fun prompt => ⟨-1, none, none, .systemMessage prompt⟩) systemPrompt events = events := by
    rw [ensureSystemMessage]
    rcases h.1 with hany | hempty
    · rw [if_pos hany]
    · rw [if_pos hempty, ite_self]
  rw [prepareEvents, hsystem]
  rcases h.2 with rfl | ⟨first, second, rest, rfl, hsecond⟩
  · rfl
  · rw [ensureInitialUserMessage, if_pos hsecond]

/-- **The invariant of a run**: the cached view object is the view of the history at the last
computation, and the view of the present history if this has the same length. -/
structure Coherent (s : State) (old : List Event) (checksum index : ℕ) : Prop where
  length : checksum = old.length
  view : s.views[index]? = some (fromEvents old)
  same : s.history.length = checksum → fromEvents s.history = fromEvents old

/-- A state with an empty cache, or a coherent one. -/
def Invariant (s : State) (seen : Option (List Event)) : Prop :=
  (s.cache = none ∧ seen = none) ∨
    ∃ old checksum index, s.cache = some (checksum, index) ∧ seen = some old ∧
      Coherent s old checksum index

/-- A coherent state stays so under a new history with the same view. -/
lemma Coherent.setHistory {s : State} {old : List Event} {checksum index : ℕ}
    (h : Coherent s old checksum index) {history : List Event}
    (hsame : SameView (some old) history) :
    Coherent { s with history := history } old checksum index :=
  ⟨h.length, h.view, fun hlen => hsame old rfl (hlen.trans h.length)⟩

/-- A renewed state is coherent. -/
lemma coherent_renew (s : State) : Coherent s.renew s.history s.history.length
    s.views.length :=
  ⟨rfl, by simp [State.renew], fun _ => rfl⟩

/-- A read keeps the cache, or renews it. -/
lemma view_cases {s : State} {seen : Option (List Event)} (h : Invariant s seen) :
    (∃ old checksum index, s.view = (index, s) ∧ s.hits = true ∧ s.cache = some (checksum, index) ∧
      seen = some old ∧ Coherent s old checksum index ∧ s.history.length = checksum) ∨
    (s.view = (s.views.length, s.renew) ∧ s.hits = false) := by
  rcases h with ⟨hcache, -⟩ | ⟨old, checksum, index, hcache, hseen, hcoherent⟩
  · exact .inr ⟨by simp only [State.view, hcache], by simp only [State.hits, hcache]⟩
  · by_cases hlen : s.history.length = checksum
    · refine .inl ⟨old, checksum, index, ?_, ?_, hcache, hseen, hcoherent, hlen⟩
      · simp only [State.view, hcache, if_pos hlen]
      · simp only [State.hits, hcache, hlen, decide_true]
    · refine .inr ⟨?_, ?_⟩
      · simp only [State.view, hcache, if_neg hlen]
      · simp only [State.hits, hcache, hlen, decide_false]

/-- **Every safe operation keeps the invariant.** -/
theorem Invariant.apply {s : State} {seen : Option (List Event)} (h : Invariant s seen)
    {op : Operation} (hsafe : op.Safe s seen) : Invariant (op.apply s) (op.seen s seen) := by
  cases op with
  | append event =>
    rcases h with hnone | ⟨old, checksum, index, hcache, rfl, hcoherent⟩
    · exact .inl hnone
    · exact .inr ⟨old, checksum, index, hcache, rfl, hcoherent.setHistory hsafe⟩
  | replace history =>
    rcases h with hnone | ⟨old, checksum, index, hcache, rfl, hcoherent⟩
    · exact .inl hnone
    · exact .inr ⟨old, checksum, index, hcache, rfl, hcoherent.setHistory hsafe⟩
  | read =>
    rcases view_cases h with ⟨old, checksum, index, hview, hhits, -⟩ | ⟨hview, hhits⟩
    · simpa only [Operation.apply, Operation.seen, hview, hhits, if_true] using h
    · simp only [Operation.apply, Operation.seen, hview, hhits]
      exact .inr ⟨s.history, _, _, rfl, rfl, coherent_renew s⟩
  | process view systemPrompt initialUserAction =>
    rcases h with hnone | ⟨old, checksum, index, hcache, rfl, hcoherent⟩
    · exact .inl hnone
    · refine .inr ⟨old, checksum, index, hcache, rfl, hcoherent.length, ?_, hcoherent.same⟩
      simp only [Operation.apply, List.getElem?_modify]
      by_cases hindex : view = index
      · subst hindex
        have hprepared := hsafe checksum _ hcache hcoherent.view
        simp [hcoherent.view, hprepared.prepareEvents_eq]
      · simp [hindex, hcoherent.view]

/-- The invariant holds in all states of a run. -/
lemma Reaches.invariant {s : State} {seen : Option (List Event)} (h : Reaches s seen) :
    Invariant s seen := by
  induction h with
  | init history => exact .inl ⟨rfl, rfl⟩
  | step _ op hsafe ih => exact ih.apply hsafe

/-- **View cache coherence**: after every run of safe operations a read returns the view of the
history. -/
theorem readView_eq {s : State} {seen : Option (List Event)} (h : Reaches s seen) :
    s.readView = some (fromEvents s.history) := by
  rw [State.readView]
  rcases view_cases h.invariant with
    ⟨old, checksum, index, hview, -, -, -, hcoherent, hlen⟩ | ⟨hview, -⟩
  · rw [hview, hcoherent.view, hcoherent.same hlen]
  · rw [hview, (coherent_renew s).view]

/-! ### A run, and two incoherent ones -/

/-- A system message. -/
def systemEvent : Event := ⟨0, some .agent, none, .systemMessage "You are an agent."⟩

/-- The first user message. -/
def userEvent (id : ℤ) : Event := ⟨id, some .user, none, .message "Fix the bug."⟩

/-- An action of the agent. -/
def runEvent (id : ℤ) : Event := ⟨id, some .agent, none, .otherAction "run"⟩

/-- A prepared view is read, processed and read again after one more event. -/
theorem readView_preparedRun :
    ∃ s seen, Reaches s seen ∧ s.history = [systemEvent, userEvent 1, runEvent 2] ∧
      s.readView = some (fromEvents s.history) := by
  have hread := (Reaches.init [systemEvent, userEvent 1]).step .read trivial
  have hprocess := hread.step (.process 0 "You are an agent." (userEvent 1)) (by
    intro checksum events _ hevents
    obtain rfl : [systemEvent, userEvent 1] = events := Option.some.inj hevents
    exact ⟨.inl rfl, .inr ⟨_, _, _, rfl, rfl⟩⟩)
  have hlast := hprocess.step (.append (runEvent 2)) (by
    intro old hold hlen
    obtain rfl : [systemEvent, userEvent 1] = old := Option.some.inj hold
    exact absurd hlen (by decide))
  exact ⟨_, _, hlast, rfl, readView_eq hlast⟩

/-- The state after operations on a history that was not read before. -/
def runOps (history : List Event) (ops : List Operation) : State :=
  ops.foldl Operation.apply ⟨history, [], none⟩

/-- A view without a system message is read and processed. -/
def insertedState : State :=
  runOps [userEvent 0, runEvent 1]
    [Operation.read, .process 0 "You are an agent." (userEvent 0)]

/-- A history is read, and replaced by another one of the same length. -/
def replacedState : State :=
  runOps [systemEvent, userEvent 1] [Operation.read, .replace [systemEvent, runEvent 2]]

/-- **Two stale views**: the one with an inserted system message, and that of a replaced history. -/
theorem readView_stale :
    insertedState.readView ≠ some (fromEvents insertedState.history) ∧
    replacedState.readView ≠ some (fromEvents replacedState.history) := by
  decide

end ProRLAgent.Memory
