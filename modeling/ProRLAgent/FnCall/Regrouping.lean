import Mathlib.Data.List.TakeDrop
import ProRLAgent.FnCall.Parallel
import ProRLAgent.Lib.Slices

set_option relaxedAutoImplicit false
set_option autoImplicit false

/-!
# Parallel tool calls are regrouped

What the conversion of parallel tool calls does with a conversation, for every order in which the
results arrive. Every message carries its position as a mark, and every call the position of its
message.

If the conversion returns, no call and no message is lost, put out twice or changed, every message
has at most one call, and each split call stands right before its own result. Messages of different
turns keep their order exactly if no assistant message comes while a call waits: the conversion
checks this for messages of other roles only, and lets an assistant message pass.

## Main definitions

* `ProRLAgent.Parallel.mark` — a conversation with its positions.
* `ProRLAgent.Parallel.Complete` — calls, messages and results of the output.
* `ProRLAgent.Parallel.InOrder` — messages of different turns keep their order.
* `ProRLAgent.Parallel.Exclusive` — no assistant message comes while a call waits.

## Main results

* `ProRLAgent.Parallel.complete_of_ok` — nothing is lost.
* `ProRLAgent.Parallel.regrouped_iff` — when the conversion regroups faithfully.
-/

namespace ProRLAgent.Parallel

open Slices
open scoped List

variable {ι κ β τ : Type}

/-! ## Marks -/

/-- A message with marks: a message of the input has its position, and one that was made for a call
has `none`; a call has the position of its message. -/
abbrev Marked (ι κ β τ : Type) := Message ι (κ × ℕ) β (τ × Option ℕ)

/-- A conversation with its positions. -/
def mark (messages : List (Message ι κ β τ)) : List (Marked ι κ β τ) :=
  messages.mapIdx fun p message => message.map (fun fields => (fields, p)) fun fields => (fields, some p)

/-- A message without its marks. -/
def unmark (message : Marked ι κ β τ) : Message ι κ β τ := message.map Prod.fst Prod.fst

/-- The message comes from the input. -/
def Whole (message : Marked ι κ β τ) : Prop := message.fields.2.isSome

instance (message : Marked ι κ β τ) : Decidable (Whole message) :=
  inferInstanceAs (Decidable (_ = true))

/-- The position from which a message comes: its own one, or that of its call. -/
def origin (message : Marked ι κ β τ) : ℕ :=
  message.fields.2.getD ((message.calls.head?.map fun call => call.fields.2).getD 0)

/-- The marks are the positions. -/
def Positions (input : List (Marked ι κ β τ)) : Prop :=
  ∀ (p : ℕ) (message : Marked ι κ β τ), input[p]? = some message →
    message.fields.2 = some p ∧ ∀ call ∈ message.calls, call.fields.2 = p

/-- The ids of all calls. -/
def callIds (messages : List (Message ι κ β τ)) : List ι :=
  (messages.flatMap Message.calls).filterMap ToolCall.id

/-- The ids of the calls at the beginning. -/
lemma nodup_callIds_take {before messages : List (Message ι κ β τ)}
    (hbegin : before <+: messages) (h : (callIds messages).Nodup) : (callIds before).Nodup := by
  obtain ⟨after, rfl⟩ := hbegin
  refine h.sublist ?_
  rw [callIds, callIds, List.flatMap_append, List.filterMap_append]
  exact List.sublist_append_left _ _

/-- The ids of the calls at the beginning do not come again. -/
lemma ne_of_mem_callIds {before after : List (Message ι κ β τ)} {id : ι}
    (h : (callIds (before ++ after)).Nodup) (hid : id ∈ callIds before) :
    ∀ m ∈ after, ∀ call ∈ m.calls, call.id ≠ some id := by
  intro m hm call hcall heq
  rw [callIds, List.flatMap_append, List.filterMap_append, List.nodup_append] at h
  exact h.2.2 id hid id
    (List.mem_filterMap.mpr ⟨call, List.mem_flatMap.mpr ⟨m, hm, hcall⟩, heq⟩) rfl

/-- The message is the result of the call with the id. -/
def IsResult (message : Message ι κ β τ) (id : Option ι) : Prop :=
  message.role = .tool ∧ message.toolCallId = id

/-! ## Faithful regrouping -/

section Spec

variable [DecidableEq ι]

/-- The position of the turn of a message: a result belongs to the message with several calls that
has its call. -/
def turn (input : List (Marked ι κ β τ)) (message : Marked ι κ β τ) : ℕ :=
  if message.role = .tool then
    ((input.find? fun c => c.IsParallel ∧ message.toolCallId ∈ c.calls.map ToolCall.id).map
      origin).getD (origin message)
  else origin message

variable (emptyContent : β) (noFields : τ)

/-- The message for call `i` of a message. -/
def IsPart (input : List (Marked ι κ β τ)) (message : Marked ι κ β τ) : Prop :=
  ∃ c ∈ input, c.IsParallel ∧ ∃ i call, c.calls[i]? = some call ∧
    message = toolCallMessage emptyContent (noFields, none) c.content i call

/-- **Every part in its place**: the output has every message without several calls once, in order;
what was made for a call has its call, with the content for the first one; an assistant message has
at most one call, and a split call is right before its own result. -/
structure Arranged (input output : List (Marked ι κ β τ)) : Prop where
  wholes : output.filter (fun message => Whole message) =
    input.filter fun message => ¬ message.IsParallel
  parts : ∀ message ∈ output, ¬ Whole message → IsPart emptyContent noFields input message
  single : ∀ message ∈ output, message.role = .assistant → message.calls.length ≤ 1
  results : ∀ (i : ℕ) (message : Marked ι κ β τ), output[i]? = some message → ¬ Whole message →
    ∃ call result, message.calls = [call] ∧ call.id.isSome ∧ output[i + 1]? = some result ∧
      Whole result ∧ IsResult result call.id

/-- **Nothing is lost**: every part is in its place, and the output has every call once. -/
structure Complete (input output : List (Marked ι κ β τ)) : Prop
    extends Arranged emptyContent noFields input output where
  calls : (output.flatMap Message.calls).Perm (input.flatMap Message.calls)

/-- **Messages of different turns keep their order.** -/
def InOrder (input output : List (Marked ι κ β τ)) : Prop :=
  output.Pairwise fun message later => turn input message ≠ turn input later →
    origin message < origin later

/-- **A faithful regrouping**: nothing is lost, and messages of different turns keep their
order. -/
structure Regrouped (input output : List (Marked ι κ β τ)) : Prop
    extends Complete emptyContent noFields input output where
  order : InOrder input output

end Spec

/-- A call of a message before position `x` waits there: its result has not come. -/
def Waits (messages : List (Message ι κ β τ)) (x : ℕ) : Prop :=
  ∃ p c call, p < x ∧ messages[p]? = some c ∧ c.IsParallel ∧ call ∈ c.calls ∧
    ∀ r t, p < r → r < x → messages[r]? = some t → ¬ IsResult t call.id

/-- **No assistant message comes while a call waits.** -/
def Exclusive (messages : List (Message ι κ β τ)) : Prop :=
  ∀ x message, messages[x]? = some message → message.role = .assistant → ¬ Waits messages x

/-! ## The table of waiting calls -/

section Invariant

variable [DecidableEq ι] (emptyContent : β) (noFields : τ)

/-- The message for a call that waits behind `input`. -/
def WaitingFor (input : List (Marked ι κ β τ)) (id : ι) (message : Marked ι κ β τ) : Prop :=
  ∃ (p : ℕ) (c : Marked ι κ β τ) (i : ℕ) (call : ToolCall ι (κ × ℕ)), input[p]? = some c ∧
    c.IsParallel ∧ c.calls[i]? = some call ∧ call.id = some id ∧
    message = toolCallMessage emptyContent (noFields, none) c.content i call ∧
    ∀ (r : ℕ) (t : Marked ι κ β τ), p < r → input[r]? = some t → ¬ IsResult t (some id)

/-- **The table and the output** behind the messages of the input. -/
structure Inv (input : List (Marked ι κ β τ)) (pending : Dict ι (Marked ι κ β τ))
    (output : List (Marked ι κ β τ)) : Prop
    extends Arranged emptyContent noFields input output where
  ids : ∀ c ∈ input, c.IsParallel → ∀ call ∈ c.calls, call.id.isSome
  waiting : ∀ id message, pending.get? id = some message ↔
    WaitingFor emptyContent noFields input id message
  calls : (output.flatMap Message.calls ++ pending.entries.flatMap fun e => e.2.calls).Perm
    (input.flatMap Message.calls)

variable {emptyContent : β} {noFields : τ} {input output : List (Marked ι κ β τ)}
  {message : Marked ι κ β τ} {pending pending' : Dict ι (Marked ι κ β τ)}

omit [DecidableEq ι] in
/-- A message with several calls is no result. -/
lemma Message.IsParallel.not_isResult (h : message.IsParallel) (id : Option ι) : ¬ IsResult message id :=
  fun hresult => by
    rw [IsResult, h.1] at hresult
    cases hresult.1

omit [DecidableEq ι] in
/-- What was made for a call is not a message of the input. -/
lemma not_whole_toolCallMessage (content : β) (i : ℕ) (call : ToolCall ι (κ × ℕ)) :
    ¬ Whole (toolCallMessage emptyContent (noFields, none) content i call) :=
  fun h => by cases h

omit [DecidableEq ι] in
/-- The calls that wait behind one more message. -/
lemma waitingFor_concat {id : ι} {part : Marked ι κ β τ} :
    WaitingFor emptyContent noFields (input ++ [message]) id part ↔
      (WaitingFor emptyContent noFields input id part ∧ ¬ IsResult message (some id)) ∨
      (message.IsParallel ∧ ∃ i call, message.calls[i]? = some call ∧ call.id = some id ∧
        part = toolCallMessage emptyContent (noFields, none) message.content i call) := by
  constructor
  · rintro ⟨p, c, i, call, hc, hpar, hcall, hid, hpart, hnone⟩
    rcases getElem?_concat_eq_some_iff.mp hc with hp | ⟨-, rfl⟩
    · refine Or.inl ⟨⟨p, c, i, call, hp, hpar, hcall, hid, hpart, fun r t hr ht =>
        hnone r t hr (getElem?_concat_eq_some_iff.mpr (.inl ht))⟩, ?_⟩
      exact hnone input.length message (List.getElem?_eq_some_iff.mp hp).1
        (getElem?_concat_eq_some_iff.mpr (.inr ⟨rfl, rfl⟩))
    · exact Or.inr ⟨hpar, i, call, hcall, hid, hpart⟩
  · rintro (⟨⟨p, c, i, call, hp, hpar, hcall, hid, hpart, hnone⟩, hmessage⟩ |
      ⟨hpar, i, call, hcall, hid, hpart⟩)
    · refine ⟨p, c, i, call, getElem?_concat_eq_some_iff.mpr (.inl hp), hpar, hcall, hid, hpart, ?_⟩
      intro r t hr ht
      rcases getElem?_concat_eq_some_iff.mp ht with ht | ⟨-, rfl⟩
      · exact hnone r t hr ht
      · exact hmessage
    · refine ⟨input.length, message, i, call, getElem?_concat_eq_some_iff.mpr (.inr ⟨rfl, rfl⟩),
        hpar, hcall, hid, hpart, ?_⟩
      intro r t hr ht
      have hlt := (List.getElem?_eq_some_iff.mp ht).1
      rw [List.length_append, List.length_singleton] at hlt
      omega

/-- A waiting message was made for a call. -/
lemma Inv.get?_eq (h : Inv emptyContent noFields input pending output) {id : ι}
    {part : Marked ι κ β τ} (hget : pending.get? id = some part) :
    IsPart emptyContent noFields input part ∧
      ∃ call : ToolCall ι (κ × ℕ), part.calls = [call] ∧ call.id = some id := by
  obtain ⟨p, c, i, call, hp, hpar, hcall, hid, rfl, -⟩ := (h.waiting id part).mp hget
  exact ⟨⟨c, List.mem_of_getElem? hp, hpar, i, call, hcall, rfl⟩, call, rfl, hid⟩

omit [DecidableEq ι] in
/-- The id of a part is that of a call of the input. -/
lemma IsPart.mem_callIds {part : Marked ι κ β τ} {call : ToolCall ι (κ × ℕ)} {id : ι}
    (h : IsPart emptyContent noFields input part) (hcall : part.calls = [call])
    (hid : call.id = some id) : id ∈ callIds input := by
  obtain ⟨c, hc, -, i, other, hother, rfl⟩ := h
  obtain rfl : other = call := List.singleton_inj.mp hcall
  exact List.mem_filterMap.mpr
    ⟨other, List.mem_flatMap.mpr ⟨c, hc, List.mem_of_getElem? hother⟩, hid⟩

omit [DecidableEq ι] in
/-- A part stays one behind more messages. -/
lemma IsPart.append {part : Marked ι κ β τ} (h : IsPart emptyContent noFields input part)
    (more : List (Marked ι κ β τ)) : IsPart emptyContent noFields (input ++ more) part := by
  obtain ⟨c, hc, hpar, i, call, hcall, rfl⟩ := h
  exact ⟨c, List.mem_append_left _ hc, hpar, i, call, hcall, rfl⟩

omit [DecidableEq ι] in
/-- What is put out for one more message: the message itself if it does not have several calls, and
parts before their results. -/
lemma Arranged.append (h : Arranged emptyContent noFields input output)
    {more : List (Marked ι κ β τ)}
    (hwholes : more.filter (fun m => Whole m) = [message].filter fun m => ¬ m.IsParallel)
    (hparts : ∀ m ∈ more, ¬ Whole m → IsPart emptyContent noFields input m)
    (hsingle : ∀ m ∈ more, m.role = .assistant → m.calls.length ≤ 1)
    (hresults : ∀ (i : ℕ) (m : Marked ι κ β τ), more[i]? = some m → ¬ Whole m →
      ∃ call result, m.calls = [call] ∧ call.id.isSome ∧ more[i + 1]? = some result ∧
        Whole result ∧ IsResult result call.id) :
    Arranged emptyContent noFields (input ++ [message]) (output ++ more) where
  wholes := by rw [List.filter_append, List.filter_append, h.wholes, hwholes]
  parts m hm hpart := by
    rcases List.mem_append.mp hm with hm | hm
    · exact (h.parts m hm hpart).append _
    · exact (hparts m hm hpart).append _
  single m hm hrole := by
    rcases List.mem_append.mp hm with hm | hm
    · exact h.single m hm hrole
    · exact hsingle m hm hrole
  results i m hm hpart := by
    by_cases hi : i < output.length
    · rw [List.getElem?_append_left hi] at hm
      obtain ⟨call, result, hcall, hid, hnext, hrest⟩ := h.results i m hm hpart
      refine ⟨call, result, hcall, hid, ?_, hrest⟩
      rw [List.getElem?_append_left (List.getElem?_eq_some_iff.mp hnext).1, hnext]
    · rw [List.getElem?_append_right (not_lt.mp hi)] at hm
      obtain ⟨call, result, hcall, hid, hnext, hrest⟩ := hresults _ m hm hpart
      refine ⟨call, result, hcall, hid, ?_, hrest⟩
      rw [List.getElem?_append_right (by omega), Nat.sub_add_comm (not_lt.mp hi), hnext]

/-- **One message keeps the invariant.** -/
theorem Inv.step {more : List (Marked ι κ β τ)} (h : Inv emptyContent noFields input pending output)
    (hwhole : Whole message) (hids : (callIds (input ++ [message])).Nodup)
    (hstep : step emptyContent (noFields, none) pending message = .ok (pending', more)) :
    Inv emptyContent noFields (input ++ [message]) pending' (output ++ more) := by
  have hempty (hnone : pending.entries = []) (id : ι) (part : Marked ι κ β τ) :
      ¬ WaitingFor emptyContent noFields input id part := fun hpart => by
    have hmem := Dict.get?_eq_some_iff.mp ((h.waiting id part).mpr hpart)
    rw [hnone] at hmem
    cases hmem
  rcases step_cases hstep with ⟨hpar, hadd, rfl⟩ | ⟨hrole, id, part, hid, hget, rfl, rfl⟩ |
    ⟨hpar, hpass, rfl, rfl⟩
  · -- The calls of the message are put into the table.
    have hsplit : callIds (input ++ [message]) =
        callIds input ++ message.calls.filterMap ToolCall.id := by
      simp only [callIds, List.flatMap_append, List.filterMap_append, List.flatMap_singleton]
    rw [hsplit, List.nodup_append] at hids
    have hnew : ∀ call ∈ message.calls, ∀ id, call.id = some id → pending.get? id = none := by
      intro call hcall id hid
      rw [Option.eq_none_iff_forall_ne_some]
      intro part hget
      obtain ⟨hpart, other, hother, hid'⟩ := h.get?_eq hget
      exact hids.2.2 id (hpart.mem_callIds hother hid') id
        (List.mem_filterMap.mpr ⟨call, hcall, hid⟩) rfl
    obtain ⟨hsome, added, hentries, hflat, hadded⟩ := addToolCalls_spec hadd hids.2.1 hnew
    refine ⟨h.toArranged.append (by simp [hpar]) (by simp) (by simp) (by simp), ?_, ?_, ?_⟩
    · intro c hc hcpar
      rcases List.mem_append.mp hc with hc | hc
      · exact h.ids c hc hcpar
      · obtain rfl := List.mem_singleton.mp hc
        exact hsome
    · intro id part
      rw [Dict.get?_eq_some_iff, hentries, List.mem_append, ← Dict.get?_eq_some_iff, h.waiting,
        waitingFor_concat, hadded]
      simp only [hpar.not_isResult, hpar, not_false_eq_true, and_true, true_and, Nat.zero_add]
    · rw [hentries, List.append_nil, List.flatMap_append, hflat, List.flatMap_append,
        List.flatMap_singleton, ← List.append_assoc]
      exact h.calls.append_right _
  · -- The result takes its call out of the table.
    have hpar : ¬ message.IsParallel := fun hpar => by
      rw [hpar.1] at hrole
      cases hrole
    have hresult (id' : ι) : IsResult message (some id') ↔ id' = id := by
      rw [IsResult, hid, and_iff_right hrole, Option.some_inj, eq_comm]
    obtain ⟨hpart, call, hcall, hcallId⟩ := h.get?_eq hget
    have hpartWhole : ¬ Whole part := by
      obtain ⟨c, -, -, i, call, -, rfl⟩ := hpart
      exact not_whole_toolCallMessage _ _ _
    refine ⟨h.toArranged.append ?_ ?_ ?_ ?_, ?_, ?_, ?_⟩
    · simp [hpartWhole, hwhole, hpar]
    · rintro m hm hm'
      rcases List.mem_pair.mp hm with rfl | rfl
      · exact hpart
      · exact absurd hwhole hm'
    · rintro m hm hassistant
      rcases List.mem_pair.mp hm with rfl | rfl
      · rw [hcall, List.length_singleton]
      · rw [hrole] at hassistant
        cases hassistant
    · intro i m hm hm'
      match i with
      | 0 =>
        obtain rfl := Option.some.inj hm
        exact ⟨call, message, hcall, by rw [hcallId]; rfl, rfl, hwhole, by
          rw [hcallId]; exact (hresult id).mpr rfl⟩
      | 1 =>
        obtain rfl := Option.some.inj hm
        exact absurd hwhole hm'
      | i + 2 => cases hm
    · intro c hc hcpar
      rcases List.mem_append.mp hc with hc | hc
      · exact h.ids c hc hcpar
      · obtain rfl := List.mem_singleton.mp hc
        exact absurd hcpar hpar
    · intro id' other
      rw [Dict.get?_erase, waitingFor_concat, hresult]
      by_cases hsame : id' = id
      · simp [hsame, hpar]
      · simp [hsame, hpar, h.waiting]
    · have htaken := (Dict.entries_perm_erase hget).flatMap_right fun e => e.2.calls
      rw [List.flatMap_cons] at htaken
      simp only [List.flatMap_append, List.flatMap_cons, List.flatMap_nil, List.append_nil,
        List.append_assoc]
      calc output.flatMap Message.calls ++ (part.calls ++ (message.calls ++
              (pending.erase id).entries.flatMap fun e => e.2.calls))
          ~ output.flatMap Message.calls ++ (part.calls ++
              (((pending.erase id).entries.flatMap fun e => e.2.calls) ++ message.calls)) :=
            (List.perm_append_comm.append_left _).append_left _
        _ ~ output.flatMap Message.calls ++
              ((pending.entries.flatMap fun e => e.2.calls) ++ message.calls) := by
            rw [← List.append_assoc part.calls]
            exact (htaken.symm.append_right _).append_left _
        _ ~ input.flatMap Message.calls ++ message.calls := by
            rw [← List.append_assoc]
            exact h.calls.append_right _
  · -- The message passes.
    refine ⟨h.toArranged.append ?_ ?_ ?_ ?_, ?_, ?_, ?_⟩
    · simp [hwhole, hpar]
    · intro m hm hm'
      exact absurd (List.mem_singleton.mp hm ▸ hwhole) hm'
    · intro m hm hassistant
      obtain rfl := List.mem_singleton.mp hm
      exact not_lt.mp fun hlt => hpar ⟨hassistant, hlt⟩
    · intro i m hm hm'
      have hmem := List.mem_singleton.mp (List.mem_of_getElem? hm)
      exact absurd (hmem ▸ hwhole) hm'
    · intro c hc hcpar
      rcases List.mem_append.mp hc with hc | hc
      · exact h.ids c hc hcpar
      · obtain rfl := List.mem_singleton.mp hc
        exact absurd hcpar hpar
    · intro id part
      have hnot : WaitingFor emptyContent noFields input id part → ¬ IsResult message (some id) := by
        intro hpart hresult
        rcases hpass with hassistant | hnone
        · cases hassistant.symm.trans hresult.1
        · exact hempty hnone id part hpart
      rw [waitingFor_concat, h.waiting]
      simp only [hpar, false_and, or_false]
      exact ⟨fun hpart => ⟨hpart, hnot hpart⟩, And.left⟩
    · simp only [List.flatMap_append, List.flatMap_singleton, List.append_assoc]
      calc output.flatMap Message.calls ++ (message.calls ++
              pending'.entries.flatMap fun e => e.2.calls)
          ~ output.flatMap Message.calls ++
              ((pending'.entries.flatMap fun e => e.2.calls) ++ message.calls) :=
            List.perm_append_comm.append_left _
        _ ~ input.flatMap Message.calls ++ message.calls := by
            rw [← List.append_assoc]
            exact h.calls.append_right _

/-- **A run keeps the invariant.** -/
theorem inv_of_ok (hwhole : ∀ m ∈ input, Whole m) (hids : (callIds input).Nodup)
    (h : convertMessages emptyContent (noFields, none) Dict.empty input = .ok (pending, output)) :
    Inv emptyContent noFields input pending output := by
  induction input using List.reverseRecOn generalizing pending output with
  | nil =>
    obtain ⟨rfl, rfl⟩ := Prod.mk.inj (Except.ok.inj h)
    refine ⟨⟨rfl, by simp, by simp, by simp⟩, by simp, fun id part => ?_, .nil⟩
    simp [WaitingFor]
  | append_singleton input message ih =>
    obtain ⟨between, first, second, hfirst, hstep, rfl⟩ := convertMessages_concat.mp h
    have hbegin := nodup_callIds_take (List.prefix_append input [message]) hids
    exact (ih (fun m hm => hwhole m (List.mem_append_left _ hm)) hbegin hfirst).step
      (hwhole message (by simp)) hids hstep

end Invariant

/-! ## Turns -/

/-- Different messages have calls with different ids. -/
lemma eq_of_callIds {messages : List (Message ι κ β τ)} (hids : (callIds messages).Nodup)
    {p p' : ℕ} {c c' : Message ι κ β τ} {call call' : ToolCall ι κ} {id : ι}
    (hp : messages[p]? = some c) (hp' : messages[p']? = some c') (hcall : call ∈ c.calls)
    (hcall' : call' ∈ c'.calls) (hid : call.id = some id) (hid' : call'.id = some id) : p = p' := by
  rw [callIds, List.filterMap_flatMap, List.nodup_flatMap, List.pairwise_iff_getElem] at hids
  obtain ⟨hlt, rfl⟩ := List.getElem?_eq_some_iff.mp hp
  obtain ⟨hlt', rfl⟩ := List.getElem?_eq_some_iff.mp hp'
  have hmem := List.mem_filterMap.mpr ⟨call, hcall, hid⟩
  have hmem' := List.mem_filterMap.mpr ⟨call', hcall', hid'⟩
  rcases Nat.lt_trichotomy p p' with h | h | h
  · exact absurd hmem' (hids.2 p p' hlt hlt' h hmem)
  · exact h
  · exact absurd hmem (hids.2 p' p hlt' hlt h hmem')

section Turn

variable [DecidableEq ι] {emptyContent : β} {noFields : τ} {input output : List (Marked ι κ β τ)}
  {message : Marked ι κ β τ} {pending : Dict ι (Marked ι κ β τ)} (hpos : Positions input)

include hpos

omit [DecidableEq ι] in
/-- The position of a message of the input. -/
lemma Positions.origin_eq {p : ℕ} (h : input[p]? = some message) : origin message = p := by
  rw [origin, (hpos p message h).1, Option.getD_some]

omit [DecidableEq ι] in
/-- The position of what was made for a call. -/
lemma Positions.origin_part {p i : ℕ} {c : Marked ι κ β τ} {call : ToolCall ι (κ × ℕ)}
    (hc : input[p]? = some c) (hcall : c.calls[i]? = some call) :
    origin (toolCallMessage emptyContent (noFields, none) c.content i call : Marked ι κ β τ) = p :=
  (hpos p c hc).2 call (List.mem_of_getElem? hcall)

/-- **The turn of a result** is that of its call. -/
lemma Positions.turn_result (hids : (callIds input).Nodup) {p i : ℕ} {c : Marked ι κ β τ}
    {call : ToolCall ι (κ × ℕ)} {id : ι} (hc : input[p]? = some c) (hpar : c.IsParallel)
    (hcall : c.calls[i]? = some call) (hid : call.id = some id)
    (hresult : IsResult message (some id)) : turn input message = p := by
  have hmem : some id ∈ c.calls.map ToolCall.id :=
    List.mem_map.mpr ⟨call, List.mem_of_getElem? hcall, hid⟩
  have hsome : (input.find? fun c => c.IsParallel ∧
      message.toolCallId ∈ c.calls.map ToolCall.id).isSome := by
    rw [List.find?_isSome]
    exact ⟨c, List.mem_of_getElem? hc, by simpa [hpar, hresult.2] using hmem⟩
  obtain ⟨c', hfind⟩ := Option.isSome_iff_exists.mp hsome
  obtain ⟨p', hp'⟩ := List.mem_iff_getElem?.mp (List.mem_of_find?_eq_some hfind)
  have hc' := List.find?_some hfind
  rw [decide_eq_true_eq, hresult.2] at hc'
  obtain ⟨call', hcall', hid'⟩ := List.mem_map.mp hc'.2
  rw [turn, if_pos hresult.1, hfind, Option.map_some, Option.getD_some, hpos.origin_eq hp']
  exact (eq_of_callIds hids hc hp' (List.mem_of_getElem? hcall) hcall' hid hid').symm

end Turn

/-! ## Runs in order -/

section Order

variable [DecidableEq ι] {emptyContent : β} {noFields : τ}
  {input before output : List (Marked ι κ β τ)} {message : Marked ι κ β τ}
  {pending pending' : Dict ι (Marked ι κ β τ)}

/-- The invariant behind the first messages of the input. -/
lemma Positions.inv_of_ok (hpos : Positions input) (hids : (callIds input).Nodup)
    (hbegin : before <+: input)
    (h : convertMessages emptyContent (noFields, none) Dict.empty before = .ok (pending, output)) :
    Inv emptyContent noFields before pending output := by
  refine Parallel.inv_of_ok (fun m hm => ?_) (nodup_callIds_take hbegin hids) h
  obtain ⟨p, hp⟩ := List.mem_iff_getElem?.mp (hbegin.subset hm)
  rw [Whole, (hpos p m hp).1]
  rfl

/-- Behind the first messages a call waits exactly if the table is not empty. -/
lemma Inv.waits_iff {after : List (Marked ι κ β τ)}
    (h : Inv emptyContent noFields before pending output) :
    Waits (before ++ after) before.length ↔ ∃ id part, pending.get? id = some part := by
  constructor
  · rintro ⟨p, c, call, hp, hc, hpar, hcall, hnone⟩
    rw [List.getElem?_append_left hp] at hc
    obtain ⟨id, hid⟩ := Option.isSome_iff_exists.mp
      (h.ids c (List.mem_of_getElem? hc) hpar call hcall)
    obtain ⟨i, hi⟩ := List.mem_iff_getElem?.mp hcall
    refine ⟨id, _, (h.waiting id _).mpr ⟨p, c, i, call, hc, hpar, hi, hid, rfl, ?_⟩⟩
    intro r t hr ht
    have hlt := (List.getElem?_eq_some_iff.mp ht).1
    exact hid ▸ hnone r t hr hlt (by rw [List.getElem?_append_left hlt, ht])
  · rintro ⟨id, part, hget⟩
    obtain ⟨p, c, i, call, hc, hpar, hcall, hid, -, hnone⟩ := (h.waiting id part).mp hget
    have hlt := (List.getElem?_eq_some_iff.mp hc).1
    refine ⟨p, c, call, hlt, by rw [List.getElem?_append_left hlt, hc], hpar,
      List.mem_of_getElem? hcall, fun r t hr hrlt ht => ?_⟩
    rw [List.getElem?_append_left hrlt] at ht
    exact hid ▸ hnone r t hr ht

/-- The turn of a message that is no result. -/
lemma turn_of_ne (h : message.role ≠ .tool) : turn input message = origin message := if_neg h

/-- A waiting message has an earlier position, and its result belongs to the same turn. -/
lemma Inv.part_spec (hpos : Positions input) (hids : (callIds input).Nodup)
    (hbegin : before <+: input) (h : Inv emptyContent noFields before pending output) {id : ι}
    {part : Marked ι κ β τ} (hget : pending.get? id = some part) :
    origin part < before.length ∧ turn input part = origin part ∧
      ∀ m, IsResult m (some id) → turn input m = origin part := by
  obtain ⟨p, c, i, call, hc, hpar, hcall, hid, rfl, -⟩ := (h.waiting id part).mp hget
  have hlt := (List.getElem?_eq_some_iff.mp hc).1
  obtain ⟨after, rfl⟩ := hbegin
  have hc' : (before ++ after)[p]? = some c := by rw [List.getElem?_append_left hlt, hc]
  have horigin : origin (toolCallMessage emptyContent (noFields, none) c.content i call) = p :=
    hpos.origin_part hc' hcall
  refine ⟨horigin ▸ hlt, turn_of_ne (by simp [toolCallMessage]), fun m hm => ?_⟩
  rw [horigin, hpos.turn_result hids hc' hpar hcall hid hm]

/-- **The order of the output so far**: messages of different turns are in order, and all waiting
calls are of one message, behind which no message of another turn was put out. -/
structure OrderInv (input before : List (Marked ι κ β τ)) (pending : Dict ι (Marked ι κ β τ))
    (output : List (Marked ι κ β τ)) : Prop where
  order : InOrder input output
  bound : ∀ m ∈ output, origin m < before.length
  last : ∀ id part, pending.get? id = some part → ∀ m ∈ output,
    turn input m = origin part ∨ origin m < origin part
  same : ∀ id part id' part', pending.get? id = some part → pending.get? id' = some part' →
    origin part = origin part'

/-- **One message keeps the order**, if no assistant message comes while a call waits. -/
theorem OrderInv.step {after more : List (Marked ι κ β τ)}
    (hpos : Positions (before ++ message :: after))
    (hids : (callIds (before ++ message :: after)).Nodup)
    (hexclusive : Exclusive (before ++ message :: after))
    (hinv : Inv emptyContent noFields before pending output)
    (hinv' : Inv emptyContent noFields (before ++ [message]) pending' (output ++ more))
    (h : OrderInv (before ++ message :: after) before pending output)
    (hstep : step emptyContent (noFields, none) pending message = .ok (pending', more)) :
    OrderInv (before ++ message :: after) (before ++ [message]) pending' (output ++ more) := by
  set input := before ++ message :: after with hinput
  have hmessage : input[before.length]? = some message := by
    rw [hinput, List.getElem?_append_right le_rfl, Nat.sub_self, List.getElem?_cons_zero]
  have horigin : origin message = before.length := hpos.origin_eq hmessage
  have hbegin : before ++ [message] <+: input := ⟨after, by rw [hinput, List.append_assoc]; rfl⟩
  have hlength : (before ++ [message]).length = before.length + 1 := by simp
  have hfree (hassistant : message.role = .assistant) (id : ι) (part : Marked ι κ β τ) :
      pending.get? id ≠ some part := fun hget =>
    hexclusive _ _ hmessage hassistant (hinv.waits_iff.mpr ⟨id, part, hget⟩)
  rcases step_cases hstep with ⟨hpar, hadd, rfl⟩ | ⟨hrole, id, part, hid, hget, rfl, rfl⟩ |
    ⟨hpar, hpass, rfl, rfl⟩
  · -- No call waited, so all waiting calls are of this message.
    have hall (id : ι) (part : Marked ι κ β τ) (hget : pending'.get? id = some part) :
        origin part = before.length := by
      rcases waitingFor_concat.mp ((hinv'.waiting id part).mp hget) with
        ⟨hwaiting, -⟩ | ⟨-, i, call, hcall, -, rfl⟩
      · exact absurd ((hinv.waiting id part).mpr hwaiting) (hfree hpar.1 id part)
      · exact hpos.origin_part hmessage hcall
    rw [List.append_nil]
    refine ⟨h.order, fun m hm => ?_, fun id part hget m hm => ?_, fun id part id' part' hget hget' => ?_⟩
    · exact (h.bound m hm).trans (by omega)
    · exact Or.inr ((hall id part hget).symm ▸ h.bound m hm)
    · rw [hall id part hget, hall id' part' hget']
  · -- The part and the result belong to the turn of all waiting calls.
    obtain ⟨hlt, hturn, hresult⟩ :=
      hinv.part_spec hpos hids ((List.prefix_append _ _).trans hbegin) hget
    have hturn' : turn input message = origin part := hresult message ⟨hrole, hid⟩
    have hrest {id' : ι} {part' : Marked ι κ β τ} (hget' : (pending.erase id).get? id' = some part') :
        pending.get? id' = some part' := by
      rw [Dict.get?_erase] at hget'
      split_ifs at hget'
      exact hget'
    refine ⟨List.pairwise_append.mpr ⟨h.order, ?_, ?_⟩, ?_, ?_, ?_⟩
    · rw [List.pairwise_pair]
      exact fun hne => absurd (hturn.trans hturn'.symm) hne
    · intro m hm other hother hne
      rcases List.mem_pair.mp hother with rfl | rfl
      · exact (h.last id other hget m hm).resolve_left fun heq => hne (heq.trans hturn.symm)
      · exact (h.bound m hm).trans_eq horigin.symm
    · intro m hm
      rcases List.mem_append.mp hm with hm | hm
      · exact (h.bound m hm).trans (by omega)
      · rcases List.mem_pair.mp hm with rfl | rfl
        · exact hlt.trans (by omega)
        · omega
    · intro id' part' hget' m hm
      have hsame : origin part = origin part' := h.same _ _ _ _ hget (hrest hget')
      rcases List.mem_append.mp hm with hm | hm
      · exact h.last id' part' (hrest hget') m hm
      · rcases List.mem_pair.mp hm with rfl | rfl
        · exact Or.inl (hturn.trans hsame)
        · exact Or.inl (hturn'.trans hsame)
    · exact fun id₁ part₁ id₂ part₂ hget₁ hget₂ => h.same _ _ _ _ (hrest hget₁) (hrest hget₂)
  · -- No call waits when a message passes.
    have hnone (id : ι) (part : Marked ι κ β τ) : pending'.get? id ≠ some part := by
      rcases hpass with hassistant | hempty
      · exact hfree hassistant id part
      · intro hget
        have hmem := Dict.get?_eq_some_iff.mp hget
        rw [hempty] at hmem
        cases hmem
    refine ⟨List.pairwise_append.mpr ⟨h.order, List.pairwise_singleton _ _, ?_⟩, ?_, ?_, ?_⟩
    · intro m hm other hother _
      obtain rfl := List.mem_singleton.mp hother
      exact (h.bound m hm).trans_eq horigin.symm
    · intro m hm
      rcases List.mem_append.mp hm with hm | hm
      · exact (h.bound m hm).trans (by omega)
      · obtain rfl := List.mem_singleton.mp hm
        omega
    · exact fun id part hget => absurd hget (hnone id part)
    · exact fun id part _ _ hget => absurd hget (hnone id part)

/-- **A run keeps the order**, if no assistant message comes while a call waits. -/
theorem orderInv_of_ok {after : List (Marked ι κ β τ)} (hpos : Positions (before ++ after))
    (hids : (callIds (before ++ after)).Nodup) (hexclusive : Exclusive (before ++ after))
    (h : convertMessages emptyContent (noFields, none) Dict.empty before = .ok (pending, output)) :
    OrderInv (before ++ after) before pending output := by
  induction before using List.reverseRecOn generalizing pending output after with
  | nil =>
    obtain ⟨rfl, rfl⟩ := Prod.mk.inj (Except.ok.inj h)
    exact ⟨List.Pairwise.nil, by simp, by simp, by simp⟩
  | append_singleton before message ih =>
    obtain ⟨between, first, second, hfirst, hstep, rfl⟩ := convertMessages_concat.mp h
    rw [List.append_assoc, List.singleton_append] at hpos hids hexclusive ⊢
    have hbegin : before ++ [message] <+: before ++ message :: after :=
      ⟨after, by rw [List.append_assoc, List.singleton_append]⟩
    exact (ih hpos hids hexclusive hfirst).step hpos hids hexclusive
      (hpos.inv_of_ok hids (List.prefix_append _ _) hfirst) (hpos.inv_of_ok hids hbegin h) hstep

/-! ## Waiting calls are put out -/

/-- The calls of a message do not change the entries of other ids. -/
lemma addToolCalls_get? {content : β} {i : ℕ} {calls : List (ToolCall ι (κ × ℕ))} {id : ι}
    (h : addToolCalls emptyContent (noFields, none) content i calls pending = .ok pending')
    (hnew : ∀ call ∈ calls, call.id ≠ some id) : pending'.get? id = pending.get? id := by
  induction calls generalizing i pending with
  | nil =>
    obtain rfl := Except.ok.inj h
    rfl
  | cons call calls ih =>
    obtain ⟨hcall, hcalls⟩ := List.forall_mem_cons.mp hnew
    rw [addToolCalls] at h
    cases hid : call.id with
    | none =>
      rw [hid] at h
      cases h
    | some id' =>
      rw [hid] at h hcall
      have hne : id ≠ id' := fun heq => hcall (congrArg some heq.symm)
      rw [ih h hcalls, Dict.get?_set, if_neg hne]

/-- A waiting call waits on, or the message is its result. -/
lemma get?_step {more : List (Marked ι κ β τ)} {id : ι} {part : Marked ι κ β τ}
    (hstep : step emptyContent (noFields, none) pending message = .ok (pending', more))
    (hget : pending.get? id = some part) (hnew : ∀ call ∈ message.calls, call.id ≠ some id) :
    pending'.get? id = some part ∨
      IsResult message (some id) ∧ more = [part, message] ∧ pending' = pending.erase id := by
  rcases step_cases hstep with ⟨-, hadd, -⟩ | ⟨hrole, id', part', hid, hget', rfl, rfl⟩ |
    ⟨-, -, rfl, -⟩
  · exact Or.inl ((addToolCalls_get? hadd hnew).trans hget)
  · by_cases heq : id = id'
    · subst heq
      obtain rfl := Option.some.inj (hget'.symm.trans hget)
      exact Or.inr ⟨⟨hrole, hid⟩, rfl, rfl⟩
    · exact Or.inl (by rw [Dict.get?_erase, if_neg heq, hget])
  · exact Or.inl hget

/-- **A waiting call is put out**, if it does not wait at the end. -/
lemma mem_of_get? {messages : List (Marked ι κ β τ)} {id : ι} {part : Marked ι κ β τ}
    (h : convertMessages emptyContent (noFields, none) pending messages = .ok (pending', output))
    (hget : pending.get? id = some part) (hend : pending'.get? id = none)
    (hnew : ∀ m ∈ messages, ∀ call ∈ m.calls, call.id ≠ some id) : part ∈ output := by
  induction messages generalizing pending output with
  | nil =>
    obtain ⟨rfl, rfl⟩ := Prod.mk.inj (Except.ok.inj h)
    rw [hend] at hget
    cases hget
  | cons message messages ih =>
    obtain ⟨hmessage, hmessages⟩ := List.forall_mem_cons.mp hnew
    obtain ⟨between, first, second, hstep, hrest, rfl⟩ := convertMessages_cons.mp h
    rcases get?_step hstep hget hmessage with hget' | ⟨-, rfl, -⟩
    · exact List.mem_append_right _ (ih hrest hget' hmessages)
    · exact List.mem_append_left _ (by simp)

/-- **Two waiting calls**: the second one is put out before the first one, or it comes behind the
result of the first one. -/
lemma cut_of_get? {messages : List (Marked ι κ β τ)} {id id' : ι} {part part' : Marked ι κ β τ}
    (h : convertMessages emptyContent (noFields, none) pending messages = .ok (pending', output))
    (hne : id ≠ id') (hget : pending.get? id = some part) (hget' : pending.get? id' = some part')
    (hend : pending'.get? id = none) (hend' : pending'.get? id' = none)
    (hnew : ∀ m ∈ messages, ∀ call ∈ m.calls, call.id ≠ some id ∧ call.id ≠ some id') :
    ∃ first second, output = first ++ second ∧
      (part' ∈ first ∧ part ∈ second ∨
        part' ∈ second ∧ ∃ result ∈ messages, result ∈ first ∧ IsResult result (some id)) := by
  induction messages generalizing pending output with
  | nil =>
    obtain ⟨rfl, rfl⟩ := Prod.mk.inj (Except.ok.inj h)
    rw [hend] at hget
    cases hget
  | cons message messages ih =>
    obtain ⟨hmessage, hmessages⟩ := List.forall_mem_cons.mp hnew
    obtain ⟨between, first, second, hstep, hrest, rfl⟩ := convertMessages_cons.mp h
    rcases get?_step hstep hget fun call hcall => (hmessage call hcall).1 with
      hwaits | ⟨hresult, rfl, rfl⟩
    · rcases get?_step hstep hget' fun call hcall => (hmessage call hcall).2 with
        hwaits' | ⟨-, rfl, -⟩
      · obtain ⟨start, rest, rfl, hcut⟩ := ih hrest hwaits hwaits' hmessages
        refine ⟨first ++ start, rest, (List.append_assoc _ _ _).symm, ?_⟩
        rcases hcut with ⟨hfirst, hsecond⟩ | ⟨hsecond, result, hmem, hfirst, hresult⟩
        · exact Or.inl ⟨List.mem_append_right _ hfirst, hsecond⟩
        · exact Or.inr ⟨hsecond, result, List.mem_cons_of_mem _ hmem,
            List.mem_append_right _ hfirst, hresult⟩
      · exact ⟨_, second, rfl, Or.inl ⟨by simp, mem_of_get? hrest hwaits hend
          fun m hm call hcall => (hmessages m hm call hcall).1⟩⟩
    · have hwaits' : (pending.erase id).get? id' = some part' := by
        rw [Dict.get?_erase, if_neg hne.symm, hget']
      exact ⟨_, second, rfl, Or.inr ⟨mem_of_get? hrest hwaits' hend'
        fun m hm call hcall => (hmessages m hm call hcall).2, message, by simp, by simp, hresult⟩⟩

/-- **A run in order** has no assistant message that comes while a call waits: what was put out for
the message, or for the turn of the waiting call, comes too early. -/
theorem exclusive_of_inOrder (hpos : Positions input) (hids : (callIds input).Nodup)
    (h : convertMessages emptyContent (noFields, none) Dict.empty input = .ok (pending, output))
    (hend : pending.entries = []) (horder : InOrder input output) : Exclusive input := by
  intro x message hmessage hassistant hwaits
  obtain ⟨before, after, rfl, rfl⟩ : ∃ before after, input = before ++ message :: after ∧
      before.length = x := by
    obtain ⟨hlt, rfl⟩ := List.getElem?_eq_some_iff.mp hmessage
    exact ⟨input.take x, input.drop (x + 1), by simp, by simp [hlt.le]⟩
  obtain ⟨between, start, _, hstart, hbehind, rfl⟩ := convertMessages_append.mp h
  obtain ⟨between', more, rest, hstep, hrest, rfl⟩ := convertMessages_cons.mp hbehind
  have hbegin : before ++ [message] <+: before ++ message :: after :=
    ⟨after, by rw [List.append_assoc, List.singleton_append]⟩
  have hinv : Inv emptyContent noFields before between start :=
    hpos.inv_of_ok hids (List.prefix_append _ _) hstart
  have hinv' : Inv emptyContent noFields (before ++ [message]) between' (start ++ more) :=
    hpos.inv_of_ok hids hbegin (convertMessages_concat.mpr ⟨_, _, _, hstart, hstep, rfl⟩)
  have hgone (id : ι) : pending.get? id = none := by
    rw [Dict.get?_eq_none_iff, Dict.keys, hend]
    exact List.not_mem_nil
  obtain ⟨id, part, hget⟩ := hinv.waits_iff.mp hwaits
  obtain ⟨hlt, hturn, hresult⟩ := hinv.part_spec hpos hids (List.prefix_append _ _) hget
  obtain ⟨hpart, call, hcall, hcallId⟩ := hinv.get?_eq hget
  obtain ⟨hnewMessage, hnewAfter⟩ :=
    List.forall_mem_cons.mp (ne_of_mem_callIds hids (hpart.mem_callIds hcall hcallId))
  obtain ⟨-, horderRest, horderMore⟩ := List.pairwise_append.mp (List.pairwise_append.mp horder).2.1
  rcases step_cases hstep with ⟨hpar, -, rfl⟩ | ⟨htool, -⟩ | ⟨-, -, rfl, rfl⟩
  · -- A call of the message waits too.
    obtain ⟨call', hcall'⟩ : ∃ call', message.calls[0]? = some call' :=
      ⟨_, List.getElem?_eq_getElem (Nat.zero_lt_of_lt hpar.2)⟩
    obtain ⟨id', hid'⟩ := Option.isSome_iff_exists.mp
      (hinv'.ids message (by simp) hpar call' (List.mem_of_getElem? hcall'))
    have hget' := (hinv'.waiting id' _).mpr
      (waitingFor_concat.mpr (Or.inr ⟨hpar, 0, call', hcall', hid', rfl⟩))
    set part' : Marked ι κ β τ :=
      toolCallMessage emptyContent (noFields, none) message.content 0 call' with hpart'
    have horigin' : origin part' = before.length := hpos.origin_part hmessage hcall'
    have hturn' : turn (before ++ message :: after) part' = origin part' :=
      turn_of_ne fun htool => by cases htool
    have hne : id ≠ id' := fun heq =>
      hnewMessage call' (List.mem_of_getElem? hcall') (heq ▸ hid')
    have hnew' : ∀ m ∈ after, ∀ call ∈ m.calls, call.id ≠ some id' := by
      have hmem : id' ∈ callIds (before ++ [message]) :=
        (hinv'.get?_eq hget').1.mem_callIds rfl hid'
      refine ne_of_mem_callIds ?_ hmem
      rwa [List.append_assoc, List.singleton_append]
    have hwaits' : between'.get? id = some part :=
      (get?_step hstep hget hnewMessage).resolve_right fun hres => hpar.not_isResult _ hres.1
    obtain ⟨first, second, rfl, hcut⟩ := cut_of_get? hrest hne hwaits' hget' (hgone id) (hgone id')
      fun m hm call hcall => ⟨hnewAfter m hm call hcall, hnew' m hm call hcall⟩
    obtain ⟨-, -, hcross⟩ := List.pairwise_append.mp horderRest
    rcases hcut with ⟨hfirst, hsecond⟩ | ⟨hsecond, result, hmem, hfirst, hisResult⟩
    · have hearly := hcross part' hfirst part hsecond (by omega)
      omega
    · have hlate := hcross result hfirst part' hsecond (by rw [hresult result hisResult]; omega)
      obtain ⟨k, hk⟩ := List.mem_iff_getElem?.mp hmem
      have hposition : (before ++ message :: after)[before.length + (k + 1)]? = some result := by
        rw [List.getElem?_append_right (Nat.le_add_right _ _), Nat.add_sub_cancel_left,
          List.getElem?_cons_succ, hk]
      have horigin := hpos.origin_eq hposition
      omega
  · rw [hassistant] at htool
    cases htool
  · -- The message itself is put out before the waiting call.
    have hmem : part ∈ rest := mem_of_get? hrest hget (hgone id) hnewAfter
    have horigin : origin message = before.length := hpos.origin_eq hmessage
    have hturnMessage : turn (before ++ message :: after) message = origin message :=
      turn_of_ne (by rw [hassistant]; decide)
    have hearly := horderMore message (by simp) part hmem (by omega)
    omega

end Order

/-! ## Conversations -/

section Conversation

variable {κ' τ' : Type}

/-- The calls of messages with other keys. -/
lemma callIds_map (f : κ → κ') (g : τ → τ') (messages : List (Message ι κ β τ)) :
    callIds (messages.map (Message.map f g)) = callIds messages := by
  have hid : (fun call : ToolCall ι κ => (call.map f).id) = ToolCall.id := rfl
  simp only [callIds, List.flatMap_map, Message.calls_map, ← List.map_flatMap,
    List.filterMap_map, Function.comp_def, hid]

/-- The waiting calls among messages with other keys. -/
lemma waits_map (f : κ → κ') (g : τ → τ') (messages : List (Message ι κ β τ)) (x : ℕ) :
    Waits (messages.map (Message.map f g)) x ↔ Waits messages x := by
  constructor
  · rintro ⟨p, _, _, hp, hmapped, hpar, hmappedCall, hnone⟩
    rw [List.getElem?_map] at hmapped
    obtain ⟨c, hc, rfl⟩ := Option.map_eq_some_iff.mp hmapped
    rw [Message.calls_map] at hmappedCall
    obtain ⟨call, hcall, rfl⟩ := List.mem_map.mp hmappedCall
    refine ⟨p, c, call, hp, hc, (Message.isParallel_map f g c).mp hpar, hcall, ?_⟩
    exact fun r t hr hrx ht => hnone r (t.map f g) hr hrx (by rw [List.getElem?_map, ht]; rfl)
  · rintro ⟨p, c, call, hp, hc, hpar, hcall, hnone⟩
    refine ⟨p, c.map f g, call.map f, hp, by rw [List.getElem?_map, hc]; rfl,
      (Message.isParallel_map f g c).mpr hpar, ?_, fun r _ hr hrx hmapped => ?_⟩
    · rw [Message.calls_map]
      exact List.mem_map_of_mem hcall
    · rw [List.getElem?_map] at hmapped
      obtain ⟨t, ht, rfl⟩ := Option.map_eq_some_iff.mp hmapped
      exact hnone r t hr hrx ht

/-- The condition on messages with other keys. -/
lemma exclusive_map (f : κ → κ') (g : τ → τ') (messages : List (Message ι κ β τ)) :
    Exclusive (messages.map (Message.map f g)) ↔ Exclusive messages := by
  constructor
  · intro h x message hmessage hassistant
    rw [← waits_map f g]
    exact h x (message.map f g) (by rw [List.getElem?_map, hmessage]; rfl) hassistant
  · intro h x _ hmapped hassistant
    rw [List.getElem?_map] at hmapped
    obtain ⟨message, hmessage, rfl⟩ := Option.map_eq_some_iff.mp hmapped
    rw [waits_map]
    exact h x message hmessage hassistant

/-- The marks are put on every message and every call. -/
lemma positions_mark (messages : List (Message ι κ β τ)) : Positions (mark messages) := by
  intro p message hmessage
  rw [mark, List.getElem?_mapIdx] at hmessage
  obtain ⟨message, -, rfl⟩ := Option.map_eq_some_iff.mp hmessage
  refine ⟨rfl, fun call hcall => ?_⟩
  rw [Message.calls_map] at hcall
  obtain ⟨call, -, rfl⟩ := List.mem_map.mp hcall
  rfl

/-- The conversation without its marks. -/
lemma map_unmark_mark (messages : List (Message ι κ β τ)) :
    (mark messages).map unmark = messages := by
  have hcall (p : ℕ) : ToolCall.map Prod.fst ∘ ToolCall.map (fun fields : κ => (fields, p)) =
      (id : ToolCall ι κ → ToolCall ι κ) := rfl
  have hself (p : ℕ) (message : Message ι κ β τ) :
      unmark (message.map (fun fields => (fields, p)) fun fields => (fields, some p)) = message := by
    obtain ⟨role, content, toolCalls, toolCallId, fields⟩ := message
    cases toolCalls with
    | none => rfl
    | some calls =>
      simp only [unmark, Message.map, Option.map_some, List.map_map, hcall, List.map_id]
  refine List.ext_getElem? fun p => ?_
  rw [List.getElem?_map, mark, List.getElem?_mapIdx, Option.map_map]
  cases messages[p]? with
  | none => rfl
  | some message => exact congrArg some (hself p message)

variable [DecidableEq ι] {emptyContent : β} {noFields : τ} {messages out : List (Message ι κ β τ)}

/-- The run on the conversation with its marks. -/
lemma exists_marked_run
    (h : convertFromMultipleToolCallsToSingleToolCallMessages emptyContent noFields messages false =
      .ok out) :
    ∃ output pending, convertFromMultipleToolCallsToSingleToolCallMessages emptyContent
        (noFields, none) (mark messages) false = .ok output ∧ output.map unmark = out ∧
      convertMessages emptyContent (noFields, none) Dict.empty (mark messages) =
        .ok (pending, output) ∧ pending.entries = [] := by
  have hmap := convert_map emptyContent (noFields, (none : Option ℕ)) Prod.fst Prod.fst
    (mark messages) false
  have hunmark : (mark messages).map (Message.map Prod.fst Prod.fst) = messages :=
    map_unmark_mark messages
  rw [hunmark, h] at hmap
  cases hrun : convertFromMultipleToolCallsToSingleToolCallMessages emptyContent
      (noFields, (none : Option ℕ)) (mark messages) false with
  | error err =>
    rw [hrun] at hmap
    cases hmap
  | ok output =>
    rw [hrun] at hmap
    have hloop := hrun
    rw [convertFromMultipleToolCallsToSingleToolCallMessages] at hloop
    obtain ⟨⟨pending, converted⟩, hconverted, hcheck⟩ := Except.bind_eq_ok.mp hloop
    rw [Except.ite_throw_eq_ok] at hcheck
    obtain rfl := Except.ok.inj hcheck.2
    refine ⟨converted, pending, rfl, (Except.ok.inj hmap).symm, hconverted, ?_⟩
    by_contra hne
    exact hcheck.1 ⟨rfl, hne⟩

omit [DecidableEq ι] in
/-- The ids of the calls are those of the conversation. -/
lemma nodup_callIds_mark (hids : (callIds messages).Nodup) : (callIds (mark messages)).Nodup := by
  rw [← callIds_map Prod.fst Prod.fst]
  exact (map_unmark_mark messages).symm ▸ hids

/-- Behind the whole loop no call waits. -/
lemma complete_of_loop {output : List (Marked ι κ β τ)} {pending : Dict ι (Marked ι κ β τ)}
    (hids : (callIds (mark messages)).Nodup)
    (hloop : convertMessages emptyContent (noFields, none) Dict.empty (mark messages) =
      .ok (pending, output)) (hempty : pending.entries = []) :
    Complete emptyContent noFields (mark messages) output := by
  have hinv := (positions_mark messages).inv_of_ok hids List.prefix_rfl hloop
  have hcalls := hinv.calls
  rw [hempty, List.flatMap_nil, List.append_nil] at hcalls
  exact ⟨hinv.toArranged, hcalls⟩

/-- **Nothing is lost**: if the conversion returns, every call and every message is put out once,
and a split call stands right before its own result. -/
theorem complete_of_ok (hids : (callIds messages).Nodup)
    (h : convertFromMultipleToolCallsToSingleToolCallMessages emptyContent noFields messages false =
      .ok out) :
    ∃ output, convertFromMultipleToolCallsToSingleToolCallMessages emptyContent (noFields, none)
        (mark messages) false = .ok output ∧ output.map unmark = out ∧
      Complete emptyContent noFields (mark messages) output := by
  obtain ⟨output, pending, hrun, hout, hloop, hempty⟩ := exists_marked_run h
  exact ⟨output, hrun, hout, complete_of_loop (nodup_callIds_mark hids) hloop hempty⟩

/-- **When the conversion regroups faithfully**: exactly if no assistant message comes while a call
of an earlier message waits for its result. -/
theorem regrouped_iff (hids : (callIds messages).Nodup)
    (h : convertFromMultipleToolCallsToSingleToolCallMessages emptyContent noFields messages false =
      .ok out) :
    ∃ output, convertFromMultipleToolCallsToSingleToolCallMessages emptyContent (noFields, none)
        (mark messages) false = .ok output ∧ output.map unmark = out ∧
      (Regrouped emptyContent noFields (mark messages) output ↔ Exclusive messages) := by
  obtain ⟨output, pending, hrun, hout, hloop, hempty⟩ := exists_marked_run h
  have hpos := positions_mark messages
  have hmarked := nodup_callIds_mark hids
  have hexclusive : Exclusive (mark messages) ↔ Exclusive messages := by
    have hunmark : (mark messages).map (Message.map Prod.fst Prod.fst) = messages :=
      map_unmark_mark messages
    rw [← exclusive_map Prod.fst Prod.fst (mark messages), hunmark]
  refine ⟨output, hrun, hout, ?_⟩
  rw [← hexclusive]
  constructor
  · exact fun hregrouped => exclusive_of_inOrder hpos hmarked hloop hempty hregrouped.order
  · intro hall
    refine ⟨complete_of_loop hmarked hloop hempty, ?_⟩
    have hnil : mark messages ++ [] = mark messages := List.append_nil _
    have horder : OrderInv (mark messages ++ []) (mark messages) pending output :=
      orderInv_of_ok (hnil.symm ▸ hpos) (hnil.symm ▸ hmarked) (hnil.symm ▸ hall) hloop
    exact (hnil ▸ horder).order

end Conversation

/-! ## Two conversations -/

/-- A message with a text. -/
def textMessage (role : Role) (text : String) : Message String String String Unit :=
  ⟨role, text, none, none, ()⟩

/-- Two calls in one message. -/
def twoCalls (text : String) : Message String String String Unit :=
  ⟨.assistant, text, some [⟨some "a", "ls"⟩, ⟨some "b", "pwd"⟩], none, ()⟩

/-- The result of a call. -/
def resultMessage (id text : String) : Message String String String Unit :=
  ⟨.tool, text, none, some id, ()⟩

/-- The message for one call. -/
def oneCall (text id command : String) : Message String String String Unit :=
  ⟨.assistant, text, some [⟨some id, command⟩], none, ()⟩

/-- Results in another order than their calls are regrouped. -/
theorem regrouped_iff_run : ∃ output,
    convertFromMultipleToolCallsToSingleToolCallMessages "" ((), none)
        (mark [twoCalls "Two commands.", resultMessage "b" "/root", resultMessage "a" "src"])
        false = .ok output ∧
      output.map unmark = [oneCall "" "b" "pwd", resultMessage "b" "/root",
        oneCall "Two commands." "a" "ls", resultMessage "a" "src"] ∧
      (Regrouped "" ()
          (mark [twoCalls "Two commands.", resultMessage "b" "/root", resultMessage "a" "src"])
          output ↔
        Exclusive [twoCalls "Two commands.", resultMessage "b" "/root", resultMessage "a" "src"]) :=
  regrouped_iff (by decide) rfl

/-- A conversation in which a message of the assistant comes between two results. -/
def overtaken : List (Message String String String Unit) :=
  [twoCalls "Two commands.", resultMessage "a" "src", textMessage .assistant "One more to come.",
    resultMessage "b" "/root"]

/-- **A call moves behind a later message**: the second call waits while a message of the assistant
passes, and is put out behind it. -/
theorem not_regrouped_overtaken : (callIds overtaken).Nodup ∧
    convertFromMultipleToolCallsToSingleToolCallMessages "" () overtaken false =
      .ok [oneCall "Two commands." "a" "ls", resultMessage "a" "src",
        textMessage .assistant "One more to come.", oneCall "" "b" "pwd",
        resultMessage "b" "/root"] ∧
    ∃ output, convertFromMultipleToolCallsToSingleToolCallMessages "" ((), none) (mark overtaken)
        false = .ok output ∧
      ¬ Regrouped "" () (mark overtaken) output := by
  refine ⟨by decide, rfl, _, rfl, fun h => ?_⟩
  have horder := h.order
  rw [InOrder] at horder
  exact absurd horder (by decide)

end ProRLAgent.Parallel
