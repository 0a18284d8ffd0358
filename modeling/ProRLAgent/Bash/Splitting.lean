import ProRLAgent.Bash.Escaping
import ProRLAgent.FnCall.Loaded
import ProRLAgent.Lib.Lines

set_option relaxedAutoImplicit false
set_option autoImplicit false

/-!
# Splitting a text into commands

`split_bash_commands` of `openhands/runtime/utils/bash.py` gives each node that `bashlex` finds a
part of its own. What stands between two nodes or behind the last one goes to the part before it, and
what stands before the first node is a part of its own if it is not blank.

The parser is a parameter: it fails, or it returns the nodes with their spans.

## Main definitions

* `ProRLAgent.Bash.splitBashCommands` — the function.
* `ProRLAgent.Bash.Spans` — increasing, disjoint spans inside a text.

## Main results

* `ProRLAgent.Bash.splitBashCommands_splits` — nothing is lost, and there is a part for each node.
-/

namespace ProRLAgent.Bash

open FnCall (Text)
open PyText

/-! ## The function -/

/-- `result[-1] += text`. -/
def appendLast : List Text → Text → List Text
  | [], _ => []
  | [part], text => [part ++ text]
  | part :: parts, text => part :: appendLast parts text

-- The equations of these functions are generated here, not in each proof that unfolds them.
section

attribute [local simp] appendLast

end

/-- `commands[start:stop]`. -/
def between (commands : Text) (start stop : ℕ) : Text := (commands.take stop).drop start

/-- The parts after the text before a node. -/
def addGap (result : List Text) (gap : Text) : List Text :=
  if result ≠ [] then appendLast result (rstrip gap)
  else if strip gap ≠ [] then result ++ [rstrip gap]
  else result

/-- The parts and the end of the last node, after one more node. -/
def addNode (commands : Text) (state : List Text × ℕ) (pos : Span) : List Text × ℕ :=
  let (result, lastEnd) := state
  let ⟨start, stop⟩ := pos
  let result :=
    if lastEnd < start then addGap result (between commands lastEnd start) else result
  (result ++ [rstrip (between commands start stop)], stop)

/-- The parts with the text behind the last node. -/
def addRemaining (commands : Text) (state : List Text × ℕ) : List Text :=
  let (result, lastEnd) := state
  let remaining := rstrip (commands.drop lastEnd)
  if lastEnd < commands.length then
    if result ≠ [] then appendLast result remaining
    else if remaining ≠ [] then result ++ [remaining]
    else result
  else result

/-- **`split_bash_commands`.** -/
def splitBashCommands (parse : Text → Except BashlexError (List Node)) (commands : Text) :
    Except BashlexError (List Text) :=
  if strip commands = [] then .ok [[]]
  else
    match parse commands with
    | .ok parsed =>
      .ok (addRemaining commands ((parsed.map Node.pos).foldl (addNode commands) ([], 0)))
    | .error (.other name) =>
      if name = "AttributeError" then .ok [commands] else .error (.other name)
    | .error _ => .ok [commands]

/-! ## Spans -/

/-- Increasing, disjoint spans from a position on, inside a text of some length. -/
def SpansFrom (length : ℕ) : ℕ → List Span → Prop
  | lastEnd, [] => lastEnd ≤ length
  | lastEnd, ⟨start, stop⟩ :: nodes => lastEnd ≤ start ∧ start ≤ stop ∧ SpansFrom length stop nodes

/-- **Increasing, disjoint spans inside a text.** -/
def Spans (commands : Text) (nodes : List Span) : Prop := SpansFrom commands.length 0 nodes

/-- The text before the first node, or all of the text without nodes. -/
def beforeNodes (commands : Text) : List Span → Text
  | [] => commands
  | ⟨start, _⟩ :: _ => commands.take start

/-- The node stands for some text. -/
def StandsForText (commands : Text) (node : Span) : Prop :=
  strip (between commands node.start node.stop) ≠ []

variable {commands : Text}

/-- Spans end inside the text. -/
lemma SpansFrom.le_length {length lastEnd : ℕ} {nodes : List Span}
    (h : SpansFrom length lastEnd nodes) : lastEnd ≤ length := by
  induction nodes generalizing lastEnd with
  | nil => exact h
  | cons node nodes ih =>
    obtain ⟨hstart, hstop, hrest⟩ := h
    exact hstart.trans (hstop.trans (ih hrest))

/-! ## Parts -/

/-- The texts up to two positions. -/
lemma take_append_between (commands : Text) {start stop : ℕ} (h : start ≤ stop) :
    commands.take start ++ between commands start stop = commands.take stop := by
  have hparts := List.take_append_drop start (commands.take stop)
  rwa [List.take_take, Nat.min_eq_left h] at hparts

/-- Text behind the last part comes last. -/
lemma flatten_appendLast {parts : List Text} (h : parts ≠ []) (text : Text) :
    (appendLast parts text).flatten = parts.flatten ++ text := by
  induction parts with
  | nil => exact absurd rfl h
  | cons part parts ih =>
    rcases parts with _ | ⟨next, parts⟩
    · simp [appendLast]
    · rw [appendLast, List.flatten_cons, ih (by simp), List.flatten_cons (l := part), List.append_assoc]
      simp

/-- Text behind the last part makes no new part. -/
lemma length_appendLast (parts : List Text) (text : Text) :
    (appendLast parts text).length = parts.length := by
  induction parts with
  | nil => rfl
  | cons part parts ih =>
    rcases parts with _ | ⟨next, parts⟩
    · rfl
    · rw [appendLast, List.length_cons, ih, List.length_cons, List.length_cons, List.length_cons]
      exact List.cons_ne_nil next parts

/-- Text behind the last part leaves no part empty. -/
lemma ne_nil_of_mem_appendLast {parts : List Text} (h : ∀ part ∈ parts, part ≠ []) (text : Text) :
    ∀ part ∈ appendLast parts text, part ≠ [] := by
  induction parts with
  | nil => simp [appendLast]
  | cons part parts ih =>
    rw [List.forall_mem_cons] at h
    rcases parts with _ | ⟨next, parts⟩
    · simp [appendLast, h.1]
    · intro p hp
      rcases List.mem_cons.mp hp with rfl | hp
      · exact h.1
      · exact ih h.2 p hp

/-- Ink stays when the text is stripped at its end. -/
lemma rstrip_eq_nil_iff {text : Text} : rstrip text = [] ↔ ink text = [] := by
  constructor
  · intro h
    rw [← ink_rstrip, h]
    rfl
  · intro h
    rw [rstrip, List.rdropWhile_eq_nil_iff]
    exact ink_eq_nil_iff.mp h

/-! ## The loop -/

/-- **What text before a node or behind the last one does**: it goes into the parts, and into a new
one only if there is none and it is not blank. -/
theorem addGap_spec (result : List Text) (gap : Text) :
    ink (addGap result gap).flatten = ink result.flatten ++ ink gap ∧
      (addGap result gap).length =
        result.length + (if result = [] ∧ ink gap ≠ [] then 1 else 0) ∧
      ((∀ part ∈ result, part ≠ []) → ∀ part ∈ addGap result gap, part ≠ []) := by
  rw [addGap]
  by_cases hresult : result = []
  · subst hresult
    rw [if_neg (not_not.mpr rfl)]
    by_cases hgap : strip gap = []
    · have hink := strip_eq_nil_iff.mp hgap
      rw [if_neg (not_not.mpr hgap), if_neg fun h => h.2 hink, hink]
      exact ⟨rfl, rfl, fun h => h⟩
    · have hink := mt strip_eq_nil_iff.mpr hgap
      have hpart : rstrip gap ≠ [] := mt rstrip_eq_nil_iff.1 hink
      rw [if_pos hgap, if_pos ⟨rfl, hink⟩]
      refine ⟨?_, rfl, fun _ part hpart' => ?_⟩
      · rw [List.nil_append, List.flatten_singleton, ink_rstrip]
        rfl
      · exact List.mem_singleton.mp hpart' ▸ hpart
  · rw [if_pos hresult, if_neg fun h => hresult h.1, flatten_appendLast hresult, ink_append,
      ink_rstrip, length_appendLast]
    exact ⟨rfl, rfl, fun h => ne_nil_of_mem_appendLast h _⟩

/-- **What one node does**: the text up to its end has gone into the parts, and there is one more
part, or two if text before the first node is not blank. -/
theorem addNode_spec {result : List Text} {lastEnd start stop : ℕ} (hstart : lastEnd ≤ start)
    (hstop : start ≤ stop) (hink : ink result.flatten = ink (commands.take lastEnd)) :
    ∃ parts, addNode commands (result, lastEnd) ⟨start, stop⟩ = (parts, stop) ∧ parts ≠ [] ∧
      ink parts.flatten = ink (commands.take stop) ∧
      parts.length = result.length + 1 +
        (if result = [] ∧ ink (between commands lastEnd start) ≠ [] then 1 else 0) ∧
      ((∀ part ∈ result, part ≠ []) → StandsForText commands ⟨start, stop⟩ →
        ∀ part ∈ parts, part ≠ []) := by
  obtain ⟨parts, hparts, hinkParts, hlength, hne⟩ : ∃ parts,
      (if lastEnd < start then addGap result (between commands lastEnd start) else result) = parts ∧
        ink parts.flatten = ink (commands.take start) ∧
        parts.length = result.length +
          (if result = [] ∧ ink (between commands lastEnd start) ≠ [] then 1 else 0) ∧
        ((∀ part ∈ result, part ≠ []) → ∀ part ∈ parts, part ≠ []) := by
    refine ⟨_, rfl, ?_⟩
    rw [← take_append_between commands hstart, ink_append, ← hink]
    by_cases hlt : lastEnd < start
    · rw [if_pos hlt]
      exact addGap_spec result (between commands lastEnd start)
    · -- There is no text before the node.
      obtain rfl : lastEnd = start := by omega
      have hgap : between commands lastEnd lastEnd = [] :=
        List.drop_eq_nil_of_le (List.length_take_le _ _)
      have hnone : ink (between commands lastEnd lastEnd) = [] := by rw [hgap]; rfl
      rw [if_neg hlt, if_neg fun h => h.2 hnone, hnone, List.append_nil]
      exact ⟨rfl, rfl, fun h => h⟩
  refine ⟨parts ++ [rstrip (between commands start stop)], ?_, by simp, ?_, ?_, fun hresult hspan => ?_⟩
  · rw [addNode, hparts]
  · rw [List.flatten_append, ink_append, hinkParts, ← take_append_between commands hstop]
    simp
  · rw [List.length_append, hlength, List.length_singleton]
    omega
  · intro part hmem
    rcases List.mem_append.mp hmem with hmem | hmem
    · exact hne hresult part hmem
    · rw [List.mem_singleton.mp hmem]
      exact fun hnil => hspan (strip_eq_nil_iff.mpr (rstrip_eq_nil_iff.1 hnil))

/-- **What all nodes do**: the text up to the end of the last one has gone into the parts. -/
theorem foldl_addNode_spec {nodes : List Span} {result : List Text} {lastEnd : ℕ}
    (hspans : SpansFrom commands.length lastEnd nodes)
    (hink : ink result.flatten = ink (commands.take lastEnd)) :
    ∃ parts stop, nodes.foldl (addNode commands) (result, lastEnd) = (parts, stop) ∧
      stop ≤ commands.length ∧ ink parts.flatten = ink (commands.take stop) ∧
      (result ≠ [] → parts ≠ [] ∧ parts.length = result.length + nodes.length) ∧
      ((∀ part ∈ result, part ≠ []) → (∀ node ∈ nodes, StandsForText commands node) →
        ∀ part ∈ parts, part ≠ []) := by
  induction nodes generalizing result lastEnd with
  | nil => exact ⟨result, lastEnd, rfl, hspans, hink, fun h => ⟨h, rfl⟩, fun h _ => h⟩
  | cons node nodes ih =>
    obtain ⟨start, stop⟩ := node
    obtain ⟨hstart, hstop, hrest⟩ := hspans
    obtain ⟨parts, hparts, hnil, hinkParts, hlength, hne⟩ := addNode_spec hstart hstop hink
    obtain ⟨all, last, hall, hlast, hinkAll, hcount, hneAll⟩ := ih hrest hinkParts
    refine ⟨all, last, ?_, hlast, hinkAll, fun hresult => ?_, fun hresult hspan => ?_⟩
    · rw [List.foldl_cons, hparts, hall]
    · obtain ⟨hallNil, hallLength⟩ := hcount hnil
      rw [if_neg fun h => hresult h.1] at hlength
      refine ⟨hallNil, ?_⟩
      rw [hallLength, hlength, List.length_cons]
      omega
    · rw [List.forall_mem_cons] at hspan
      exact hneAll (hne hresult hspan.1) hspan.2

/-- The text behind the last node is added like the text before a node. -/
lemma addRemaining_eq (result : List Text) (lastEnd : ℕ) :
    addRemaining commands (result, lastEnd) =
      if lastEnd < commands.length then addGap result (commands.drop lastEnd) else result := by
  have hstrip : strip (commands.drop lastEnd) ≠ [] ↔ rstrip (commands.drop lastEnd) ≠ [] := by
    rw [ne_eq, ne_eq, strip_eq_nil_iff, rstrip_eq_nil_iff]
  simp only [addRemaining, addGap, hstrip]

/-- **Nothing is lost** when the parser finds nodes: the parts have all ink of the text, there is one
for each node and one more for text before the first node, and none is empty if every node stands for
some text. -/
theorem addRemaining_spec {nodes : List Span} (hspans : Spans commands nodes)
    (hcommands : strip commands ≠ []) :
    ∃ parts, addRemaining commands (nodes.foldl (addNode commands) ([], 0)) = parts ∧
      ink parts.flatten = ink commands ∧
      parts.length =
        nodes.length + (if strip (beforeNodes commands nodes) ≠ [] then 1 else 0) ∧
      ((∀ node ∈ nodes, StandsForText commands node) → ∀ part ∈ parts, part ≠ []) := by
  refine ⟨_, rfl, ?_⟩
  rcases nodes with _ | ⟨⟨start, stop⟩, nodes⟩
  · have hpos : 0 < commands.length :=
      List.length_pos_iff.mpr fun hnil => hcommands (by rw [hnil]; rfl)
    obtain ⟨hink, hlength, hne⟩ := addGap_spec [] commands
    rw [List.foldl_nil, addRemaining_eq, if_pos hpos, List.drop_zero, beforeNodes, if_pos hcommands]
    rw [if_pos ⟨rfl, mt strip_eq_nil_iff.mpr hcommands⟩] at hlength
    exact ⟨hink, hlength, fun _ => hne (by simp)⟩
  · obtain ⟨hstart, hstop, hrest⟩ := hspans
    have hnothing : ink ([] : List Text).flatten = ink (commands.take 0) := by simp
    obtain ⟨parts, hparts, hnil, hink, hlength, hne⟩ := addNode_spec hstart hstop hnothing
    obtain ⟨all, last, hall, hlast, hinkAll, hcount, hneAll⟩ := foldl_addNode_spec hrest hink
    obtain ⟨hallNil, hallLength⟩ := hcount hnil
    obtain ⟨hinkGap, hgapLength, hneGap⟩ := addGap_spec all (commands.drop last)
    rw [if_neg fun h => hallNil h.1] at hgapLength
    have htotal : all.length = nodes.length + 1 +
        (if strip (beforeNodes commands (⟨start, stop⟩ :: nodes)) ≠ [] then 1 else 0) := by
      have hbefore : (([] : List Text) = [] ∧ ink (between commands 0 start) ≠ []) ↔
          strip (beforeNodes commands (⟨start, stop⟩ :: nodes)) ≠ [] := by
        rw [beforeNodes, between, List.drop_zero, ne_eq (strip _), strip_eq_nil_iff]
        exact ⟨fun h => h.2, fun h => ⟨rfl, h⟩⟩
      rw [if_congr hbefore rfl rfl, List.length_nil] at hlength
      omega
    have hempty : ∀ part ∈ ([] : List Text), part ≠ [] := by simp
    rw [List.foldl_cons, hparts, hall, addRemaining_eq, List.length_cons]
    by_cases hlt : last < commands.length
    · rw [if_pos hlt]
      refine ⟨?_, by omega, fun hspan => hneGap ?_⟩
      · rw [hinkGap, hinkAll, ← ink_append, List.take_append_drop]
      · rw [List.forall_mem_cons] at hspan
        exact hneAll (hne hempty hspan.1) hspan.2
    · rw [if_neg hlt]
      refine ⟨?_, htotal, fun hspan => ?_⟩
      · rw [hinkAll, List.take_of_length_le (by omega)]
      · rw [List.forall_mem_cons] at hspan
        exact hneAll (hne hempty hspan.1) hspan.2

/-- **Splitting loses nothing**, if the parser fails or returns increasing, disjoint spans inside the
text: the parts have all ink of the text, and for a text that is not blank there is a part for each
node, and one more only if text before the first node is not blank. No part is empty if every node
stands for some text. -/
theorem splitBashCommands_splits {parse : Text → Except BashlexError (List Node)}
    (hspans : ∀ nodes, parse commands = .ok nodes → Spans commands (nodes.map Node.pos))
    {parts : List Text} (h : splitBashCommands parse commands = .ok parts) :
    ink parts.flatten = ink commands ∧
      (strip commands ≠ [] → ∀ nodes, parse commands = .ok nodes → parts.length =
        nodes.length + if strip (beforeNodes commands (nodes.map Node.pos)) ≠ [] then 1 else 0) ∧
      (strip commands ≠ [] → (∀ nodes, parse commands = .ok nodes →
        ∀ node ∈ nodes, StandsForText commands node.pos) → ∀ part ∈ parts, part ≠ []) := by
  rw [splitBashCommands] at h
  by_cases hblank : strip commands = []
  · rw [if_pos hblank] at h
    obtain rfl := Except.ok.inj h
    exact ⟨(strip_eq_nil_iff.mp hblank).symm, fun hne => absurd hblank hne,
      fun hne => absurd hblank hne⟩
  rw [if_neg hblank] at h
  rcases hparse : parse commands with err | nodes
  · obtain rfl : parts = [commands] := by
      rw [hparse] at h
      cases err with
      | other name =>
        simp only at h
        split_ifs at h
        exact (Except.ok.inj h).symm
      | _ => exact (Except.ok.inj h).symm
    refine ⟨by simp, fun _ nodes hnodes => (by cases hnodes), fun _ _ part hpart => ?_⟩
    obtain rfl := List.mem_singleton.mp hpart
    rintro rfl
    exact hblank rfl
  · obtain ⟨parts', hparts, hink, hlength, hne⟩ := addRemaining_spec (hspans nodes hparse) hblank
    rw [hparse] at h
    simp only [hparts] at h
    obtain rfl := Except.ok.inj h
    rw [List.length_map] at hlength
    refine ⟨hink, fun _ nodes' hnodes => ?_, fun _ hspan => hne ?_⟩
    · obtain rfl := Except.ok.inj hnodes
      exact hlength
    · intro pos hpos
      obtain ⟨node, hnode, rfl⟩ := List.mem_map.mp hpos
      exact hspan nodes rfl node hnode

/-- A parser that finds commands at some spans. -/
def parseAt (spans : List Span) (_ : Text) : Except BashlexError (List Node) :=
  .ok (spans.map fun pos => .mk (.other "command") pos none [])

/-- Two commands on two lines. -/
theorem splitBashCommands_splits_two :
    ink ["ls".toList, "pwd".toList].flatten = ink "ls\npwd".toList := by
  have hspans : ∀ nodes, parseAt [⟨0, 2⟩, ⟨3, 6⟩] "ls\npwd".toList = .ok nodes →
      Spans "ls\npwd".toList (nodes.map Node.pos) := by
    intro nodes h
    obtain rfl := Except.ok.inj h
    have hlength : 6 ≤ "ls\npwd".toList.length := by decide
    exact ⟨by decide, by decide, by decide, by decide, hlength⟩
  have hparts : splitBashCommands (parseAt [⟨0, 2⟩, ⟨3, 6⟩]) "ls\npwd".toList =
      .ok ["ls".toList, "pwd".toList] := rfl
  exact (splitBashCommands_splits hspans hparts).1

/-- A node that stands for no text has an empty part. -/
theorem splitBashCommands_blank_node :
    Spans "a b".toList [⟨0, 1⟩, ⟨1, 2⟩, ⟨2, 3⟩] ∧
      splitBashCommands (parseAt [⟨0, 1⟩, ⟨1, 2⟩, ⟨2, 3⟩]) "a b".toList =
        .ok ["a".toList, [], "b".toList] := by
  have hlength : 3 ≤ "a b".toList.length := by decide
  exact ⟨⟨by decide, by decide, by decide, by decide, by decide, by decide, hlength⟩, rfl⟩

end ProRLAgent.Bash
