import ProRLAgent.Lib.PyText
import ProRLAgent.Lib.Slices
import Mathlib.Algebra.GroupWithZero.Nat

set_option relaxedAutoImplicit false
set_option autoImplicit false

/-!
# Escaped commands

Before a command goes to the shell, `escape_bash_special_chars` doubles the backslashes before `;`,
`&`, `|`, `>` and `<`. It walks over the tree of the parser and copies the command in slices: the
text up to a word with its backslashes doubled, the word, and a here-document with its redirect as
they are. A position remembers up to where the command has been copied.

Behind a here-document that position is set to the end of the redirect. The parser counts the
here-document to the redirect only if it follows directly; otherwise the text between the two and
the here-document are copied again.

The parser is a parameter: a function that gives the trees of a command or raises.

## Main definitions

* `ProRLAgent.Bash.escapeBashSpecialChars` — the function.
* `ProRLAgent.Bash.Doubled` — a text with some of its backslashes doubled.
* `ProRLAgent.Bash.Placed` — the positions that the parser promises.
* `ProRLAgent.Bash.hereDocuments` — the redirects with a here-document that the walk meets.

## Main results

* `ProRLAgent.Bash.reassemble_doubled_iff` — the copy is the command with backslashes doubled
  exactly if the here-documents follow their redirects directly.
-/

namespace ProRLAgent.Bash

open Slices

/-! ## Doubled backslashes -/

/-- The operators that are escaped. -/
def isOperator (c : Char) : Bool := c ∈ [';', '&', '|', '>', '<']

/-- `re.sub(r'\\([;&|><])', r'\\\\\1', text)`. -/
def escapeOperators : List Char → List Char
  | [] => []
  | c :: text =>
    if c = '\\' ∧ text.head?.any isOperator then '\\' :: '\\' :: escapeOperators text
    else c :: escapeOperators text

/-- **A text with zero or more of its backslashes before an operator doubled**, and otherwise as it
is. -/
inductive Doubled : List Char → List Char → Prop
  | nil : Doubled [] []
  | keep (c : Char) {text result : List Char} (h : Doubled text result) :
      Doubled (c :: text) (c :: result)
  | double {text result : List Char} (hop : text.head?.any isOperator) (h : Doubled text result) :
      Doubled ('\\' :: text) ('\\' :: '\\' :: result)

/-- A text as it is. -/
lemma Doubled.refl (text : List Char) : Doubled text text := by
  induction text with
  | nil => exact .nil
  | cons c text ih => exact .keep c ih

/-- Two texts, one behind the other. -/
lemma Doubled.append {x y x' y' : List Char} (h : Doubled x y) (h' : Doubled x' y') :
    Doubled (x ++ x') (y ++ y') := by
  induction h with
  | nil => exact h'
  | keep c _ ih => exact .keep c ih
  | @double text _ hop _ ih =>
    refine .double ?_ ih
    cases text with
    | nil => cases hop
    | cons c text => exact hop

/-- The escaped text. -/
lemma doubled_escapeOperators (text : List Char) : Doubled text (escapeOperators text) := by
  induction text with
  | nil => exact .nil
  | cons c text ih =>
    rw [escapeOperators]
    split_ifs with h
    · obtain ⟨rfl, hop⟩ := h
      exact .double hop ih
    · exact .keep c ih

/-- The other letters occur as often as before. -/
lemma Doubled.count_eq {text result : List Char} (h : Doubled text result) {c : Char}
    (hc : c ≠ '\\') : result.count c = text.count c := by
  induction h with
  | nil => rfl
  | keep d _ ih => rw [List.count_cons, List.count_cons, ih]
  | double _ _ ih => simp [ih, hc.symm]

/-! ## The trees of the parser -/

/-- The interval of a node in the command. -/
structure Span where
  start : ℕ
  stop : ℕ

/-- The kind of a node. The walk knows two of them by name. -/
inductive Kind where
  | word
  | redirect
  /-- A command, a list, a pipeline, an operator and the like. -/
  | other (name : String)

/-- A node of the parser: its kind, its position, the position of its here-document if it has one,
and its `parts` if it has some. -/
inductive Node where
  | mk (kind : Kind) (pos : Span) (heredoc : Option Span) (parts : List Node)

/-- `node.pos`. -/
def Node.pos : Node → Span
  | .mk _ pos _ _ => pos

/-- The exceptions of the parser. -/
inductive BashlexError where
  | parsing
  | notImplemented
  | typeError
  /-- An exception that the function does not catch. -/
  | other (name : String)

/-! ## The walk -/

/-- The copied slices and the position up to which the command has been copied. -/
structure Walk where
  parts : List (List Char)
  lastPos : ℕ

/-- A word that stands between quotes or is a command substitution. -/
def isQuoted (word : List Char) : Bool :=
  ("\"".toList.isPrefixOf word && "\"".toList.isSuffixOf word) ||
    ("'".toList.isPrefixOf word && "'".toList.isSuffixOf word) ||
    ("$(".toList.isPrefixOf word && ")".toList.isSuffixOf word) ||
    ("`".toList.isPrefixOf word && "`".toList.isSuffixOf word)

variable (command : List Char)

/-- The text before the node of a tree. -/
def Walk.enter (pos : Span) (w : Walk) : Walk where
  parts := w.parts ++ [escapeOperators (slice command (some w.lastPos) (some pos.start))]
  lastPos := pos.start

/-- A word with the text before it. -/
def Walk.word (pos : Span) (w : Walk) : Walk :=
  let between := slice command (some w.lastPos) (some pos.start)
  let wordText := slice command (some pos.start) (some pos.stop)
  { parts := w.parts ++ [escapeOperators between,
      if isQuoted wordText then wordText else escapeOperators wordText]
    lastPos := pos.stop }

/-- A redirect with its here-document and the text before it. -/
def Walk.hereDocument (pos heredoc : Span) (w : Walk) : Walk where
  parts := w.parts ++ [slice command (some w.lastPos) (some pos.start),
    slice command (some pos.start) (some heredoc.start),
    slice command (some heredoc.start) (some heredoc.stop)]
  -- The end of the redirect, wherever its here-document stands.
  lastPos := pos.stop

mutual

/-- `visit_node`. -/
def visitNode : Node → Walk → Walk
  | .mk .redirect pos (some heredoc) _, w => w.hereDocument command pos heredoc
  | .mk .word pos _ _, w => w.word command pos
  | .mk _ _ _ parts, w => visitNodes parts w

/-- The parts of a node. -/
def visitNodes : List Node → Walk → Walk
  | [], w => w
  | n :: ns, w => visitNodes ns (visitNode n w)

end

/-- The command put together from the slices of all trees. -/
def reassemble (nodes : List Node) : List Char :=
  let w := nodes.foldl (fun w n => visitNode command n (w.enter command n.pos)) ⟨[], 0⟩
  (w.parts ++ [slice command (some w.lastPos) none]).flatten

/-- **`escape_bash_special_chars`.** -/
def escapeBashSpecialChars (parse : List Char → Except BashlexError (List Node)) :
    Except BashlexError (List Char) :=
  if PyText.strip command = [] then .ok []
  else match parse command with
    | .ok nodes => .ok (reassemble command nodes)
    | .error (.other name) => .error (.other name)
    | .error _ => .ok command

/-! ## The order in which the command is copied -/

/-- A point of the walk at which something is copied. -/
inductive Leaf where
  | tree (pos : Span)
  | word (pos : Span)
  | hereDocument (pos heredoc : Span)

mutual

/-- The points of the walk over a node. -/
def leaves : Node → List Leaf
  | .mk .redirect pos (some heredoc) _ => [.hereDocument pos heredoc]
  | .mk .word pos _ _ => [.word pos]
  | .mk _ _ _ parts => leavesOf parts

/-- The points of the walk over the parts of a node. -/
def leavesOf : List Node → List Leaf
  | [] => []
  | n :: ns => leaves n ++ leavesOf ns

end

/-- The points of the walk over all trees. -/
def points (nodes : List Node) : List Leaf := nodes.flatMap fun n => .tree n.pos :: leaves n

/-- The redirect and the here-document at a point of the walk. -/
def Leaf.hereDocument? : Leaf → Option (Span × Span)
  | .hereDocument pos heredoc => some (pos, heredoc)
  | _ => none

/-- **The redirects with a here-document** that the walk meets, with their positions. -/
def hereDocuments (nodes : List Node) : List (Span × Span) :=
  (points nodes).filterMap Leaf.hereDocument?

/-- What is copied at a point of the walk. -/
def visit (w : Walk) : Leaf → Walk
  | .tree pos => w.enter command pos
  | .word pos => w.word command pos
  | .hereDocument pos heredoc => w.hereDocument command pos heredoc

mutual

/-- The walk over a node copies at its points. -/
lemma visitNode_eq : ∀ (n : Node) (w : Walk),
    visitNode command n w = (leaves n).foldl (visit command) w
  | .mk kind pos heredoc parts, w => by
    have hparts := visitNodes_eq parts w
    cases kind with
    | word => rfl
    | redirect =>
      cases heredoc with
      | none => rw [visitNode, leaves, hparts] <;> simp
      | some body => rfl
    | other name => rw [visitNode, leaves, hparts] <;> simp

/-- The walk over the parts of a node copies at their points. -/
lemma visitNodes_eq : ∀ (ns : List Node) (w : Walk),
    visitNodes command ns w = (leavesOf ns).foldl (visit command) w
  | [], w => rfl
  | n :: ns, w => by
    rw [visitNodes, leavesOf, List.foldl_append, visitNode_eq n, visitNodes_eq ns]

end

/-- The walk over all trees. -/
def walk (nodes : List Node) : Walk := (points nodes).foldl (visit command) ⟨[], 0⟩

/-- The command is put together at the points of the walk. -/
lemma reassemble_eq (nodes : List Node) :
    reassemble command nodes =
      (walk command nodes).parts.flatten ++ command.drop (walk command nodes).lastPos := by
  have hwalk : nodes.foldl (fun w n => visitNode command n (w.enter command n.pos)) ⟨[], 0⟩ =
      walk command nodes := by
    rw [walk, points, List.foldl_flatMap]
    refine List.foldl_ext _ _ _ fun w n _ => ?_
    rw [visitNode_eq, List.foldl_cons]
    rfl
  rw [reassemble, hwalk, slice_natCast_none, List.flatten_append, List.flatten_singleton]

/-! ## What the parser promises -/

/-- The position of a here-document: behind its redirect and at the beginning of a line. If it
follows directly, the redirect ends where it ends. -/
structure HereDocumentPlaced (pos heredoc : Span) : Prop where
  behind : pos.start ≤ heredoc.start
  inside : heredoc.start ≤ heredoc.stop ∧ heredoc.stop ≤ command.length
  follows : pos.stop = heredoc.stop ∨
    ∃ line, pos.stop ≤ line ∧ heredoc.start = line + 1 ∧ command[line]? = some '\n'

/-- The points of a walk that has copied the command up to a position come one behind the other. -/
def Ordered : ℕ → List Leaf → Prop
  | _, [] => True
  | last, .tree pos :: ls => last ≤ pos.start ∧ pos.start ≤ command.length ∧ Ordered pos.start ls
  | last, .word pos :: ls =>
    last ≤ pos.start ∧ pos.start ≤ pos.stop ∧ pos.stop ≤ command.length ∧ Ordered pos.stop ls
  | last, .hereDocument pos heredoc :: ls =>
    last ≤ pos.start ∧ pos.start ≤ pos.stop ∧ HereDocumentPlaced command pos heredoc ∧
      Ordered pos.stop ls

/-- **What the parser promises**: positions inside the command, words from the left to the right,
and here-documents behind their redirects, on a line of their own. -/
def Placed (nodes : List Node) : Prop := Ordered command 0 (points nodes)

/-! ## The copy -/

variable {command}

/-- A point of the walk whose here-document, if it is one, belongs to the redirect. -/
def Leaf.Direct : Leaf → Prop
  | .hereDocument pos heredoc => pos.stop = heredoc.stop
  | _ => True

/-- Up to a word nothing is lost if the here-documents follow directly. -/
lemma doubled_visit {w : Walk} {l : Leaf} {ls : List Leaf}
    (hw : Doubled (command.take w.lastPos) w.parts.flatten)
    (hordered : Ordered command w.lastPos (l :: ls)) (hdirect : l.Direct) :
    Doubled (command.take (visit command w l).lastPos) (visit command w l).parts.flatten ∧
      Ordered command (visit command w l).lastPos ls := by
  cases l with
  | tree pos =>
    obtain ⟨hle, -, hrest⟩ := hordered
    refine ⟨?_, hrest⟩
    simp only [visit, Walk.enter, List.flatten_append, List.flatten_singleton]
    rw [← take_append_slice command hle]
    exact hw.append (doubled_escapeOperators _)
  | word pos =>
    obtain ⟨hle, hword, -, hrest⟩ := hordered
    refine ⟨?_, hrest⟩
    have hquoted (text : List Char) :
        Doubled text (if isQuoted text then text else escapeOperators text) := by
      split_ifs
      exacts [.refl text, doubled_escapeOperators text]
    simp only [visit, Walk.word, List.flatten_append, List.flatten_cons, List.flatten_nil,
      List.append_nil]
    rw [← take_append_slice command (hle.trans hword), ← slice_append_slice command hle hword]
    exact hw.append ((doubled_escapeOperators _).append (hquoted _))
  | hereDocument pos heredoc =>
    obtain ⟨hle, -, hplaced, hrest⟩ := hordered
    refine ⟨?_, hrest⟩
    have hstop : pos.stop = heredoc.stop := hdirect
    have hslices := slice_append_slice command hplaced.behind hplaced.inside.1
    simp only [visit, Walk.hereDocument, List.flatten_append, List.flatten_cons, List.flatten_nil,
      List.append_nil, hslices, slice_append_slice command hle
        (hplaced.behind.trans hplaced.inside.1), hstop]
    rw [← take_append_slice command (hle.trans (hplaced.behind.trans hplaced.inside.1))]
    exact hw.append (.refl _)

/-- The lines that are copied again at a point of the walk. -/
def Leaf.repeated (command : List Char) : Leaf → ℕ
  | .hereDocument pos heredoc => (slice command (some pos.stop) (some heredoc.stop)).count '\n'
  | _ => 0

/-- Lines are lost nowhere, and those between a redirect and the end of its here-document come
again. -/
lemma count_visit {w : Walk} {l : Leaf} {ls : List Leaf}
    (hordered : Ordered command w.lastPos (l :: ls)) :
    (visit command w l).parts.flatten.count '\n' +
        (command.drop (visit command w l).lastPos).count '\n' =
      w.parts.flatten.count '\n' + (command.drop w.lastPos).count '\n' + l.repeated command := by
  have hescape (text : List Char) : (escapeOperators text).count '\n' = text.count '\n' :=
    (doubled_escapeOperators text).count_eq (by decide)
  cases l with
  | tree pos =>
    obtain ⟨hle, -, -⟩ := hordered
    simp only [visit, Walk.enter, List.flatten_append, List.flatten_singleton, List.count_append,
      hescape, Leaf.repeated]
    rw [← slice_append_drop command hle, List.count_append]
    omega
  | word pos =>
    obtain ⟨hle, hword, -, -⟩ := hordered
    have hquoted (text : List Char) :
        (if isQuoted text then text else escapeOperators text).count '\n' = text.count '\n' := by
      split_ifs
      exacts [rfl, hescape text]
    simp only [visit, Walk.word, List.flatten_append, List.flatten_cons, List.flatten_nil,
      List.append_nil, List.count_append, hescape, hquoted, Leaf.repeated]
    rw [← slice_append_drop command (hle.trans hword), ← slice_append_slice command hle hword,
      List.count_append, List.count_append]
    omega
  | hereDocument pos heredoc =>
    obtain ⟨hle, hredirect, hplaced, -⟩ := hordered
    have hslices := slice_append_slice command hplaced.behind hplaced.inside.1
    have hbody : pos.stop ≤ heredoc.stop := by
      rcases hplaced.follows with h | ⟨line, hline, hstart, -⟩
      · exact h.le
      · have := hplaced.inside.1
        omega
    have hcopied := slice_append_slice command hle (hplaced.behind.trans hplaced.inside.1)
    simp only [visit, Walk.hereDocument, List.flatten_append, List.flatten_cons, List.flatten_nil,
      List.append_nil, List.count_append, Leaf.repeated]
    rw [← slice_append_drop command hbody,
      ← slice_append_drop command (hle.trans (hplaced.behind.trans hplaced.inside.1)), ← hcopied,
      ← hslices]
    simp only [List.count_append]
    omega

/-- A here-document that does not follow directly is copied again with the line break before it. -/
lemma repeated_eq_zero_iff {l : Leaf} {last : ℕ} {ls : List Leaf}
    (hordered : Ordered command last (l :: ls)) : l.repeated command = 0 ↔ l.Direct := by
  cases l with
  | tree pos => simp [Leaf.repeated, Leaf.Direct]
  | word pos => simp [Leaf.repeated, Leaf.Direct]
  | hereDocument pos heredoc =>
    obtain ⟨-, -, hplaced, -⟩ := hordered
    rw [Leaf.repeated, Leaf.Direct, slice_natCast_natCast]
    constructor
    · intro hzero
      refine hplaced.follows.resolve_right ?_
      rintro ⟨line, hle, hstart, hline⟩
      have hstop := hplaced.inside.1
      refine List.count_eq_zero.mp hzero (List.mem_iff_getElem?.mpr ⟨line - pos.stop, ?_⟩)
      have hindex : pos.stop + (line - pos.stop) = line := by omega
      rw [List.getElem?_drop, hindex, List.getElem?_take_of_lt (by omega), hline]
    · intro hdirect
      rw [hdirect, List.drop_of_length_le (by simp)]
      rfl

/-- The whole walk: nothing is lost if the here-documents follow directly, and lines are copied
again if one does not. -/
lemma foldl_visit {ls : List Leaf} {w : Walk} (hordered : Ordered command w.lastPos ls) :
    ((∀ l ∈ ls, l.Direct) → Doubled (command.take w.lastPos) w.parts.flatten →
        Doubled (command.take (ls.foldl (visit command) w).lastPos)
          (ls.foldl (visit command) w).parts.flatten) ∧
      ((ls.foldl (visit command) w).parts.flatten.count '\n' +
          (command.drop (ls.foldl (visit command) w).lastPos).count '\n' =
        w.parts.flatten.count '\n' + (command.drop w.lastPos).count '\n' +
          (ls.map (Leaf.repeated command)).sum) ∧
      ((ls.map (Leaf.repeated command)).sum = 0 ↔ ∀ l ∈ ls, l.Direct) := by
  induction ls generalizing w with
  | nil => exact ⟨fun _ hw => hw, by simp, by simp⟩
  | cons l ls ih =>
    have hrest : Ordered command (visit command w l).lastPos ls := by
      cases l with
      | tree pos => exact hordered.2.2
      | word pos => exact hordered.2.2.2
      | hereDocument pos heredoc => exact hordered.2.2.2
    obtain ⟨hdoubled, hcount, hzero⟩ := ih hrest
    have hstep := count_visit hordered
    refine ⟨fun hdirect hw => ?_, ?_, ?_⟩
    · refine hdoubled (fun l' hl' => hdirect l' (List.mem_cons_of_mem l hl')) ?_
      exact (doubled_visit hw hordered (hdirect l List.mem_cons_self)).1
    · rw [List.foldl_cons, List.map_cons, List.sum_cons, hcount, hstep]
      omega
    · rw [List.map_cons, List.sum_cons, Nat.add_eq_zero_iff, hzero,
        repeated_eq_zero_iff hordered, List.forall_mem_cons]

/-- The here-documents of the walk follow directly. -/
lemma forall_direct_iff (ls : List Leaf) :
    (∀ l ∈ ls, l.Direct) ↔ ∀ d ∈ ls.filterMap Leaf.hereDocument?, d.1.stop = d.2.stop := by
  constructor
  · intro h d hd
    obtain ⟨l, hl, heq⟩ := List.mem_filterMap.mp hd
    have hdirect := h l hl
    cases l with
    | tree pos => cases heq
    | word pos => cases heq
    | hereDocument pos heredoc =>
      obtain rfl := Option.some.inj heq
      exact hdirect
  · intro h l hl
    cases l with
    | tree pos => trivial
    | word pos => trivial
    | hereDocument pos heredoc => exact h _ (List.mem_filterMap.mpr ⟨_, hl, rfl⟩)

/-- **The copy is the command with backslashes doubled** exactly if every here-document follows its
redirect directly. -/
theorem reassemble_doubled_iff {nodes : List Node} (hplaced : Placed command nodes) :
    Doubled command (reassemble command nodes) ↔
      ∀ d ∈ hereDocuments nodes, d.1.stop = d.2.stop := by
  have hwalk : Ordered command (⟨[], 0⟩ : Walk).lastPos (points nodes) := hplaced
  obtain ⟨hdoubled, hcount, hzero⟩ := foldl_visit hwalk
  rw [hereDocuments, ← forall_direct_iff, ← hzero, reassemble_eq]
  constructor
  · intro h
    have hlines := h.count_eq (c := '\n') (by decide)
    rw [List.count_append] at hlines
    simp only [List.flatten_nil, List.count_nil, List.drop_zero] at hcount
    rw [walk] at hlines
    omega
  · intro hsum
    have hcopied := (hdoubled (hzero.mp hsum) .nil).append
      (.refl (command.drop (walk command nodes).lastPos))
    rwa [← walk, List.take_append_drop] at hcopied

/-- **Escaping loses no text** of a command that the parser knows exactly if the command is not
blank, unless it is empty, and its here-documents follow their redirects directly. -/
theorem escapeBashSpecialChars_doubled_iff
    {parse : List Char → Except BashlexError (List Node)} {nodes : List Node}
    (hparse : parse command = .ok nodes) (hplaced : Placed command nodes) :
    (∃ result, escapeBashSpecialChars command parse = .ok result ∧ Doubled command result) ↔
      (PyText.strip command = [] → command = []) ∧
        (PyText.strip command ≠ [] → ∀ d ∈ hereDocuments nodes, d.1.stop = d.2.stop) := by
  by_cases hblank : PyText.strip command = []
  · have hresult : escapeBashSpecialChars command parse = .ok [] := if_pos hblank
    rw [hresult]
    constructor
    · rintro ⟨result, heq, h⟩
      obtain rfl := Except.ok.inj heq
      cases h
      exact ⟨fun _ => rfl, fun hne => absurd hblank hne⟩
    · rintro ⟨hempty, -⟩
      exact ⟨[], rfl, hempty hblank ▸ .nil⟩
  · have hresult : escapeBashSpecialChars command parse = .ok (reassemble command nodes) := by
      rw [escapeBashSpecialChars, if_neg hblank, hparse]
    rw [hresult]
    constructor
    · rintro ⟨result, heq, h⟩
      obtain rfl := Except.ok.inj heq
      exact ⟨fun hnil => absurd hnil hblank, fun _ => (reassemble_doubled_iff hplaced).mp h⟩
    · rintro ⟨-, hdirect⟩
      exact ⟨_, rfl, (reassemble_doubled_iff hplaced).mpr (hdirect hblank)⟩

/-! ## Two commands -/

/-- A command whose here-document follows its redirect directly. -/
def directCommand : List Char := "cat \\; <<E\nx\nE".toList

/-- Its tree: the redirect ends where the here-document ends. -/
def directNodes : List Node :=
  [.mk (.other "command") ⟨0, 14⟩ none [.mk .word ⟨0, 3⟩ none [], .mk .word ⟨4, 6⟩ none [],
    .mk .redirect ⟨7, 14⟩ (some ⟨11, 14⟩) []]]

/-- A command whose here-document follows the rest of the line. -/
def pipedCommand : List Char := "cat <<EOF | grep x\nhello\nEOF".toList

/-- Its tree: the redirect ends before the rest of the line. -/
def pipedNodes : List Node :=
  [.mk (.other "pipeline") ⟨0, 18⟩ none
    [.mk (.other "command") ⟨0, 9⟩ none
      [.mk .word ⟨0, 3⟩ none [], .mk .redirect ⟨4, 9⟩ (some ⟨19, 28⟩) []],
    .mk (.other "pipe") ⟨10, 11⟩ none [],
    .mk (.other "command") ⟨12, 18⟩ none
      [.mk .word ⟨12, 16⟩ none [], .mk .word ⟨17, 18⟩ none []]]]

/-- The parser on the two commands. -/
def parseSample (command : List Char) : Except BashlexError (List Node) :=
  if command = directCommand then .ok directNodes
  else if command = pipedCommand then .ok pipedNodes
  else .error .parsing

/-- A here-document that follows directly is copied once. -/
theorem escapeBashSpecialChars_direct :
    ∃ result, escapeBashSpecialChars directCommand parseSample = .ok result ∧
      Doubled directCommand result := by
  have hplaced : Placed directCommand directNodes :=
    ⟨by decide, by decide, by decide, by decide, by decide, by decide, by decide, by decide,
      by decide, by decide, ⟨by decide, by decide, Or.inl rfl⟩, trivial⟩
  have hparse : parseSample directCommand = .ok directNodes := rfl
  exact (escapeBashSpecialChars_doubled_iff hparse hplaced).mpr
    ⟨fun h => absurd h (by decide), fun _ => by decide⟩

/-- The rest of the line is copied again when the here-document follows it. -/
theorem not_doubled_pipedCommand :
    parseSample pipedCommand = .ok pipedNodes ∧ Placed pipedCommand pipedNodes ∧
      ¬ ∃ result, escapeBashSpecialChars pipedCommand parseSample = .ok result ∧
        Doubled pipedCommand result := by
  refine ⟨rfl, ⟨by decide, by decide, by decide, by decide, by decide, by decide, by decide,
    ⟨by decide, by decide, Or.inr ⟨18, by decide, rfl, rfl⟩⟩, by decide, by decide, by decide,
    by decide, by decide, by decide, trivial⟩, ?_⟩
  rintro ⟨result, hresult, h⟩
  have hcopy : escapeBashSpecialChars pipedCommand parseSample =
      .ok "cat <<EOF | grep x\nhello\nEOF | grep x\nhello\nEOF".toList := by rfl
  rw [hcopy] at hresult
  obtain rfl := Except.ok.inj hresult
  exact absurd (h.count_eq (c := '\n') (by decide)) (by decide)

end ProRLAgent.Bash
