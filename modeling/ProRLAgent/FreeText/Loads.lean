import ProRLAgent.FreeText.Dumps
import ProRLAgent.Lib.Brackets

set_option relaxedAutoImplicit false
set_option autoImplicit false

/-!
# JSON objects in free text

`loads` of `openhands/io/json.py` reads a text that is no JSON from its first brace to the one that
closes it, and repairs what is between. Braces are counted in the raw text: a brace in a key or in a
text of the object counts like one of the object.

What `repair_json` makes of a text is a parameter.

## Main definitions

* `ProRLAgent.FreeText.objectText` — the part of a text that is repaired.
* `ProRLAgent.FreeText.loads` — the value that is read from a text.

## Main results

* `ProRLAgent.FreeText.objectText_append` — the part that is repaired ends where the first brace is
  closed.
* `ProRLAgent.FreeText.loads_embedded_iff` — when a written object is read from the middle of a text.
-/

namespace ProRLAgent.FreeText

open Literals
open FnCall (Text Library SampleFloat sampleLibrary documented_sampleLibrary)
open Serialization (Json)

variable {ν : Type}

/-! ## Reading -/

/-- The exception for a text without a value. -/
structure LLMResponseError where
  message : String
  deriving DecidableEq, Repr

/-- The loop over the letters of a text: the number of open braces, the index of the first one, and
the index of the letter. -/
def findObject (text : Text) : ℤ → Option ℕ → ℕ → Text → Option Text
  | _, _, _, [] => none
  | depth, start, i, char :: rest =>
    if char = '{' then findObject text (depth + 1) (if depth = 0 then some i else start) (i + 1) rest
    else if char = '}' then
      match start with
      | some first =>
        if depth - 1 = 0 then some ((text.take (i + 1)).drop first)
        else findObject text (depth - 1) start (i + 1) rest
      | none => findObject text (depth - 1) start (i + 1) rest
    else findObject text depth start (i + 1) rest

-- The equations of this function are generated here, not in each proof that unfolds it.
section

attribute [local simp] findObject

end

/-- **What is passed to `repair_json`.** -/
def objectText (text : Text) : Option Text := findObject text 0 none 0 text

/-- **`loads(json_str)`.** -/
def loads (L : Library ν) (repairJson : Text → Text) (text : Text) :
    Except LLMResponseError (Json ν) :=
  match FnCall.loads L text with
  | some value => .ok value
  | none =>
    match objectText text with
    | none => .error ⟨"No valid JSON object found in response."⟩
    | some response =>
      match FnCall.loads L (repairJson response) with
      | some value => .ok value
      | none => .error ⟨"Invalid JSON in response. Please make sure the response is a valid JSON object."⟩

/-! ## Braces -/

/-- An opening brace. -/
def isOpen (c : Char) : Bool := c = '{'

/-- A closing brace. -/
def isClose (c : Char) : Bool := c = '}'

/-- No brace opens and closes. -/
lemma isClose_of_isOpen (c : Char) (h : isOpen c = true) : isClose c = false := by
  obtain rfl : c = '{' := of_decide_eq_true h
  decide

/-- Letters that are no braces are skipped. -/
lemma findObject_skip {before : Text} (hopen : '{' ∉ before) (hclose : '}' ∉ before) (text : Text)
    (i : ℕ) (rest : Text) :
    findObject text 0 none i (before ++ rest) =
      findObject text 0 none (i + before.length) rest := by
  induction before generalizing i with
  | nil => rfl
  | cons c before ih =>
    obtain ⟨hcopen, hopen⟩ := not_or.mp (mt List.mem_cons.mpr hopen)
    obtain ⟨hcclose, hclose⟩ := not_or.mp (mt List.mem_cons.mpr hclose)
    rw [List.cons_append, findObject, if_neg (Ne.symm hcopen), if_neg (Ne.symm hcclose),
      ih hopen hclose, List.length_cons, Nat.add_assoc, Nat.add_comm 1]

/-- **Behind the first brace** the loop ends where that one is closed. -/
lemma findObject_open (text : Text) (first i depth : ℕ) (rest : Text) :
    findObject text ((depth : ℤ) + 1) (some first) i rest =
      (Brackets.closeOf isOpen isClose depth rest).map fun parts =>
        (text.take (i + parts.1.length + 1)).drop first := by
  induction rest generalizing depth i with
  | nil => rfl
  | cons c rest ih =>
    have hshift (parts : Option (Text × Text)) :
        (parts.map fun parts => (c :: parts.1, parts.2)).map
            (fun parts => (text.take (i + parts.1.length + 1)).drop first) =
          parts.map fun parts => (text.take (i + 1 + parts.1.length + 1)).drop first := by
      rw [Option.map_map]
      congr 1
      funext parts
      simp [Nat.add_comm, Nat.add_left_comm]
    rw [findObject, Brackets.closeOf]
    by_cases hopen : c = '{'
    · have hbool : isOpen c = true := decide_eq_true hopen
      rw [if_pos hopen, if_pos hbool, if_neg (by omega), hshift]
      exact ih (i + 1) (depth + 1)
    · have hbool : ¬ isOpen c = true := by simpa [isOpen] using hopen
      rw [if_neg hopen, if_neg hbool]
      by_cases hclose : c = '}'
      · have hbool : isClose c = true := decide_eq_true hclose
        rw [if_pos hclose, if_pos hbool]
        by_cases hzero : depth = 0
        · subst hzero
          simp
        · have hdepth : ((depth - 1 : ℕ) : ℤ) + 1 = depth + 1 - 1 := by omega
          simp only [if_neg hzero, hshift]
          rw [if_neg (by omega), ← hdepth]
          exact ih (i + 1) (depth - 1)
      · have hbool : ¬ isClose c = true := by simpa [isClose] using hclose
        rw [if_neg hclose, if_neg hbool, hshift]
        exact ih (i + 1) depth

/-- **The part that is repaired** ends where the first brace is closed. -/
theorem objectText_append {before : Text} (hopen : '{' ∉ before) (hclose : '}' ∉ before)
    (body : Text) : objectText (before ++ '{' :: body) =
      (Brackets.closeOf isOpen isClose 0 body).map fun parts => '{' :: (parts.1 ++ ['}']) := by
  rw [objectText, findObject_skip hopen hclose, findObject, if_pos rfl, if_pos rfl]
  refine (findObject_open (before ++ '{' :: body) (0 + before.length) (0 + before.length + 1) 0
    body).trans ?_
  cases hparts : Brackets.closeOf isOpen isClose 0 body with
  | none => rfl
  | some parts =>
    obtain ⟨inner, rest⟩ := parts
    obtain ⟨c, hc, rfl, -⟩ := (Brackets.closeOf_eq_some_iff isClose_of_isOpen).mp hparts
    obtain rfl : c = '}' := of_decide_eq_true hc
    have htext : before ++ '{' :: (inner ++ '}' :: rest) =
        (before ++ '{' :: (inner ++ ['}'])) ++ rest := by simp
    have hlength : 0 + before.length + 1 + inner.length + 1 =
        (before ++ '{' :: (inner ++ ['}'])).length := by
      simp only [List.length_append, List.length_cons, List.length_nil]
      omega
    rw [Option.map_some, Option.map_some, htext, hlength, List.take_left, Nat.zero_add,
      List.drop_left]

/-! ## Objects in free text -/

/-- **A written object is read from the middle of a text**: its text and nothing else is passed to
`repair_json`, and the object is returned. -/
def ReadsEmbedded (L : Library ν) (repairJson : Text → Text) (before after : Text)
    (entries : List (String × Json ν)) : Prop :=
  objectText (before ++ dumps L (.obj entries) ++ after) = some (dumps L (.obj entries)) ∧
    loads L repairJson (before ++ dumps L (.obj entries) ++ after) = .ok (.obj entries)

/-- The braces of a text are nested, those in quotes too. -/
def NestedBraces (text : Text) : Prop := Brackets.Nested isOpen isClose text

/-- A written object is read from a text that is no JSON exactly if the braces between its own two are
nested. -/
theorem loads_embedded_iff {L : Library ν} (hL : L.Documented) {repairJson : Text → Text}
    (hrepair : ∀ text value, FnCall.loads L text = some value → repairJson text = text)
    {entries : List (String × Json ν)} (hjson : isJson L (.obj entries) = true) {before after : Text}
    (hopen : '{' ∉ before) (hclose : '}' ∉ before)
    (hnone : FnCall.loads L (before ++ dumps L (.obj entries) ++ after) = none) :
    ReadsEmbedded L repairJson before after entries ↔
      NestedBraces (printed (dumpEntry L) entries) := by
  have hread : FnCall.loads L (dumps L (.obj entries)) = some (.obj entries) :=
    loads_dumps hL hjson
  have htext : before ++ dumps L (.obj entries) ++ after =
      before ++ '{' :: (printed (dumpEntry L) entries ++ '}' :: after) := by
    rw [dumps_obj]
    simp
  have hobject : objectText (before ++ dumps L (.obj entries) ++ after) =
      some (dumps L (.obj entries)) ↔ NestedBraces (printed (dumpEntry L) entries) := by
    rw [htext, objectText_append hopen hclose, NestedBraces,
      ← Brackets.closeOf_append_iff isClose_of_isOpen (c := '}') rfl _ after, dumps_obj]
    constructor
    · intro h
      obtain ⟨⟨inner, rest⟩, hparts, heq⟩ := Option.map_eq_some_iff.mp h
      obtain rfl : inner = printed (dumpEntry L) entries :=
        List.append_cancel_right (List.cons.inj heq).2
      obtain ⟨c, -, hsame, -⟩ := (Brackets.closeOf_eq_some_iff isClose_of_isOpen).mp hparts
      rw [hparts, (List.cons.inj (List.append_cancel_left hsame)).2]
    · intro h
      rw [h]
      rfl
  rw [ReadsEmbedded, hobject, and_iff_left_iff_imp]
  intro hnested
  rw [loads, hnone]
  simp only [hobject.mpr hnested, hrepair _ _ hread, hread]

/-- An object with braces in a text that are nested. -/
def nestedObject : List (String × Json SampleFloat) :=
  [("a", .obj [("b", .str "f\x7bx\x7d"), ("c", .float .half)])]

/-- It is read from the middle of a text. -/
theorem loads_embedded_nested :
    ReadsEmbedded sampleLibrary id "Sure: ".toList " done".toList nestedObject := by
  refine (loads_embedded_iff documented_sampleLibrary (fun _ _ _ => rfl) rfl (by decide) (by decide)
    rfl).mpr ?_
  exact (Brackets.closeOf_append_iff isClose_of_isOpen (c := '}') rfl _ []).mp (by decide)

/-- A closing brace in a text ends the object: what is passed to `repair_json` is not the object. -/
theorem not_loads_embedded_brace :
    isJson sampleLibrary (.obj [("a", .str "\x7d")]) = true ∧
      FnCall.loads sampleLibrary ("Sure: ".toList ++ dumps sampleLibrary (.obj [("a", .str "\x7d")]) ++
        []) = none ∧
      objectText ("Sure: ".toList ++ dumps sampleLibrary (.obj [("a", .str "\x7d")]) ++ []) =
        some ("\x7b\"a\": \"\x7d".toList) ∧
      ∀ repairJson, ¬ ReadsEmbedded sampleLibrary repairJson "Sure: ".toList []
        [("a", .str "\x7d")] := by
  have hobject : objectText ("Sure: ".toList ++
      dumps sampleLibrary (.obj [("a", .str "\x7d")]) ++ []) = some ("\x7b\"a\": \"\x7d".toList) := by
    decide
  have hne : "\x7b\"a\": \"\x7d".toList ≠ dumps sampleLibrary (.obj [("a", .str "\x7d")]) := by
    decide
  exact ⟨rfl, rfl, hobject, fun _ h => hne (Option.some.inj (hobject.symm.trans h.1))⟩

end ProRLAgent.FreeText
