import Mathlib.Data.List.Basic
import Mathlib.Data.List.Nodup
import ProRLAgent.Basic
import ProRLAgent.Lib.Except

set_option relaxedAutoImplicit false
set_option autoImplicit false

/-!
# Python values and their JSON

The fields of an event hold Python values. `dataclasses.asdict` turns the instances of dataclasses
in them into dictionaries, the JSON encoder of `io/json.py` writes the result, and a stored event is
read back from the parsed text. JSON knows fewer kinds of values than Python: members of an `Enum`
that is also a `str` or an `int` come back as their values, tuples come back as lists, keys that are
not texts come back as texts, and many objects cannot be written at all.

Floating-point numbers are values of a type `ν` that JSON keeps as they are, and integers have any
number of digits.

## Main definitions

* `Serialization.Json`, `Serialization.PyObj` — JSON values and Python values.
* `Serialization.PyObj.asdict`, `Serialization.PyObj.toJson` — what is written for a value.
* `Serialization.Json.toPy` — what the parsed JSON is in Python.
* `Serialization.PyObj.byValue` — a value with the members of enumerations by their values.
* `Serialization.PyObj.jsonLike` — the values that JSON has.

## Main results

* `Serialization.toJson_of_jsonLike` — a value that JSON has is read back as it was.
-/

namespace ProRLAgent.Serialization

variable {ν : Type}

/-- A parsed JSON value. -/
inductive Json (ν : Type) where
  | null
  | bool (b : Bool)
  | int (n : ℤ)
  | float (x : ν)
  | str (s : String)
  | arr (items : List (Json ν))
  | obj (entries : List (String × Json ν))

/-- A key of a Python dictionary. A floating-point number is given by its text. -/
inductive DictKey where
  | str (s : String)
  | strEnum (s : String)
  | int (n : ℤ)
  | float (text : String)
  | bool (b : Bool)
  | none
  | other (name : String)
  deriving DecidableEq

/-- A Python value. `strEnum` and `intEnum` are members of enumerations that are also texts or
numbers, `enum` is a member of a plain enumeration; `record` is an instance of a dataclass and
`model` one of `CmdOutputMetadata`. -/
inductive PyObj (ν : Type) where
  | none
  | bool (b : Bool)
  | int (n : ℤ)
  | float (x : ν)
  | str (s : String)
  | strEnum (s : String)
  | intEnum (n : ℤ)
  | enum (s : String)
  | datetime (iso : String)
  | list (items : List (PyObj ν))
  | tuple (items : List (PyObj ν))
  | dict (entries : List (DictKey × PyObj ν))
  | record (fields : List (String × PyObj ν))
  | model (fields : List (String × PyObj ν))
  /-- An object of another type. -/
  | other (name : String)

/-! ## Writing -/

/-- The text that the encoder writes for a key. -/
def DictKey.text : DictKey → Except PyError String
  | .str s | .strEnum s => .ok s
  | .int n => .ok (toString n)
  | .float text => .ok text
  | .bool b => .ok (if b then "true" else "false")
  | .none => .ok "null"
  | .other name => .error (.typeError
      s!"keys must be str, int, float, bool or None, not {name}")

/-- The entry of a key that the parser meets: a key that it has met keeps its place and gets the new
value. -/
def setEntry {α : Type} : List (String × α) → String × α → List (String × α)
  | [], e => [e]
  | x :: xs, e => if x.1 = e.1 then e :: xs else x :: setEntry xs e

/-- The dictionary that the parser makes of the entries in a text. -/
def ofPairs {α : Type} (entries : List (String × α)) : List (String × α) :=
  entries.foldl setEntry []

mutual

/-- `dataclasses.asdict` below the event itself: copies with dictionaries for dataclasses. -/
def PyObj.asdict : PyObj ν → PyObj ν
  | .list items => .list (asdictList items)
  | .tuple items => .tuple (asdictList items)
  | .dict entries => .dict (asdictEntries entries)
  | .record fields => .dict (asdictFields fields)
  | v => v

/-- The items of a list. -/
def asdictList : List (PyObj ν) → List (PyObj ν)
  | [] => []
  | v :: vs => v.asdict :: asdictList vs

/-- The entries of a dictionary. -/
def asdictEntries : List (DictKey × PyObj ν) → List (DictKey × PyObj ν)
  | [] => []
  | (k, v) :: es => (k, v.asdict) :: asdictEntries es

/-- The fields of a dataclass. -/
def asdictFields : List (String × PyObj ν) → List (DictKey × PyObj ν)
  | [] => []
  | (k, v) :: fs => (.str k, v.asdict) :: asdictFields fs

end

mutual

/-- **The JSON of a value**, as the parser reads what `OpenHandsJSONEncoder` writes for it. -/
def PyObj.toJson : PyObj ν → Except PyError (Json ν)
  | .none => .ok .null
  | .bool b => .ok (.bool b)
  | .int n | .intEnum n => .ok (.int n)
  | .float x => .ok (.float x)
  | .str s | .strEnum s => .ok (.str s)
  | .datetime iso => .ok (.str iso)
  | .list items | .tuple items => do return .arr (← toJsonList items)
  | .dict entries => do return .obj (ofPairs (← toJsonEntries entries))
  | .model fields => do return .obj (ofPairs (← toJsonFields fields))
  | .enum _ => .error (.typeError "Object of type Enum is not JSON serializable")
  | .record _ => .error (.typeError "Object of type dataclass is not JSON serializable")
  | .other name => .error (.typeError s!"Object of type {name} is not JSON serializable")

/-- The items of a list. -/
def toJsonList : List (PyObj ν) → Except PyError (List (Json ν))
  | [] => .ok []
  | v :: vs => do
    let j ← v.toJson
    let js ← toJsonList vs
    return j :: js

/-- The entries of a dictionary. -/
def toJsonEntries : List (DictKey × PyObj ν) → Except PyError (List (String × Json ν))
  | [] => .ok []
  | (k, v) :: es => do
    let text ← k.text
    let j ← v.toJson
    let js ← toJsonEntries es
    return (text, j) :: js

/-- The fields of a model. -/
def toJsonFields : List (String × PyObj ν) → Except PyError (List (String × Json ν))
  | [] => .ok []
  | (k, v) :: fs => do
    let j ← v.toJson
    let js ← toJsonFields fs
    return (k, j) :: js

end

/-! ## Reading -/

mutual

/-- The Python value that the parser makes of a JSON value. -/
def Json.toPy : Json ν → PyObj ν
  | .null => .none
  | .bool b => .bool b
  | .int n => .int n
  | .float x => .float x
  | .str s => .str s
  | .arr items => .list (toPyList items)
  | .obj entries => .dict (toPyEntries entries)

/-- The items of an array. -/
def toPyList : List (Json ν) → List (PyObj ν)
  | [] => []
  | j :: js => j.toPy :: toPyList js

/-- The entries of an object. -/
def toPyEntries : List (String × Json ν) → List (DictKey × PyObj ν)
  | [] => []
  | (k, j) :: es => (.str k, j.toPy) :: toPyEntries es

end

/-! ## Comparing -/

/-- A key by its value. -/
def DictKey.byValue : DictKey → DictKey
  | .strEnum s => .str s
  | k => k

mutual

/-- **A value with the members of enumerations by their values**. -/
def PyObj.byValue : PyObj ν → PyObj ν
  | .strEnum s | .enum s => .str s
  | .intEnum n => .int n
  | .list items => .list (byValueList items)
  | .tuple items => .tuple (byValueList items)
  | .dict entries => .dict (byValueEntries entries)
  | .record fields => .record (byValueFields fields)
  | .model fields => .model (byValueFields fields)
  | v => v

/-- The items of a list. -/
def byValueList : List (PyObj ν) → List (PyObj ν)
  | [] => []
  | v :: vs => v.byValue :: byValueList vs

/-- The entries of a dictionary. -/
def byValueEntries : List (DictKey × PyObj ν) → List (DictKey × PyObj ν)
  | [] => []
  | (k, v) :: es => (k.byValue, v.byValue) :: byValueEntries es

/-- The fields of a dataclass or a model. -/
def byValueFields : List (String × PyObj ν) → List (String × PyObj ν)
  | [] => []
  | (k, v) :: fs => (k, v.byValue) :: byValueFields fs

end

/-! ## The values that JSON has -/

/-- The text of a key that is one. -/
def DictKey.text? : DictKey → Option String
  | .str s | .strEnum s => some s
  | _ => Option.none

mutual

/-- **The values that JSON has**: those built from `None`, truth values, numbers and texts with
lists and with dictionaries whose keys are texts. As in every dictionary no key occurs twice. -/
def PyObj.jsonLike : PyObj ν → Bool
  | .none | .bool _ | .int _ | .float _ | .str _ | .strEnum _ | .intEnum _ => true
  | .list items => jsonLikeList items
  | .dict entries =>
    jsonLikeEntries entries && decide (entries.filterMap fun e => e.1.text?).Nodup
  | _ => false

/-- The items of a list. -/
def jsonLikeList : List (PyObj ν) → Bool
  | [] => true
  | v :: vs => v.jsonLike && jsonLikeList vs

/-- The entries of a dictionary. -/
def jsonLikeEntries : List (DictKey × PyObj ν) → Bool
  | [] => true
  | (k, v) :: es => k.text?.isSome && v.jsonLike && jsonLikeEntries es

end

-- The equations of these functions are generated here, not in each proof that unfolds them.
section

attribute [local simp] PyObj.asdict asdictList asdictEntries asdictFields PyObj.toJson toJsonList
  toJsonEntries toJsonFields Json.toPy toPyList toPyEntries PyObj.byValue byValueList byValueEntries
  byValueFields PyObj.jsonLike jsonLikeList jsonLikeEntries

end

/-! ## Writing and reading back -/

/-- A key that the parser has not met goes to the end. -/
lemma setEntry_of_notMem {α : Type} {entries : List (String × α)} {e : String × α}
    (h : e.1 ∉ entries.map Prod.fst) : setEntry entries e = entries ++ [e] := by
  induction entries with
  | nil => rfl
  | cons x xs ih =>
    rw [List.map_cons, List.mem_cons, not_or] at h
    rw [setEntry, if_neg (Ne.symm h.1), ih h.2, List.cons_append]

/-- Entries with distinct keys stay as they are. -/
lemma ofPairs_of_nodup {α : Type} {entries : List (String × α)}
    (h : (entries.map Prod.fst).Nodup) : ofPairs entries = entries := by
  have hfold : ∀ acc : List (String × α), ((acc ++ entries).map Prod.fst).Nodup →
      entries.foldl setEntry acc = acc ++ entries := by
    clear h
    induction entries with
    | nil => simp
    | cons e es ih =>
      intro acc h
      have hnew : e.1 ∉ acc.map Prod.fst := by
        rw [List.map_append, List.map_cons, List.nodup_append] at h
        exact fun hmem => h.2.2 _ hmem _ List.mem_cons_self rfl
      have hacc : (((acc ++ [e]) ++ es).map Prod.fst).Nodup := by
        rwa [List.append_assoc, List.singleton_append]
      rw [List.foldl_cons, setEntry_of_notMem hnew, ih _ hacc, List.append_assoc,
        List.singleton_append]
  exact hfold [] h

/-- The text that is written for a key is the key. -/
lemma text_of_text? {k : DictKey} (h : k.text?.isSome = true) :
    ∃ s, k.text? = some s ∧ k.text = .ok s ∧ (DictKey.str s).byValue = k.byValue := by
  cases k <;> simp [DictKey.text?, DictKey.text, DictKey.byValue] at h ⊢

mutual

/-- **A value that JSON has** is written as it is and read back as it was. -/
theorem toJson_of_jsonLike : ∀ v : PyObj ν, v.jsonLike = true →
    v.asdict = v ∧ ∃ j, v.toJson = .ok j ∧ j.toPy.byValue = v.byValue
  | .none, _ | .bool _, _ | .int _, _ | .float _, _ | .str _, _ | .strEnum _, _ | .intEnum _, _ =>
    ⟨rfl, _, rfl, rfl⟩
  | .list items, h => by
    obtain ⟨hasdict, js, hjs, hback⟩ := toJsonList_of_jsonLike items h
    refine ⟨by rw [PyObj.asdict, hasdict], .arr js, ?_, ?_⟩
    · rw [PyObj.toJson, hjs]
      rfl
    · rw [Json.toPy, PyObj.byValue, PyObj.byValue, hback]
  | .dict entries, h => by
    rw [PyObj.jsonLike, Bool.and_eq_true, decide_eq_true_eq] at h
    obtain ⟨hasdict, js, hjs, hkeys, hback⟩ := toJsonEntries_of_jsonLike entries h.1
    refine ⟨by rw [PyObj.asdict, hasdict], .obj js, ?_, ?_⟩
    · have hnodup : (js.map Prod.fst).Nodup := hkeys ▸ h.2
      rw [PyObj.toJson, hjs]
      exact congrArg (fun es => Except.ok (Json.obj es)) (ofPairs_of_nodup hnodup)
    · rw [Json.toPy, PyObj.byValue, PyObj.byValue, hback]

/-- The same for the items of a list. -/
theorem toJsonList_of_jsonLike : ∀ vs : List (PyObj ν), jsonLikeList vs = true →
    asdictList vs = vs ∧
      ∃ js, toJsonList vs = .ok js ∧ byValueList (toPyList js) = byValueList vs
  | [], _ => ⟨rfl, [], rfl, rfl⟩
  | v :: vs, h => by
    rw [jsonLikeList, Bool.and_eq_true] at h
    obtain ⟨hv, j, hj, hback⟩ := toJson_of_jsonLike v h.1
    obtain ⟨hvs, js, hjs, hbacks⟩ := toJsonList_of_jsonLike vs h.2
    refine ⟨by rw [asdictList, hv, hvs], j :: js, ?_, ?_⟩
    · rw [toJsonList, hj, hjs]
      rfl
    · rw [toPyList, byValueList, byValueList, hback, hbacks]

/-- The same for the entries of a dictionary. -/
theorem toJsonEntries_of_jsonLike : ∀ es : List (DictKey × PyObj ν), jsonLikeEntries es = true →
    asdictEntries es = es ∧ ∃ js, toJsonEntries es = .ok js ∧
      js.map Prod.fst = es.filterMap (fun e => e.1.text?) ∧
      byValueEntries (toPyEntries js) = byValueEntries es
  | [], _ => ⟨rfl, [], rfl, rfl, rfl⟩
  | (k, v) :: es, h => by
    rw [jsonLikeEntries, Bool.and_eq_true, Bool.and_eq_true] at h
    obtain ⟨s, hs, htext, hkey⟩ := text_of_text? h.1.1
    obtain ⟨hv, j, hj, hback⟩ := toJson_of_jsonLike v h.1.2
    obtain ⟨hes, js, hjs, hkeys, hbacks⟩ := toJsonEntries_of_jsonLike es h.2
    refine ⟨by rw [asdictEntries, hv, hes], (s, j) :: js, ?_, ?_, ?_⟩
    · rw [toJsonEntries, htext, hj, hjs]
      rfl
    · simp [hs, hkeys]
    · rw [toPyEntries, byValueEntries, byValueEntries, hkey, hback, hbacks]

end

end ProRLAgent.Serialization
