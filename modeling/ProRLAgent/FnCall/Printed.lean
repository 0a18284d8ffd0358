import ProRLAgent.FnCall.Prompts
import ProRLAgent.Lib.Literals

set_option relaxedAutoImplicit false
set_option autoImplicit false

/-!
# Values that Python prints and JSON reads

An argument of a call that is no text is written with Python's `str`, and a list among the arguments
is read with `json.loads`. What Python prints for a value is JSON only if nothing in it is `None`, a
truth value, or an infinite number, and if every text in it has a single quote, which makes Python
print double quotes around it.

Floating-point numbers, and which letters beyond ASCII are printable, are given by the library.

## Main definitions

* `ProRLAgent.FnCall.Library` — the numbers and letters of the library.
* `ProRLAgent.FnCall.repr`, `ProRLAgent.FnCall.loads` — `repr` and `json.loads`.
* `ProRLAgent.FnCall.printsJson` — the values that Python prints as JSON.

## Main results

* `ProRLAgent.FnCall.loads_repr` — a printed value is read back exactly if it is printed as JSON.
* `ProRLAgent.FnCall.infix_of_repr` — a word in a printed value.
-/

namespace ProRLAgent.FnCall

open Literals
open Serialization (Json ofPairs ofPairs_of_nodup)

variable {ν : Type}

/-! ## The library -/

/-- **The library**: how floating-point numbers are printed, read and compared, and which letters
beyond ASCII are printable. -/
structure Library (ν : Type) where
  isPrintable : Char → Bool
  isFinite : ν → Bool
  /-- `repr` of a floating-point number. -/
  reprFloat : ν → Text
  /-- `float` of a text that is a number. -/
  float : Text → ν
  /-- The infinite number with the sign. -/
  infinity : Bool → ν
  nan : ν
  eqFloat : ν → ν → Bool
  eqInt : ν → ℤ → Bool

/-- **What is documented**: a finite number is printed in a way that is read back, and the others
are printed as `inf`, `-inf` and `nan`. -/
structure Library.Documented (L : Library ν) : Prop where
  finite : ∀ x, L.isFinite x → L.eqFloat x x ∧ ∃ l : FloatLiteral, L.reprFloat x = l.text ∧
    L.float l.text = x
  infinite : ∀ x, L.isFinite x = false → L.reprFloat x = "inf".toList ∨
    L.reprFloat x = "-inf".toList ∨ L.reprFloat x = "nan".toList

/-! ## Printing -/

section Values

variable (L : Library ν)

mutual

/-- **`repr(value)`.** -/
def repr : Json ν → Text
  | .null => "None".toList
  | .bool b => if b then "True".toList else "False".toList
  | .int n => PyText.str n
  | .float x => L.reprFloat x
  | .str s => reprText L.isPrintable s.toList
  | .arr items => '[' :: (printed id (reprItems items) ++ [']'])
  | .obj entries => '{' :: (printed id (reprEntries entries) ++ ['}'])

/-- The items of a list. -/
def reprItems : List (Json ν) → List Text
  | [] => []
  | v :: vs => repr v :: reprItems vs

/-- The entries of a dictionary. -/
def reprEntries : List (String × Json ν) → List Text
  | [] => []
  | (k, v) :: es => (reprText L.isPrintable k.toList ++ ':' :: ' ' :: repr v) :: reprEntries es

end

-- The equations of these functions are generated here, not in each proof that unfolds them.
section

attribute [local simp] repr reprItems reprEntries

end

/-- An entry of a dictionary. -/
def reprEntry (e : String × Json ν) : Text :=
  reprText L.isPrintable e.1.toList ++ ':' :: ' ' :: repr L e.2

/-! ## Reading -/

/-- The constants of JSON. -/
def names : List (Text × Json ν) :=
  [("null".toList, .null), ("true".toList, .bool true), ("false".toList, .bool false)]

/-- The numbers that are no JSON numbers, but that Python reads. -/
def constants : List (Text × Json ν) :=
  [("NaN".toList, .float L.nan), ("Infinity".toList, .float (L.infinity false)),
    ("-Infinity".toList, .float (L.infinity true))]

/-- A word of a table at the beginning of a text. -/
def word (table : List (Text × Json ν)) (text : Text) : Option (Json ν × Text) :=
  (table.find? fun e => e.1.isPrefixOf text).map fun e => (e.2, text.drop e.1.length)

/-- A number at the beginning of a text. -/
def number (text : Text) : Option (Json ν × Text) :=
  match scanNumber text with
  | none => none
  | some ((whole, fraction, exponent), rest) =>
    if fraction = [] ∧ exponent = [] then (PyText.int? whole).map fun n => (.int n, rest)
    else some (.float (L.float (whole ++ (fraction ++ exponent))), rest)

/-- A value without brackets and quotes. -/
def scalar (text : Text) : Option (Json ν × Text) :=
  (word names text).or ((number L text).or (word (constants L) text))

/-- An entry of an object: a text, a colon and a value. -/
def member (scan : Text → Option (Json ν × Text)) (text : Text) :
    Option ((String × Json ν) × Text) :=
  match scanText text with
  | none => none
  | some (key, rest) =>
    match skip rest with
    | [] => none
    | c :: rest =>
      if c = ':' then (scan (skip rest)).map fun found => ((String.ofList key, found.1), found.2)
      else none

/-- A value at the beginning of a text, with not more than `fuel` levels of brackets. -/
def scanOnce : ℕ → Text → Option (Json ν × Text)
  | 0, _ => none
  | _ + 1, [] => none
  | fuel + 1, c :: text =>
    if c = doubleQuote then
      (scanChars text).map fun found => (.str (String.ofList found.1), found.2)
    else if c = '{' then
      (sequence (member (scanOnce fuel)) '}' text).map fun found => (.obj (ofPairs found.1), found.2)
    else if c = '[' then
      (sequence (scanOnce fuel) ']' text).map fun found => (.arr found.1, found.2)
    else scalar L (c :: text)

/-- **`json.loads(text)`.** The levels of brackets are not more than the letters. -/
def loads (text : Text) : Option (Json ν) :=
  match scanOnce L text.length (skip text) with
  | none => none
  | some (value, rest) => if skip rest = [] then some value else none

/-! ## Comparing -/

/-- A value that counts as a number. -/
def asNumber : Json ν → Option (ℤ ⊕ ν)
  | .bool b => some (.inl (if b then 1 else 0))
  | .int n => some (.inl n)
  | .float x => some (.inr x)
  | _ => none

/-- The operator `==` on numbers. -/
def eqNumber : ℤ ⊕ ν → ℤ ⊕ ν → Bool
  | .inl m, .inl n => m = n
  | .inl n, .inr x | .inr x, .inl n => L.eqInt x n
  | .inr x, .inr y => L.eqFloat x y

mutual

/-- **The operator `==`** on values: lists are compared item by item, and dictionaries key by key. -/
def valueEq : Json ν → Json ν → Bool
  | .null, .null => true
  | .str s, .str t => s = t
  | .arr items, .arr others => valueEqItems items others
  | .obj entries, .obj others =>
    decide (entries.length = others.length) && valueEqEntries entries others
  | v, w =>
    match asNumber v, asNumber w with
    | some m, some n => eqNumber L m n
    | _, _ => false

/-- The items of two lists. -/
def valueEqItems : List (Json ν) → List (Json ν) → Bool
  | [], [] => true
  | v :: vs, w :: ws => valueEq v w && valueEqItems vs ws
  | _, _ => false

/-- Each entry has its counterpart in a dictionary. -/
def valueEqEntries : List (String × Json ν) → List (String × Json ν) → Bool
  | [], _ => true
  | (k, v) :: es, others =>
    (match others.lookup k with
      | none => false
      | some w => valueEq v w) && valueEqEntries es others

end

/-- The library as the converter uses it. -/
def Library.builtins : Builtins ν := ⟨repr L, loads L, valueEq L⟩

/-! ## The values that are printed as JSON -/

mutual

/-- **The values that Python prints as JSON.** -/
def printsJson : Json ν → Bool
  | .null | .bool _ => false
  | .int _ => true
  | .float x => L.isFinite x
  | .str s => JsonText L.isPrintable s.toList
  | .arr items => printsJsonItems items
  | .obj entries => printsJsonEntries entries

/-- The items of a list. -/
def printsJsonItems : List (Json ν) → Bool
  | [] => true
  | v :: vs => printsJson v && printsJsonItems vs

/-- The entries of a dictionary. -/
def printsJsonEntries : List (String × Json ν) → Bool
  | [] => true
  | (k, v) :: es =>
    decide (JsonText L.isPrintable k.toList) && printsJson v && printsJsonEntries es

end

mutual

/-- No dictionary in the value has a key twice. -/
def distinctKeys : Json ν → Bool
  | .arr items => distinctKeysItems items
  | .obj entries => decide (entries.map Prod.fst).Nodup && distinctKeysEntries entries
  | _ => true

/-- The items of a list. -/
def distinctKeysItems : List (Json ν) → Bool
  | [] => true
  | v :: vs => distinctKeys v && distinctKeysItems vs

/-- The entries of a dictionary. -/
def distinctKeysEntries : List (String × Json ν) → Bool
  | [] => true
  | (_, v) :: es => distinctKeys v && distinctKeysEntries es

end

mutual

/-- The texts in a value. -/
def texts : Json ν → List String
  | .str s => [s]
  | .arr items => textsItems items
  | .obj entries => textsEntries entries
  | _ => []

/-- The items of a list. -/
def textsItems : List (Json ν) → List String
  | [] => []
  | v :: vs => texts v ++ textsItems vs

/-- The entries of a dictionary. -/
def textsEntries : List (String × Json ν) → List String
  | [] => []
  | (k, v) :: es => k :: (texts v ++ textsEntries es)

end

section

attribute [local simp] valueEq valueEqItems valueEqEntries printsJson printsJsonItems
  printsJsonEntries distinctKeys distinctKeysItems distinctKeysEntries texts textsItems textsEntries

end

/-! ## Lists and dictionaries -/

/-- The printed items of a list. -/
lemma repr_arr (items : List (Json ν)) :
    repr L (.arr items) = '[' :: (printed (repr L) items ++ [']']) := by
  have hitems (vs : List (Json ν)) : reprItems L vs = vs.map (repr L) := by
    induction vs with
    | nil => rfl
    | cons v vs ih => rw [reprItems, ih, List.map_cons]
  rw [repr, hitems, printed_map]
  rfl

/-- The printed entries of a dictionary. -/
lemma repr_obj (entries : List (String × Json ν)) :
    repr L (.obj entries) = '{' :: (printed (reprEntry L) entries ++ ['}']) := by
  have hentries (es : List (String × Json ν)) : reprEntries L es = es.map (reprEntry L) := by
    induction es with
    | nil => rfl
    | cons e es ih => rw [reprEntries, ih, List.map_cons, reprEntry]
  rw [repr, hentries, printed_map]
  rfl

/-- A list is printed as JSON with all its items. -/
lemma printsJsonItems_iff (vs : List (Json ν)) :
    printsJsonItems L vs ↔ ∀ v ∈ vs, printsJson L v := by
  induction vs with
  | nil => simp [printsJsonItems]
  | cons v vs ih => simp [printsJsonItems, ih]

/-- A dictionary is printed as JSON with all its entries. -/
lemma printsJsonEntries_iff (es : List (String × Json ν)) :
    printsJsonEntries L es ↔
      ∀ e ∈ es, JsonText L.isPrintable e.1.toList ∧ printsJson L e.2 := by
  induction es with
  | nil => simp [printsJsonEntries]
  | cons e es ih => simp [printsJsonEntries, ih]

/-! ## Scalars -/

/-- A value that does not begin with a bracket or a quote. -/
lemma scanOnce_scalar {c : Char} (h : c ≠ doubleQuote ∧ c ≠ '{' ∧ c ≠ '[') (fuel : ℕ)
    (text : Text) : scanOnce L (fuel + 1) (c :: text) = scalar L (c :: text) := by
  rw [scanOnce, if_neg h.1, if_neg h.2.1, if_neg h.2.2]

/-- The first letter of a number. -/
lemma number_start {c : Char} (h : c.isDigit ∨ c = '-') :
    (c ≠ doubleQuote ∧ c ≠ '{' ∧ c ≠ '[') ∧ isBlank c = false ∧ c ≠ ']' ∧
      c ≠ 'n' ∧ c ≠ 't' ∧ c ≠ 'f' := by
  have hdigit (d : Char) (hd : d.isDigit = false) (hminus : d ≠ '-') : c ≠ d := by
    rintro rfl
    rcases h with h | h
    · rw [hd] at h
      cases h
    · exact hminus h
  refine ⟨⟨hdigit _ (by decide) (by decide), hdigit _ (by decide) (by decide),
    hdigit _ (by decide) (by decide)⟩, ?_, hdigit _ (by decide) (by decide),
    hdigit _ (by decide) (by decide), hdigit _ (by decide) (by decide),
    hdigit _ (by decide) (by decide)⟩
  simp only [isBlank, decide_eq_false_iff_not, not_or]
  exact ⟨hdigit _ (by decide) (by decide), hdigit _ (by decide) (by decide),
    hdigit _ (by decide) (by decide), hdigit _ (by decide) (by decide)⟩

/-- A number is read as one. -/
lemma scalar_number {c : Char} (h : c.isDigit ∨ c = '-') {text : Text}
    {found : Json ν × Text} (hnumber : number L (c :: text) = some found) :
    scalar L (c :: text) = some found := by
  obtain ⟨-, -, -, hn, ht, hf⟩ := number_start h
  have hnames : word names (c :: text) = (none : Option (Json ν × Text)) := by
    have hnull : "null".toList = ['n', 'u', 'l', 'l'] := rfl
    have htrue : "true".toList = ['t', 'r', 'u', 'e'] := rfl
    have hfalse : "false".toList = ['f', 'a', 'l', 's', 'e'] := rfl
    simp [word, names, hnull, htrue, hfalse, List.isPrefixOf, Ne.symm hn, Ne.symm ht, Ne.symm hf]
  rw [scalar, hnames, hnumber]
  rfl

/-- The first letter of a printed integer. -/
lemma exists_str_cons (n : ℤ) : ∃ c text, PyText.str n = c :: text ∧ (c.isDigit ∨ c = '-') := by
  have hne : PyText.str n ≠ [] := by
    cases n with
    | ofNat n => exact Nat.toDigits_ne_nil
    | negSucc n => exact List.cons_ne_nil _ _
  obtain ⟨c, text, hcons⟩ := List.exists_cons_of_ne_nil hne
  exact ⟨c, text, hcons, PyText.isDigit_or_of_mem_str (n := n) (by simp [hcons])⟩

/-- A printed integer is read back. -/
lemma scanOnce_int (n : ℤ) (fuel : ℕ) {rest : Text} (hrest : Stops rest) :
    scanOnce L (fuel + 1) (PyText.str n ++ rest) = some (.int n, rest) := by
  have hnumber : number L (PyText.str n ++ rest) = some (.int n, rest) := by
    rw [number, scanNumber_str n hrest]
    simp only [and_self, if_true, PyText.int?_str, Option.map_some]
  obtain ⟨c, text, hcons, hc⟩ := exists_str_cons n
  rw [hcons, List.cons_append] at hnumber ⊢
  rw [scanOnce_scalar L (number_start hc).1, scalar_number L hc hnumber]

/-- A printed text is read back exactly if it is printed as JSON. -/
lemma scanOnce_str (s : String) (fuel : ℕ) (rest : Text) :
    scanOnce L (fuel + 1) (reprText L.isPrintable s.toList ++ rest) =
      if JsonText L.isPrintable s.toList then some (.str s, rest) else none := by
  have hscan := scanText_reprText L.isPrintable s.toList rest
  obtain ⟨text, hcons⟩ : ∃ text, reprText L.isPrintable s.toList ++ rest =
      quotesOf s.toList :: text := ⟨_, rfl⟩
  rw [hcons, scanText] at hscan
  rw [hcons]
  rcases quotesOf_cases s.toList with heq | heq
  · rw [heq, if_neg (by decide)] at hscan
    have hnot : ¬ JsonText L.isPrintable s.toList := by
      intro htext
      rw [if_pos htext] at hscan
      cases hscan
    rw [heq, if_neg hnot]
    rfl
  · rw [heq, if_pos rfl] at hscan
    rw [heq, scanOnce, if_pos rfl, hscan]
    split_ifs
    · rw [Option.map_some, String.ofList_toList]
    · rfl

/-- Behind a value in brackets a number ends. -/
lemma stops_of_comma_or {close : Char} (hclose : close = ']' ∨ close = '}') {c : Char}
    (hc : c = ',' ∨ c = close) (rest : Text) : Stops (c :: rest) := by
  intro d hd
  obtain rfl := Option.some.inj hd
  rcases hc with rfl | rfl
  · decide
  · rcases hclose with rfl | rfl <;> decide

variable {L} (hL : L.Documented)

include hL

/-- The first letter of a printed floating-point number. -/
lemma exists_reprFloat_cons (x : ν) : ∃ c text, L.reprFloat x = c :: text ∧
    (c.isDigit ∨ c = '-' ∨ c = 'i' ∨ c = 'n') := by
  cases hfinite : L.isFinite x with
  | true =>
    obtain ⟨-, l, hrepr, -⟩ := hL.finite x hfinite
    obtain ⟨c, text, htext, hc⟩ := l.exists_text_cons
    exact ⟨c, text, hrepr.trans htext, hc.imp_right Or.inl⟩
  | false =>
    rcases hL.infinite x hfinite with hrepr | hrepr | hrepr
    · exact ⟨'i', _, hrepr, by decide⟩
    · exact ⟨'-', _, hrepr, by decide⟩
    · exact ⟨'n', _, hrepr, by decide⟩

/-- A printed floating-point number is read back exactly if it is finite. -/
lemma scanOnce_float (x : ν) (fuel : ℕ) {rest : Text} (hrest : Stops rest) :
    scanOnce L (fuel + 1) (L.reprFloat x ++ rest) =
      if L.isFinite x then some (.float x, rest) else none := by
  cases hfinite : L.isFinite x with
  | true =>
    obtain ⟨-, l, hrepr, hread⟩ := hL.finite x hfinite
    obtain ⟨whole, fraction, exponent, hscan, hparts, hfloat⟩ := l.scanNumber_eq hrest
    have hnumber : number L (l.text ++ rest) = some (.float x, rest) := by
      rw [number, hscan]
      simp only [if_neg hfloat, hparts, hread]
    obtain ⟨c, text, htext, hc⟩ := l.exists_text_cons
    rw [hrepr]
    rw [htext, List.cons_append] at hnumber ⊢
    rw [scanOnce_scalar L (number_start hc).1, scalar_number L hc hnumber]
    rfl
  | false =>
    rcases hL.infinite x hfinite with hrepr | hrepr | hrepr <;> rw [hrepr] <;> rfl

/-- The first letter of a printed value. -/
lemma exists_repr_cons (v : Json ν) :
    ∃ c text, repr L v = c :: text ∧ isBlank c = false ∧ c ≠ ']' := by
  cases v with
  | null => exact ⟨'N', _, rfl, by decide⟩
  | bool b => cases b <;> exact ⟨_, _, rfl, by decide⟩
  | int n =>
    obtain ⟨c, text, hcons, hc⟩ := exists_str_cons n
    exact ⟨c, text, hcons, (number_start hc).2.1, (number_start hc).2.2.1⟩
  | float x =>
    obtain ⟨c, text, hcons, hc⟩ := exists_reprFloat_cons hL x
    refine ⟨c, text, hcons, ?_⟩
    rcases hc with hc | hc | rfl | rfl
    · exact ⟨(number_start (Or.inl hc)).2.1, (number_start (Or.inl hc)).2.2.1⟩
    · exact ⟨(number_start (Or.inr hc)).2.1, (number_start (Or.inr hc)).2.2.1⟩
    · decide
    · decide
  | str s =>
    refine ⟨quotesOf s.toList, _, rfl, ?_⟩
    rcases quotesOf_cases s.toList with heq | heq <;> rw [heq] <;> decide
  | arr items => exact ⟨'[', _, rfl, by decide⟩
  | obj entries => exact ⟨'{', _, rfl, by decide⟩

/-! ## Values -/

/-- A printed entry is read back exactly if its key and its value are printed as JSON. -/
lemma member_repr {scan : Text → Option (Json ν × Text)} {e : String × Json ν} {rest : Text}
    (hvalue : scan (repr L e.2 ++ rest) = if printsJson L e.2 then some (e.2, rest) else none) :
    member scan (reprEntry L e ++ rest) =
      if JsonText L.isPrintable e.1.toList ∧ printsJson L e.2 then some (e, rest) else none := by
  obtain ⟨c, text, hcons, hblank, -⟩ := exists_repr_cons hL e.2
  have hcolon : skip (':' :: ' ' :: (repr L e.2 ++ rest)) =
      ':' :: ' ' :: (repr L e.2 ++ rest) := List.dropWhile_cons_of_neg (by decide)
  have hbehind : skip (' ' :: (repr L e.2 ++ rest)) = repr L e.2 ++ rest := by
    rw [hcons]
    exact (List.dropWhile_cons_of_pos (by decide)).trans
      (List.dropWhile_cons_of_neg (by simp [hblank]))
  rw [member, reprEntry, List.append_assoc, scanText_reprText]
  by_cases hkey : JsonText L.isPrintable e.1.toList
  · simp only [List.cons_append, hcolon, if_true, hbehind, hvalue, hkey, true_and]
    split_ifs
    · rw [Option.map_some, String.ofList_toList]
    · rfl
  · rw [if_neg hkey, if_neg fun hall => hkey hall.1]

/-- A printed value is not empty. -/
lemma exists_fuel {v : Json ν} {fuel : ℕ} (h : (repr L v).length ≤ fuel) : ∃ n, fuel = n + 1 := by
  obtain ⟨c, text, hcons, -⟩ := exists_repr_cons hL v
  rw [hcons, List.length_cons] at h
  exact ⟨fuel - 1, by omega⟩

omit hL

mutual

/-- **A printed value at the beginning of a text** is read back exactly if it is printed as JSON,
with any fuel that is not less than its letters. -/
theorem scanOnce_repr (hL : L.Documented) : ∀ v : Json ν, distinctKeys v = true → ∀ fuel,
    (repr L v).length ≤ fuel → ∀ rest, Stops rest →
      scanOnce L fuel (repr L v ++ rest) = if printsJson L v then some (v, rest) else none
  | .null, _, _, hfuel, _, _ => by
    obtain ⟨fuel, rfl⟩ := exists_fuel hL hfuel
    rfl
  | .bool b, _, _, hfuel, _, _ => by
    obtain ⟨fuel, rfl⟩ := exists_fuel hL hfuel
    cases b <;> rfl
  | .int n, _, _, hfuel, _, hrest => by
    obtain ⟨fuel, rfl⟩ := exists_fuel hL hfuel
    exact scanOnce_int L n fuel hrest
  | .float x, _, _, hfuel, _, hrest => by
    obtain ⟨fuel, rfl⟩ := exists_fuel hL hfuel
    exact scanOnce_float hL x fuel hrest
  | .str s, _, _, hfuel, rest, _ => by
    obtain ⟨fuel, rfl⟩ := exists_fuel hL hfuel
    rw [repr, scanOnce_str]
    simp only [printsJson, decide_eq_true_eq]
  | .arr items, hkeys, _, hfuel, rest, _ => by
    obtain ⟨fuel, rfl⟩ := exists_fuel hL hfuel
    rw [repr_arr, List.length_cons, List.length_append, List.length_singleton] at hfuel
    have hscan : ∀ v ∈ items, ∀ c rest, c = ',' ∨ c = ']' →
        scanOnce L fuel (repr L v ++ c :: rest) =
          if printsJson L v then some (v, c :: rest) else none := by
      intro v hv c rest hc
      have hle := length_le_printed (repr L) hv
      exact scanOnce_repr_items hL items hkeys v hv fuel (by omega) _
        (stops_of_comma_or (Or.inl rfl) hc rest)
    have hparts : repr L (.arr items) ++ rest = '[' :: (printed (repr L) items ++ ']' :: rest) := by
      rw [repr_arr, List.cons_append, List.append_assoc, List.singleton_append]
    rw [hparts, scanOnce, if_neg (by decide), if_neg (by decide), if_pos rfl,
      sequence_printed (by decide) (fun v _ => exists_repr_cons hL v) hscan]
    simp only [printsJson, printsJsonItems_iff]
    split_ifs <;> rfl
  | .obj entries, hkeys, _, hfuel, rest, _ => by
    obtain ⟨fuel, rfl⟩ := exists_fuel hL hfuel
    rw [distinctKeys, Bool.and_eq_true, decide_eq_true_eq] at hkeys
    rw [repr_obj, List.length_cons, List.length_append, List.length_singleton] at hfuel
    have hstart : ∀ e ∈ entries, ∃ c text, reprEntry L e = c :: text ∧ isBlank c = false ∧
        c ≠ '}' := by
      intro e _
      refine ⟨quotesOf e.1.toList, _, rfl, ?_⟩
      rcases quotesOf_cases e.1.toList with heq | heq <;> rw [heq] <;> decide
    have hscan : ∀ e ∈ entries, ∀ c rest, c = ',' ∨ c = '}' →
        member (scanOnce L fuel) (reprEntry L e ++ c :: rest) =
          if JsonText L.isPrintable e.1.toList ∧ printsJson L e.2 then some (e, c :: rest)
          else none := by
      intro e he c rest hc
      have hle := length_le_printed (reprEntry L) he
      have hvalue : (repr L e.2).length ≤ (reprEntry L e).length := by
        rw [reprEntry, List.length_append, List.length_cons, List.length_cons]
        omega
      exact member_repr hL (scanOnce_repr_entries hL entries hkeys.2 e he fuel (by omega) _
        (stops_of_comma_or (Or.inr rfl) hc rest))
    have hparts : repr L (.obj entries) ++ rest =
        '{' :: (printed (reprEntry L) entries ++ '}' :: rest) := by
      rw [repr_obj, List.cons_append, List.append_assoc, List.singleton_append]
    rw [hparts, scanOnce, if_neg (by decide), if_pos rfl,
      sequence_printed (by decide) hstart hscan]
    simp only [printsJson, printsJsonEntries_iff]
    split_ifs
    · rw [Option.map_some, ofPairs_of_nodup hkeys.1]
    · rfl

/-- The same for the items of a list. -/
theorem scanOnce_repr_items (hL : L.Documented) : ∀ vs : List (Json ν), distinctKeysItems vs = true → ∀ v ∈ vs,
    ∀ fuel, (repr L v).length ≤ fuel → ∀ rest, Stops rest →
      scanOnce L fuel (repr L v ++ rest) = if printsJson L v then some (v, rest) else none
  | [], _, _, hv => absurd hv List.not_mem_nil
  | v :: vs, hkeys, w, hw => by
    rw [distinctKeysItems, Bool.and_eq_true] at hkeys
    rcases List.mem_cons.mp hw with heq | hw
    · rw [heq]
      exact scanOnce_repr hL v hkeys.1
    · exact scanOnce_repr_items hL vs hkeys.2 w hw

/-- The same for the entries of a dictionary. -/
theorem scanOnce_repr_entries (hL : L.Documented) : ∀ es : List (String × Json ν), distinctKeysEntries es = true →
    ∀ e ∈ es, ∀ fuel, (repr L e.2).length ≤ fuel → ∀ rest, Stops rest →
      scanOnce L fuel (repr L e.2 ++ rest) = if printsJson L e.2 then some (e.2, rest) else none
  | [], _, _, he => absurd he List.not_mem_nil
  | (_, v) :: es, hkeys, e, he => by
    rw [distinctKeysEntries, Bool.and_eq_true] at hkeys
    rcases List.mem_cons.mp he with heq | he
    · rw [heq]
      exact scanOnce_repr hL v hkeys.1
    · exact scanOnce_repr_entries hL es hkeys.2 e he

end

/-- **A printed value is read back** exactly if it is printed as JSON, and is no JSON otherwise. -/
theorem loads_repr (hL : L.Documented) {v : Json ν} (hkeys : distinctKeys v = true) :
    loads L (repr L v) = if printsJson L v then some v else none := by
  obtain ⟨c, text, hcons, hblank, -⟩ := exists_repr_cons hL v
  have hskip : skip (repr L v) = repr L v := by
    rw [hcons]
    exact List.dropWhile_cons_of_neg (by simp [hblank])
  have hstops : Stops [] := fun c hc => by cases hc
  have hscan := scanOnce_repr hL v hkeys _ le_rfl [] hstops
  rw [List.append_nil] at hscan
  rw [loads, hskip, hscan]
  split_ifs <;> rfl

/-! ## Words in printed values -/

/-- A printed floating-point number has no bracket of a tag. -/
lemma notMem_reprFloat (hL : L.Documented) (x : ν) : '<' ∉ L.reprFloat x := by
  cases hfinite : L.isFinite x with
  | true =>
    obtain ⟨-, l, hrepr, -⟩ := hL.finite x hfinite
    rw [hrepr]
    intro hmem
    rcases l.isDigit_or_mem hmem with hdigit | hmem
    · exact absurd hdigit (by decide)
    · exact absurd hmem (by decide)
  | false =>
    rcases hL.infinite x hfinite with hrepr | hrepr | hrepr <;> rw [hrepr] <;> decide

section Words

variable {u : Text}

/-- A word in a printed text and what stands behind it. -/
lemma infix_of_reprText_str (hu : ∀ c ∈ u, c ≠ backslash ∧ c ≠ quote ∧ c ≠ doubleQuote)
    {s : String} (hs : ¬ '<' :: u <:+: s.toList) {rest : Text}
    (h : '<' :: u <:+: reprText L.isPrintable s.toList ++ rest) : '<' :: u <:+: rest :=
  (infix_of_reprText (by decide) hu h).resolve_left hs

mutual

/-- **A word that begins like a tag** and is in no text of a value is not in the printed value, nor
across its end. -/
theorem infix_of_repr (hL : L.Documented)
    (hu : ∀ c ∈ u, c ≠ backslash ∧ c ≠ quote ∧ c ≠ doubleQuote) : ∀ v : Json ν,
    (∀ s ∈ texts v, ¬ '<' :: u <:+: s.toList) → ∀ rest,
      '<' :: u <:+: repr L v ++ rest → '<' :: u <:+: rest
  | .null, _, _, h => by
    have hnone : '<' ∉ "None".toList := by decide
    exact (Search.infix_append_iff_of_notMem hnone _ _).mp h
  | .bool b, _, _, h => by
    have hbool : '<' ∉ if b then "True".toList else "False".toList := by cases b <;> decide
    exact (Search.infix_append_iff_of_notMem hbool _ _).mp h
  | .int n, _, _, h => by
    refine (Search.infix_append_iff_of_notMem (fun hmem => ?_) _ _).mp h
    rcases PyText.isDigit_or_of_mem_str hmem with hdigit | hminus
    · exact absurd hdigit (by decide)
    · exact absurd hminus (by decide)
  | .float x, _, _, h =>
    (Search.infix_append_iff_of_notMem (notMem_reprFloat hL x) _ _).mp h
  | .str s, hs, _, h => infix_of_reprText_str hu (hs s (List.mem_singleton.mpr rfl)) h
  | .arr items, hs, rest, h => by
    rw [repr_arr, List.cons_append, List.append_assoc, List.singleton_append,
      List.infix_cons_iff] at h
    have hopen := h.resolve_left fun hhead =>
      absurd (List.cons_prefix_cons.mp hhead).1 (by decide)
    have hclose := infix_of_printed (by decide) (by decide)
      (infix_of_repr_items hL hu items hs) hopen
    exact (List.infix_cons_iff.mp hclose).resolve_left fun hhead =>
      absurd (List.cons_prefix_cons.mp hhead).1 (by decide)
  | .obj entries, hs, rest, h => by
    rw [repr_obj, List.cons_append, List.append_assoc, List.singleton_append,
      List.infix_cons_iff] at h
    have hopen := h.resolve_left fun hhead =>
      absurd (List.cons_prefix_cons.mp hhead).1 (by decide)
    have hclose := infix_of_printed (by decide) (by decide)
      (infix_of_repr_entries hL hu entries hs) hopen
    exact (List.infix_cons_iff.mp hclose).resolve_left fun hhead =>
      absurd (List.cons_prefix_cons.mp hhead).1 (by decide)

/-- The same for the items of a list. -/
theorem infix_of_repr_items (hL : L.Documented)
    (hu : ∀ c ∈ u, c ≠ backslash ∧ c ≠ quote ∧ c ≠ doubleQuote) : ∀ vs : List (Json ν),
    (∀ s ∈ textsItems vs, ¬ '<' :: u <:+: s.toList) → ∀ v ∈ vs, ∀ rest,
      '<' :: u <:+: repr L v ++ rest → '<' :: u <:+: rest
  | [], _, _, hv => absurd hv List.not_mem_nil
  | v :: vs, hs, w, hw => by
    rw [textsItems, List.forall_mem_append] at hs
    rcases List.mem_cons.mp hw with heq | hw
    · rw [heq]
      exact infix_of_repr hL hu v hs.1
    · exact infix_of_repr_items hL hu vs hs.2 w hw

/-- The same for the entries of a dictionary. -/
theorem infix_of_repr_entries (hL : L.Documented)
    (hu : ∀ c ∈ u, c ≠ backslash ∧ c ≠ quote ∧ c ≠ doubleQuote) :
    ∀ es : List (String × Json ν), (∀ s ∈ textsEntries es, ¬ '<' :: u <:+: s.toList) →
      ∀ e ∈ es, ∀ rest, '<' :: u <:+: reprEntry L e ++ rest → '<' :: u <:+: rest
  | [], _, _, he => absurd he List.not_mem_nil
  | (k, v) :: es, hs, e, he => by
    rw [textsEntries, List.forall_mem_cons, List.forall_mem_append] at hs
    obtain ⟨hk, hv, hes⟩ := hs
    rcases List.mem_cons.mp he with heq | he
    · intro rest h
      rw [heq, reprEntry, List.append_assoc, List.cons_append, List.cons_append] at h
      have hbehind := infix_of_reprText_str hu hk h
      have hcolon : '<' ∉ [':', ' '] := by decide
      exact infix_of_repr hL hu v hv rest
        ((Search.infix_append_iff_of_notMem hcolon u (repr L v ++ rest)).mp hbehind)
    · exact infix_of_repr_entries hL hu es hes e he

end

end Words

/-! ## Comparing a value with itself -/

/-- The entry of a key. -/
lemma lookup_of_mem {es : List (String × Json ν)} (h : (es.map Prod.fst).Nodup)
    {e : String × Json ν} (he : e ∈ es) : es.lookup e.1 = some e.2 := by
  induction es with
  | nil => cases he
  | cons d es ih =>
    rw [List.map_cons, List.nodup_cons] at h
    rcases List.mem_cons.mp he with rfl | he
    · rw [List.lookup_cons, beq_self_eq_true]
    · have hne : (e.1 == d.1) = false := by
        rw [beq_eq_false_iff_ne]
        exact fun heq => h.1 (heq ▸ List.mem_map_of_mem he)
      rw [List.lookup_cons, hne]
      exact ih h.2 he

mutual

/-- **A value that is printed as JSON equals itself.** -/
theorem valueEq_self (hL : L.Documented) : ∀ v : Json ν, printsJson L v = true →
    distinctKeys v = true → valueEq L v v = true
  | .null, _, _ => rfl
  | .bool b, h, _ => by cases h
  | .int n, _, _ => decide_eq_true rfl
  | .float x, h, _ => (hL.finite x h).1
  | .str s, _, _ => decide_eq_true rfl
  | .arr items, h, hkeys => valueEq_self_items hL items h hkeys
  | .obj entries, h, hkeys => by
    rw [distinctKeys, Bool.and_eq_true, decide_eq_true_eq] at hkeys
    rw [valueEq, Bool.and_eq_true, decide_eq_true_eq]
    exact ⟨rfl, valueEq_self_entries hL entries h hkeys.2 entries fun e he =>
      lookup_of_mem hkeys.1 he⟩

/-- The same for the items of a list. -/
theorem valueEq_self_items (hL : L.Documented) : ∀ vs : List (Json ν),
    printsJsonItems L vs = true → distinctKeysItems vs = true → valueEqItems L vs vs = true
  | [], _, _ => rfl
  | v :: vs, h, hkeys => by
    rw [printsJsonItems, Bool.and_eq_true] at h
    rw [distinctKeysItems, Bool.and_eq_true] at hkeys
    rw [valueEqItems, Bool.and_eq_true]
    exact ⟨valueEq_self hL v h.1 hkeys.1, valueEq_self_items hL vs h.2 hkeys.2⟩

/-- The same for the entries of a dictionary that has them. -/
theorem valueEq_self_entries (hL : L.Documented) : ∀ es : List (String × Json ν),
    printsJsonEntries L es = true → distinctKeysEntries es = true →
      ∀ others : List (String × Json ν), (∀ e ∈ es, others.lookup e.1 = some e.2) →
        valueEqEntries L es others = true
  | [], _, _, _, _ => rfl
  | (k, v) :: es, h, hkeys, others, hothers => by
    rw [printsJsonEntries, Bool.and_eq_true, Bool.and_eq_true] at h
    rw [distinctKeysEntries, Bool.and_eq_true] at hkeys
    obtain ⟨hk, hes⟩ := List.forall_mem_cons.mp hothers
    rw [valueEqEntries, Bool.and_eq_true, hk]
    exact ⟨valueEq_self hL v h.1.2 hkeys.1, valueEq_self_entries hL es h.2 hkeys.2 others hes⟩

end

end Values

/-! ## Some numbers -/

/-- Some floating-point numbers. -/
inductive SampleFloat where
  | half
  | infinity (isNegative : Bool)
  | nan
  deriving DecidableEq, Repr

/-- The library on these numbers, and on letters of ASCII. -/
def sampleLibrary : Library SampleFloat where
  isPrintable _ := true
  isFinite x := x = .half
  reprFloat
    | .half => "0.5".toList
    | .infinity isNegative => if isNegative then "-inf".toList else "inf".toList
    | .nan => "nan".toList
  float text := if text = "0.5".toList then .half else .nan
  infinity := .infinity
  nan := .nan
  eqFloat x y := x = y ∧ x ≠ .nan
  eqInt _ _ := false

/-- The number `0.5` as it is printed. -/
def halfLiteral : FloatLiteral where
  isNegative := false
  whole := ['0']
  fraction := ['5']
  exponent := none
  whole_digits := ⟨by decide, PyText.forall_of_all (by decide), fun _ => rfl⟩
  fraction_digits := PyText.forall_of_all (by decide)
  exponent_digits := fun e he => by cases he
  float := Or.inl (by decide)

/-- The library does what is documented. -/
lemma documented_sampleLibrary : sampleLibrary.Documented where
  finite x hx := by
    cases x with
    | half => exact ⟨rfl, halfLiteral, rfl, rfl⟩
    | infinity isNegative => cases hx
    | nan => cases hx
  infinite x hx := by
    cases x with
    | half => cases hx
    | infinity isNegative =>
      cases isNegative with
      | false => exact Or.inl rfl
      | true => exact Or.inr (Or.inl rfl)
    | nan => exact Or.inr (Or.inr rfl)

end ProRLAgent.FnCall
