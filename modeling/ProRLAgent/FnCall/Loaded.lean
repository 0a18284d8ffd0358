import ProRLAgent.FnCall.Printed

set_option relaxedAutoImplicit false
set_option autoImplicit false

/-!
# What `json.loads` accepts and raises

`json.loads` raises a `JSONDecodeError` for a text that is no JSON, and other exceptions where the
interpreter meets its limits: an integer with too many digits, or brackets nested too deeply. Which
texts those are is left open.

A reader of JSON takes a value from the beginning of a text and leaves the rest as it is. So a text
that is read as an object stands between braces, with nothing but white space around them.

## Main definitions

* `ProRLAgent.FnCall.LoadsError`, `ProRLAgent.FnCall.jsonLoads` — `json.loads` with its exceptions.

## Main results

* `ProRLAgent.FnCall.suffix_of_scanOnce` — what is left of a text is its end.
* `ProRLAgent.FnCall.braces_of_loads` — an object stands between braces.
-/

namespace ProRLAgent.FnCall

open Literals
open Serialization (Json ofPairs)

variable {ν : Type}

/-! ## What is left of a text -/

/-- A letter is put before what was read. -/
lemma push_eq_some {c : Char} {result : Option (Text × Text)} {letters rest : Text}
    (h : push c result = some (letters, rest)) : ∃ tail, result = some (tail, rest) := by
  obtain ⟨parts, hparts, heq⟩ := Option.map_eq_some_iff.mp h
  obtain ⟨-, rfl⟩ := Prod.mk.inj heq
  exact ⟨parts.1, hparts⟩

/-- Behind a text in quotes the end of the text is left. -/
lemma suffix_of_scanChars {text letters rest : Text} (h : scanChars text = some (letters, rest)) :
    rest <:+ text := by
  fun_induction scanChars text generalizing letters with
  | case2 text =>
    obtain ⟨-, rfl⟩ := Prod.mk.inj (Option.some.inj h)
    exact List.suffix_cons doubleQuote text
  | case6 =>
    -- Two surrogates.
    rename_i ih
    obtain ⟨tail, htail⟩ := push_eq_some h
    exact (ih htail).trans ⟨[_, _, _, _, _, _, _, _, _, _, _, _], rfl⟩
  | case11 =>
    rename_i ih
    obtain ⟨tail, htail⟩ := push_eq_some h
    exact (ih htail).trans ⟨[_, _, _, _, _, _], rfl⟩
  | case14 e text _ d _ _ ih =>
    obtain ⟨tail, htail⟩ := push_eq_some h
    exact (ih htail).trans ⟨[_, _], rfl⟩
  | case16 c text _ _ _ ih =>
    obtain ⟨tail, htail⟩ := push_eq_some h
    exact (ih htail).trans (List.suffix_cons c text)
  | _ => cases h

/-- Behind digits the end of the text is left. -/
lemma suffix_of_scanDigits (text : Text) : (scanDigits text).2 <:+ text := List.dropWhile_suffix _

/-- Behind a whole number the end of the text is left. -/
lemma suffix_of_scanWhole {text whole rest : Text} (h : scanWhole text = some (whole, rest)) :
    rest <:+ text := by
  cases text with
  | nil => cases h
  | cons c text =>
    rw [scanWhole] at h
    split_ifs at h
    · obtain ⟨-, rfl⟩ := Prod.mk.inj (Option.some.inj h)
      exact List.suffix_cons c text
    · obtain ⟨-, rfl⟩ := Prod.mk.inj (Option.some.inj h)
      exact List.dropWhile_suffix _

/-- Behind a number the end of the text is left. -/
lemma suffix_of_scanNumber {text rest : Text} {parts : Text × Text × Text}
    (h : scanNumber text = some (parts, rest)) : rest <:+ text := by
  obtain ⟨⟨whole, tail⟩, hwhole, heq⟩ := Option.map_eq_some_iff.mp h
  obtain ⟨-, rfl⟩ := Prod.mk.inj heq
  have hinteger : tail <:+ text := by
    cases text with
    | nil => cases hwhole
    | cons c text =>
      rw [scanInteger] at hwhole
      split_ifs at hwhole
      · obtain ⟨found, hfound, heq⟩ := Option.map_eq_some_iff.mp hwhole
        obtain ⟨-, rfl⟩ := Prod.mk.inj heq
        exact (suffix_of_scanWhole hfound).trans (List.suffix_cons c text)
      · exact suffix_of_scanWhole hwhole
  have hfraction (text : Text) : (scanFraction text).2 <:+ text := by
    cases text with
    | nil => exact List.suffix_rfl
    | cons c text =>
      rw [scanFraction]
      split_ifs
      · exact (suffix_of_scanDigits text).trans (List.suffix_cons c text)
      · exact List.suffix_rfl
  have hsign (text : Text) : (scanSign text).2 <:+ text := by
    cases text with
    | nil => exact List.suffix_rfl
    | cons c text =>
      rw [scanSign]
      split_ifs
      · exact List.suffix_cons c text
      · exact List.suffix_rfl
  have hexponent (text : Text) : (scanExponent text).2 <:+ text := by
    cases text with
    | nil => exact List.suffix_rfl
    | cons c text =>
      rw [scanExponent]
      split_ifs
      · exact (suffix_of_scanDigits _).trans ((hsign text).trans (List.suffix_cons c text))
      · exact List.suffix_rfl
  exact (hexponent _).trans ((hfraction tail).trans hinteger)

/-- Behind white space the end of the text is left. -/
lemma suffix_skip (text : Text) : skip text <:+ text := List.dropWhile_suffix _

section Sequence

variable {β : Type} {scan : Text → Option (β × Text)} {close : Char}

/-- Behind values between commas the end of the text is left, from the closing bracket on. -/
lemma suffix_of_items (hscan : ∀ {text b rest}, scan text = some (b, rest) → rest <:+ text)
    {fuel : ℕ} {text rest : Text} {bs : List β} (h : items scan close fuel text = some (bs, rest)) :
    close :: rest <:+ text := by
  induction fuel generalizing text bs with
  | zero => cases h
  | succ fuel ih =>
    rw [items] at h
    split at h
    · cases h
    · next b tail hb =>
      split at h
      · cases h
      · next c tail' htail =>
        have hskip : c :: tail' <:+ text := htail ▸ (suffix_skip tail).trans (hscan hb)
        split_ifs at h with hcomma hclose
        · obtain ⟨found, hfound, heq⟩ := Option.map_eq_some_iff.mp h
          obtain ⟨-, rfl⟩ := Prod.mk.inj heq
          exact (ih hfound).trans ((suffix_skip tail').trans ((List.suffix_cons c _).trans hskip))
        · obtain ⟨-, rfl⟩ := Prod.mk.inj (Option.some.inj h)
          exact hclose ▸ hskip

/-- Behind a list of values the end of the text is left, from the closing bracket on. -/
lemma suffix_of_sequence (hscan : ∀ {text b rest}, scan text = some (b, rest) → rest <:+ text)
    {text rest : Text} {bs : List β} (h : sequence scan close text = some (bs, rest)) :
    close :: rest <:+ text := by
  rw [Literals.sequence] at h
  split at h
  · cases h
  · next c tail htail =>
    have hskip : c :: tail <:+ text := htail ▸ suffix_skip text
    split_ifs at h with hclose
    · obtain ⟨-, rfl⟩ := Prod.mk.inj (Option.some.inj h)
      exact hclose ▸ hskip
    · exact (suffix_of_items hscan h).trans hskip

end Sequence

variable (L : Library ν)

/-- Behind a word of a table the end of the text is left. -/
lemma suffix_of_word {table : List (Text × Json ν)} {text rest : Text} {value : Json ν}
    (h : word table text = some (value, rest)) : rest <:+ text := by
  obtain ⟨e, -, heq⟩ := Option.map_eq_some_iff.mp h
  obtain ⟨-, rfl⟩ := Prod.mk.inj heq
  exact List.drop_suffix _ _

/-- The values of a table of words. -/
lemma mem_of_word {table : List (Text × Json ν)} {text rest : Text} {value : Json ν}
    (h : word table text = some (value, rest)) : value ∈ table.map Prod.snd := by
  obtain ⟨e, he, heq⟩ := Option.map_eq_some_iff.mp h
  obtain ⟨rfl, -⟩ := Prod.mk.inj heq
  exact List.mem_map_of_mem (List.mem_of_find?_eq_some he)

/-- Behind a scalar the end of the text is left. A scalar is no object. -/
lemma suffix_of_scalar {text rest : Text} {value : Json ν}
    (h : scalar L text = some (value, rest)) :
    rest <:+ text ∧ ∀ entries, value ≠ .obj entries := by
  rw [scalar, Option.or_eq_some_iff, Option.or_eq_some_iff] at h
  rcases h with hname | ⟨-, hnumber | ⟨-, hconstant⟩⟩
  · refine ⟨suffix_of_word hname, ?_⟩
    rintro entries rfl
    simpa [names] using mem_of_word hname
  · rw [number] at hnumber
    split at hnumber
    · cases hnumber
    · next whole fraction exponent tail hparts =>
      split_ifs at hnumber
      · obtain ⟨n, -, heq⟩ := Option.map_eq_some_iff.mp hnumber
        obtain ⟨rfl, rfl⟩ := Prod.mk.inj heq
        exact ⟨suffix_of_scanNumber hparts, fun _ heq => by cases heq⟩
      · obtain ⟨rfl, rfl⟩ := Prod.mk.inj (Option.some.inj hnumber)
        exact ⟨suffix_of_scanNumber hparts, fun _ heq => by cases heq⟩
  · refine ⟨suffix_of_word hconstant, ?_⟩
    rintro entries rfl
    simpa [constants] using mem_of_word hconstant

/-- Behind an entry of an object the end of the text is left. -/
lemma suffix_of_member {scan : Text → Option (Json ν × Text)}
    (hscan : ∀ {text value rest}, scan text = some (value, rest) → rest <:+ text)
    {text rest : Text} {entry : String × Json ν} (h : member scan text = some (entry, rest)) :
    rest <:+ text := by
  rw [member] at h
  split at h
  · cases h
  · next key tail hkey =>
    have htail : tail <:+ text := by
      cases text with
      | nil => cases hkey
      | cons c text =>
        rw [scanText] at hkey
        split_ifs at hkey
        exact (suffix_of_scanChars hkey).trans (List.suffix_cons c text)
    split at h
    · cases h
    · next c tail' hskip =>
      have hvalue : c :: tail' <:+ text := hskip ▸ (suffix_skip tail).trans htail
      split_ifs at h
      obtain ⟨found, hfound, heq⟩ := Option.map_eq_some_iff.mp h
      obtain ⟨-, rfl⟩ := Prod.mk.inj heq
      exact (hscan hfound).trans
        ((suffix_skip tail').trans ((List.suffix_cons c _).trans hvalue))

/-- **What is left of a text** behind a value is its end, and an object stands between braces. -/
theorem suffix_of_scanOnce {fuel : ℕ} {text rest : Text} {value : Json ν}
    (h : scanOnce L fuel text = some (value, rest)) :
    rest <:+ text ∧ ∀ entries, value = .obj entries →
      ∃ inner, text = '{' :: (inner ++ '}' :: rest) := by
  induction fuel generalizing text rest value with
  | zero => cases h
  | succ fuel ih =>
    cases text with
    | nil => cases h
    | cons c text =>
      rw [scanOnce] at h
      split_ifs at h with hquote hbrace hbracket
      · obtain ⟨found, hfound, heq⟩ := Option.map_eq_some_iff.mp h
        obtain ⟨rfl, rfl⟩ := Prod.mk.inj heq
        exact ⟨(suffix_of_scanChars hfound).trans (List.suffix_cons c text),
          fun _ heq => by cases heq⟩
      · obtain ⟨found, hfound, heq⟩ := Option.map_eq_some_iff.mp h
        obtain ⟨-, rfl⟩ := Prod.mk.inj heq
        have hclose : '}' :: found.2 <:+ text :=
          suffix_of_sequence (suffix_of_member fun hscan => (ih hscan).1) hfound
        refine ⟨(List.suffix_cons _ _).trans (hclose.trans (List.suffix_cons c text)),
          fun _ _ => ?_⟩
        obtain ⟨inner, rfl⟩ := hclose
        exact ⟨inner, by rw [hbrace]⟩
      · obtain ⟨found, hfound, heq⟩ := Option.map_eq_some_iff.mp h
        obtain ⟨rfl, rfl⟩ := Prod.mk.inj heq
        have hclose : ']' :: found.2 <:+ text :=
          suffix_of_sequence (fun hscan => (ih hscan).1) hfound
        exact ⟨(List.suffix_cons _ _).trans (hclose.trans (List.suffix_cons c text)),
          fun _ heq => by cases heq⟩
      · obtain ⟨hsuffix, hscalar⟩ := suffix_of_scalar L h
        exact ⟨hsuffix, fun entries heq => absurd heq (hscalar entries)⟩

/-- **An object stands between braces**, with nothing but white space around them. -/
theorem braces_of_loads {text : Text} {entries : List (String × Json ν)}
    (h : loads L text = some (.obj entries)) :
    ∃ before inner after, text = before ++ '{' :: (inner ++ '}' :: after) ∧
      (before.all isBlank) = true ∧ (after.all isBlank) = true := by
  rw [loads] at h
  split at h
  · cases h
  · next value rest hscan =>
    split_ifs at h with hrest
    obtain ⟨inner, hinner⟩ := (suffix_of_scanOnce L hscan).2 entries (Option.some.inj h)
    refine ⟨text.takeWhile isBlank, inner, rest, ?_, ?_, ?_⟩
    · rw [← hinner, skip, List.takeWhile_append_dropWhile]
    · exact List.all_eq_true.mpr fun c hc => List.mem_takeWhile_imp hc
    · exact List.all_eq_true.mpr (List.dropWhile_eq_nil_iff.mp hrest)

/-- A text that begins with a brace is read as an object. -/
lemma exists_obj_of_loads {text : Text} {value : Json ν} (h : loads L ('{' :: text) = some value) :
    ∃ entries, value = .obj entries := by
  have hskip : skip ('{' :: text) = '{' :: text := rfl
  rw [loads, hskip, List.length_cons, scanOnce, if_neg (by decide), if_pos rfl] at h
  rcases hscan : sequence (member (scanOnce L text.length)) '}' text with _ | found
  · rw [hscan] at h
    cases h
  · rw [hscan, Option.map_some] at h
    simp only [Option.ite_none_right_eq_some, Option.some.injEq] at h
    exact ⟨_, h.2.symm⟩

/-! ## Exceptions -/

/-- What `json.loads` raises. -/
inductive LoadsError where
  /-- `json.JSONDecodeError`. -/
  | decode
  /-- An exception at a limit of the interpreter. -/
  | limit
  deriving DecidableEq

/-- **`json.loads(text)`.** The texts at which the interpreter meets a limit are those that `exceeds`
picks. -/
def jsonLoads (exceeds : Text → Bool) (text : Text) : Except LoadsError (Json ν) :=
  if exceeds text then .error .limit
  else match loads L text with
    | some value => .ok value
    | none => .error .decode

variable {L}

/-- A text that is read. -/
lemma jsonLoads_eq_ok_iff {exceeds : Text → Bool} {text : Text} {value : Json ν} :
    jsonLoads L exceeds text = .ok value ↔
      exceeds text = false ∧ loads L text = some value := by
  rw [jsonLoads]
  cases exceeds text
  · cases loads L text <;> simp
  · simp

/-- A text at which no limit is met. -/
lemma jsonLoads_ne_limit {exceeds : Text → Bool} {text : Text} (h : exceeds text = false) :
    jsonLoads L exceeds text ≠ .error .limit := by
  rw [jsonLoads, h, if_neg Bool.false_ne_true]
  cases loads L text <;> simp

end ProRLAgent.FnCall
