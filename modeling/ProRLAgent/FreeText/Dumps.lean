import ProRLAgent.FnCall.Printed

set_option relaxedAutoImplicit false
set_option autoImplicit false

/-!
# JSON texts of values

`dumps` of `openhands/io/json.py` writes JSON with the standard separators, and with an escape for
every letter beyond ASCII. Texts of any letters are read back; letters beyond the first plane are
written as two surrogates.

## Main definitions

* `ProRLAgent.FreeText.dumps` — the text of a value.
* `ProRLAgent.FreeText.isJson` — the values of JSON: finite numbers, and no key twice.

## Main results

* `ProRLAgent.FreeText.scanText_dumpText` — a written text is read back.
* `ProRLAgent.FreeText.loads_dumps` — a written value is read back.
-/

namespace ProRLAgent.FreeText

open Literals
open FnCall (Text Library Library.Documented loads scanOnce member)
open Serialization (Json ofPairs ofPairs_of_nodup)

variable {ν : Type}

/-! ## Writing -/

/-- A letter in a written text. -/
def dumpChar (c : Char) : Text :=
  if c = doubleQuote ∨ c = backslash then [backslash, c]
  else if c = '\n' then [backslash, 'n']
  else if c = '\r' then [backslash, 'r']
  else if c = '\t' then [backslash, 't']
  else if c = '\x0c' then [backslash, 'f']
  else if c = '\x08' then [backslash, 'b']
  else if 0x20 ≤ c.toNat ∧ c.toNat ≤ 0x7e then [c]
  else if c.toNat < 0x10000 then backslash :: 'u' :: hexText 4 c.toNat
  else backslash :: 'u' :: (hexText 4 (0xd800 + (c.toNat - 0x10000) / 0x400) ++
    backslash :: 'u' :: hexText 4 (0xdc00 + (c.toNat - 0x10000) % 0x400))

/-- A written text. -/
def dumpText (text : Text) : Text := doubleQuote :: (text.flatMap dumpChar ++ [doubleQuote])

section Values

variable (L : Library ν)

/-- A written floating-point number. -/
def dumpFloat (x : ν) : Text :=
  if L.isFinite x then L.reprFloat x
  else if L.reprFloat x = "nan".toList then "NaN".toList
  else if L.reprFloat x = "inf".toList then "Infinity".toList
  else "-Infinity".toList

mutual

/-- **`dumps(obj)`.** -/
def dumps : Json ν → Text
  | .null => "null".toList
  | .bool b => if b then "true".toList else "false".toList
  | .int n => PyText.str n
  | .float x => dumpFloat L x
  | .str s => dumpText s.toList
  | .arr items => '[' :: (printed id (dumpItems items) ++ [']'])
  | .obj entries => '{' :: (printed id (dumpEntries entries) ++ ['}'])

/-- The items of a list. -/
def dumpItems : List (Json ν) → List Text
  | [] => []
  | v :: vs => dumps v :: dumpItems vs

/-- The entries of an object. -/
def dumpEntries : List (String × Json ν) → List Text
  | [] => []
  | (k, v) :: es => (dumpText k.toList ++ ':' :: ' ' :: dumps v) :: dumpEntries es

end

/-- An entry of an object. -/
def dumpEntry (e : String × Json ν) : Text := dumpText e.1.toList ++ ':' :: ' ' :: dumps L e.2

mutual

/-- **The values of JSON**: every number is finite, and no object has a key twice. -/
def isJson : Json ν → Bool
  | .float x => L.isFinite x
  | .arr items => isJsonItems items
  | .obj entries => decide (entries.map Prod.fst).Nodup && isJsonEntries entries
  | _ => true

/-- The items of a list. -/
def isJsonItems : List (Json ν) → Bool
  | [] => true
  | v :: vs => isJson v && isJsonItems vs

/-- The entries of an object. -/
def isJsonEntries : List (String × Json ν) → Bool
  | [] => true
  | (_, v) :: es => isJson v && isJsonEntries es

end

-- The equations of these functions are generated here, not in each proof that unfolds them.
section

attribute [local simp] dumps dumpItems dumpEntries isJson isJsonItems isJsonEntries

end

/-- The written items of a list. -/
lemma dumps_arr (items : List (Json ν)) :
    dumps L (.arr items) = '[' :: (printed (dumps L) items ++ [']']) := by
  have hitems (vs : List (Json ν)) : dumpItems L vs = vs.map (dumps L) := by
    induction vs with
    | nil => rfl
    | cons v vs ih => rw [dumpItems, ih, List.map_cons]
  rw [dumps, hitems, printed_map]
  rfl

/-- The written entries of an object. -/
lemma dumps_obj (entries : List (String × Json ν)) :
    dumps L (.obj entries) = '{' :: (printed (dumpEntry L) entries ++ ['}']) := by
  have hentries (es : List (String × Json ν)) : dumpEntries L es = es.map (dumpEntry L) := by
    induction es with
    | nil => rfl
    | cons e es ih => rw [dumpEntries, ih, List.map_cons, dumpEntry]
  rw [dumps, hentries, printed_map]
  rfl

end Values

/-! ## Texts -/

/-- Two surrogates are read as one letter. -/
lemma scanChars_surrogates {high low : ℕ} (hhigh : high < 0x400) (hlow : low < 0x400) (rest : Text) :
    scanChars (backslash :: 'u' :: (hexText 4 (0xd800 + high) ++
        backslash :: 'u' :: (hexText 4 (0xdc00 + low) ++ rest))) =
      push (Char.ofNat (0x10000 + 0x400 * high + low)) (scanChars rest) := by
  have hread (n : ℕ) (hn : n < 0x10000) : hexNumber? (hexText 4 n) = some n := by
    rw [hexNumber?_hexText, Nat.mod_eq_of_lt (by omega)]
  have hreadHigh := hread (0xd800 + high) (by omega)
  have hreadLow := hread (0xdc00 + low) (by omega)
  have hisHigh : 0xd800 ≤ 0xd800 + high ∧ 0xd800 + high ≤ 0xdbff := by omega
  have hisLow : 0xdc00 ≤ 0xdc00 + low ∧ 0xdc00 + low ≤ 0xdfff := by omega
  have hnumber : 0x10000 + 0x400 * (0xd800 + high - 0xd800) + (0xdc00 + low - 0xdc00) =
      0x10000 + 0x400 * high + low := by omega
  simp only [hexText, List.nil_append, List.cons_append] at hreadHigh hreadLow ⊢
  rw [scanChars.eq_def]
  simp only [if_neg backslash_ne, if_true, hreadHigh, if_pos hisHigh, and_self, hreadLow,
    if_pos hisLow, hnumber]

/-- A written letter is read back. -/
lemma scanChars_dumpChar (c : Char) (rest : Text) :
    scanChars (dumpChar c ++ rest) = push c (scanChars rest) := by
  have hscalar : c.toNat < 0xd800 ∨ 0xdfff < c.toNat ∧ c.toNat < 0x110000 := c.valid
  rw [dumpChar]
  split_ifs with hescape hline hreturn htab hfeed hback hplain hshort
  · rcases hescape with rfl | rfl
    · exact scanChars_escape rest (by decide) (by decide)
    · exact scanChars_escape rest (by decide) (by decide)
  · exact hline ▸ scanChars_escape rest (by decide) (by decide)
  · exact hreturn ▸ scanChars_escape rest (by decide) (by decide)
  · exact htab ▸ scanChars_escape rest (by decide) (by decide)
  · exact hfeed ▸ scanChars_escape rest (by decide) (by decide)
  · exact hback ▸ scanChars_escape rest (by decide) (by decide)
  · exact scanChars_plain rest (fun h => hescape (Or.inl h)) (fun h => hescape (Or.inr h)) hplain.1
  · have hread := scanChars_unicode rest (by omega) (hscalar.imp id And.left)
    rwa [Char.ofNat_toNat] at hread
  · have hhigh : (c.toNat - 0x10000) / 0x400 < 0x400 := by omega
    have hlow : (c.toNat - 0x10000) % 0x400 < 0x400 := by omega
    have hread := scanChars_surrogates hhigh hlow rest
    have hnumber : 0x10000 + 0x400 * ((c.toNat - 0x10000) / 0x400) +
        (c.toNat - 0x10000) % 0x400 = c.toNat := by omega
    rw [hnumber, Char.ofNat_toNat] at hread
    simpa only [List.cons_append, List.append_assoc] using hread

/-- **A written text is read back.** -/
theorem scanText_dumpText (text rest : Text) :
    scanText (dumpText text ++ rest) = some (text, rest) := by
  have hletters : scanChars (text.flatMap dumpChar ++ doubleQuote :: rest) = some (text, rest) := by
    induction text with
    | nil => exact scanChars_doubleQuote rest
    | cons c text ih => rw [List.flatMap_cons, List.append_assoc, scanChars_dumpChar, ih]; rfl
  rw [dumpText, List.cons_append, List.append_assoc, List.singleton_append, scanText, if_pos rfl,
    hletters]

/-! ## Values -/

variable {L : Library ν} (hL : L.Documented)

include hL

/-- The first letter of a written number. -/
lemma exists_dumpFloat_cons {x : ν} (hx : L.isFinite x = true) :
    ∃ c text, dumpFloat L x = c :: text ∧ (c.isDigit ∨ c = '-') := by
  obtain ⟨-, l, hrepr, -⟩ := hL.finite x hx
  obtain ⟨c, text, htext, hc⟩ := l.exists_text_cons
  exact ⟨c, text, by rw [dumpFloat, if_pos hx, hrepr, htext], hc⟩

/-- A written finite number is read back. -/
lemma scanOnce_dumpFloat {x : ν} (hx : L.isFinite x = true) (fuel : ℕ) {rest : Text}
    (hrest : Stops rest) :
    scanOnce L (fuel + 1) (dumpFloat L x ++ rest) = some (.float x, rest) := by
  rw [dumpFloat, if_pos hx, FnCall.scanOnce_float hL x fuel hrest, if_pos hx]

/-- The first letter of a written value. -/
lemma exists_dumps_cons {v : Json ν} (hv : isJson L v = true) :
    ∃ c text, dumps L v = c :: text ∧ isBlank c = false ∧ c ≠ ']' := by
  have hnumber {c : Char} (hc : c.isDigit ∨ c = '-') : isBlank c = false ∧ c ≠ ']' :=
    ⟨(FnCall.number_start hc).2.1, (FnCall.number_start hc).2.2.1⟩
  cases v with
  | null => exact ⟨'n', _, rfl, by decide⟩
  | bool b => cases b <;> exact ⟨_, _, rfl, by decide⟩
  | int n =>
    obtain ⟨c, text, hcons, hc⟩ := FnCall.exists_str_cons n
    exact ⟨c, text, hcons, hnumber hc⟩
  | float x =>
    obtain ⟨c, text, hcons, hc⟩ := exists_dumpFloat_cons hL hv
    exact ⟨c, text, hcons, hnumber hc⟩
  | str s => exact ⟨doubleQuote, _, rfl, by decide⟩
  | arr items => exact ⟨'[', _, rfl, by decide⟩
  | obj entries => exact ⟨'{', _, rfl, by decide⟩

/-- A written entry is read back. -/
lemma member_dumpEntry {scan : Text → Option (Json ν × Text)} {e : String × Json ν} {rest : Text}
    (he : isJson L e.2 = true) (hvalue : scan (dumps L e.2 ++ rest) = some (e.2, rest)) :
    member scan (dumpEntry L e ++ rest) = some (e, rest) := by
  obtain ⟨c, text, hcons, hblank, -⟩ := exists_dumps_cons hL he
  have hcolon : skip (':' :: ' ' :: (dumps L e.2 ++ rest)) = ':' :: ' ' :: (dumps L e.2 ++ rest) :=
    List.dropWhile_cons_of_neg (by decide)
  have hbehind : skip (' ' :: (dumps L e.2 ++ rest)) = dumps L e.2 ++ rest := by
    rw [hcons]
    exact (List.dropWhile_cons_of_pos (by decide)).trans
      (List.dropWhile_cons_of_neg (by simp [hblank]))
  rw [member, dumpEntry, List.append_assoc, scanText_dumpText]
  simp only [List.cons_append, hcolon, if_true, hbehind, hvalue, Option.map_some, String.ofList_toList]

/-- A written value is not empty. -/
lemma exists_fuel {v : Json ν} (hv : isJson L v = true) {fuel : ℕ}
    (h : (dumps L v).length ≤ fuel) : ∃ n, fuel = n + 1 := by
  obtain ⟨c, text, hcons, -⟩ := exists_dumps_cons hL hv
  rw [hcons, List.length_cons] at h
  exact ⟨fuel - 1, by omega⟩

omit hL

/-- The items of a list of JSON. -/
lemma isJsonItems_iff (vs : List (Json ν)) :
    isJsonItems L vs = true ↔ ∀ v ∈ vs, isJson L v = true := by
  induction vs with
  | nil => simp [isJsonItems]
  | cons v vs ih => simp [isJsonItems, ih]

/-- The entries of an object of JSON. -/
lemma isJsonEntries_iff (es : List (String × Json ν)) :
    isJsonEntries L es = true ↔ ∀ e ∈ es, isJson L e.2 = true := by
  induction es with
  | nil => simp [isJsonEntries]
  | cons e es ih => simp [isJsonEntries, ih]

mutual

/-- **A written value at the beginning of a text** is read back, with any fuel that is not less than
its letters. -/
theorem scanOnce_dumps (hL : L.Documented) : ∀ v : Json ν, isJson L v = true → ∀ fuel,
    (dumps L v).length ≤ fuel → ∀ rest, Stops rest →
      scanOnce L fuel (dumps L v ++ rest) = some (v, rest)
  | .null, hv, _, hfuel, _, _ => by
    obtain ⟨fuel, rfl⟩ := exists_fuel hL hv hfuel
    rfl
  | .bool b, hv, _, hfuel, _, _ => by
    obtain ⟨fuel, rfl⟩ := exists_fuel hL hv hfuel
    cases b <;> rfl
  | .int n, hv, _, hfuel, _, hrest => by
    obtain ⟨fuel, rfl⟩ := exists_fuel hL hv hfuel
    exact FnCall.scanOnce_int L n fuel hrest
  | .float x, hv, _, hfuel, _, hrest => by
    obtain ⟨fuel, rfl⟩ := exists_fuel hL hv hfuel
    exact scanOnce_dumpFloat hL hv fuel hrest
  | .str s, hv, _, hfuel, rest, _ => by
    obtain ⟨fuel, rfl⟩ := exists_fuel hL hv hfuel
    have hscan := scanText_dumpText s.toList rest
    rw [dumpText, List.cons_append, scanText, if_pos rfl] at hscan
    rw [dumps, dumpText, List.cons_append, scanOnce, if_pos rfl, hscan, Option.map_some,
      String.ofList_toList]
  | .arr items, hv, _, hfuel, rest, _ => by
    obtain ⟨fuel, rfl⟩ := exists_fuel hL hv hfuel
    rw [isJson] at hv
    rw [dumps_arr, List.length_cons, List.length_append, List.length_singleton] at hfuel
    have hscan : ∀ v ∈ items, ∀ c rest, c = ',' ∨ c = ']' →
        scanOnce L fuel (dumps L v ++ c :: rest) = if True then some (v, c :: rest) else none := by
      intro v hmem c rest hc
      have hle := length_le_printed (dumps L) hmem
      rw [if_pos trivial]
      exact scanOnce_dumps_items hL items hv v hmem fuel (by omega) _
        (FnCall.stops_of_comma_or (Or.inl rfl) hc rest)
    have hparts : dumps L (.arr items) ++ rest =
        '[' :: (printed (dumps L) items ++ ']' :: rest) := by
      rw [dumps_arr, List.cons_append, List.append_assoc, List.singleton_append]
    have hstart := fun v hmem => exists_dumps_cons hL ((isJsonItems_iff items).mp hv v hmem)
    rw [hparts, scanOnce, if_neg (by decide), if_neg (by decide), if_pos rfl,
      sequence_printed (by decide) hstart hscan, if_pos fun _ _ => trivial]
    rfl
  | .obj entries, hv, _, hfuel, rest, _ => by
    obtain ⟨fuel, rfl⟩ := exists_fuel hL hv hfuel
    rw [isJson, Bool.and_eq_true, decide_eq_true_eq] at hv
    rw [dumps_obj, List.length_cons, List.length_append, List.length_singleton] at hfuel
    have hstart : ∀ e ∈ entries, ∃ c text, dumpEntry L e = c :: text ∧ isBlank c = false ∧
        c ≠ '}' := fun e _ => ⟨doubleQuote, _, rfl, by decide⟩
    have hscan : ∀ e ∈ entries, ∀ c rest, c = ',' ∨ c = '}' →
        member (scanOnce L fuel) (dumpEntry L e ++ c :: rest) =
          if True then some (e, c :: rest) else none := by
      intro e he c rest hc
      have hle := length_le_printed (dumpEntry L) he
      have hvalue : (dumps L e.2).length ≤ (dumpEntry L e).length := by
        rw [dumpEntry, List.length_append, List.length_cons, List.length_cons]
        omega
      rw [if_pos trivial]
      exact member_dumpEntry hL ((isJsonEntries_iff entries).mp hv.2 e he)
        (scanOnce_dumps_entries hL entries hv.2 e he fuel (by omega) _
          (FnCall.stops_of_comma_or (Or.inr rfl) hc rest))
    have hparts : dumps L (.obj entries) ++ rest =
        '{' :: (printed (dumpEntry L) entries ++ '}' :: rest) := by
      rw [dumps_obj, List.cons_append, List.append_assoc, List.singleton_append]
    rw [hparts, scanOnce, if_neg (by decide), if_pos rfl,
      sequence_printed (by decide) hstart hscan, if_pos fun _ _ => trivial, Option.map_some,
      ofPairs_of_nodup hv.1]

/-- The same for the items of a list. -/
theorem scanOnce_dumps_items (hL : L.Documented) : ∀ vs : List (Json ν), isJsonItems L vs = true →
    ∀ v ∈ vs, ∀ fuel, (dumps L v).length ≤ fuel → ∀ rest, Stops rest →
      scanOnce L fuel (dumps L v ++ rest) = some (v, rest)
  | [], _, _, hv => absurd hv List.not_mem_nil
  | v :: vs, hvs, w, hw => by
    rw [isJsonItems, Bool.and_eq_true] at hvs
    rcases List.mem_cons.mp hw with heq | hw
    · rw [heq]
      exact scanOnce_dumps hL v hvs.1
    · exact scanOnce_dumps_items hL vs hvs.2 w hw

/-- The same for the entries of an object. -/
theorem scanOnce_dumps_entries (hL : L.Documented) : ∀ es : List (String × Json ν),
    isJsonEntries L es = true → ∀ e ∈ es, ∀ fuel, (dumps L e.2).length ≤ fuel → ∀ rest,
      Stops rest → scanOnce L fuel (dumps L e.2 ++ rest) = some (e.2, rest)
  | [], _, _, he => absurd he List.not_mem_nil
  | (_, v) :: es, hes, e, he => by
    rw [isJsonEntries, Bool.and_eq_true] at hes
    rcases List.mem_cons.mp he with heq | he
    · rw [heq]
      exact scanOnce_dumps hL v hes.1
    · exact scanOnce_dumps_entries hL es hes.2 e he

end

/-- **A written value is read back.** -/
theorem loads_dumps (hL : L.Documented) {v : Json ν} (hv : isJson L v = true) :
    loads L (dumps L v) = some v := by
  obtain ⟨c, text, hcons, hblank, -⟩ := exists_dumps_cons hL hv
  have hskip : skip (dumps L v) = dumps L v := by
    rw [hcons]
    exact List.dropWhile_cons_of_neg (by simp [hblank])
  have hstops : Stops [] := fun c hc => by cases hc
  have hscan := scanOnce_dumps hL v hv _ le_rfl [] hstops
  rw [List.append_nil] at hscan
  rw [loads, hskip, hscan]
  rfl

end ProRLAgent.FreeText
