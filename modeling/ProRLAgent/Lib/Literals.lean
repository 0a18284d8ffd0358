import Mathlib.Algebra.Group.Nat.Defs
import Mathlib.Data.List.Infix
import ProRLAgent.Lib.PyText
import ProRLAgent.Lib.Search

set_option relaxedAutoImplicit false
set_option autoImplicit false

/-!
# Literals as Python prints them and as JSON has them

Python prints a text between quotes with escapes for some letters, and a number in the shortest way
that is read back. A JSON reader knows texts between double quotes, other escapes, and numbers. The
two meet in a part of the texts only: those that Python prints between double quotes, and without
an escape that JSON does not have.

A letter of a text is a Unicode scalar value, so a surrogate that is alone is not read as a letter.

## Main definitions

* `Literals.reprText` — `repr` of a text.
* `Literals.scanText`, `Literals.scanNumber` — the texts and the numbers of JSON.
* `Literals.sequence` — values between commas up to a closing bracket.
* `Literals.JsonText` — the texts that Python prints like JSON.
* `Literals.FloatLiteral` — how a finite floating-point number is printed.

## Main results

* `Literals.scanText_reprText` — a printed text is read back exactly if it is a `JsonText`.
* `Literals.infix_of_reprText` — a word in a printed text.
* `Literals.scanNumber_str`, `Literals.FloatLiteral.scanNumber_eq` — printed numbers are read.
* `Literals.sequence_printed` — printed values are read one after the other.
-/

namespace Literals

/-! ## Hexadecimal numbers -/

/-- The last `width` digits of a number, in small letters. -/
def hexText : ℕ → ℕ → List Char
  | 0, _ => []
  | width + 1, n => hexText width (n / 16) ++ [Nat.digitChar (n % 16)]

/-- The value of a hexadecimal digit. -/
def hexValue? (c : Char) : Option ℕ :=
  if 48 ≤ c.toNat ∧ c.toNat ≤ 57 then some (c.toNat - 48)
  else if 97 ≤ c.toNat ∧ c.toNat ≤ 102 then some (c.toNat - 87)
  else if 65 ≤ c.toNat ∧ c.toNat ≤ 70 then some (c.toNat - 55)
  else none

/-- A number from its hexadecimal digits. -/
def hexNumber? (digits : List Char) : Option ℕ :=
  digits.foldlM (fun n c => (hexValue? c).map (16 * n + ·)) 0

/-- A digit is read back. -/
lemma hexValue?_digitChar {d : ℕ} (h : d < 16) : hexValue? (Nat.digitChar d) = some d := by
  have hall : ∀ d : Fin 16, hexValue? (Nat.digitChar d) = some d.val := by decide
  exact hall ⟨d, h⟩

/-- **Hexadecimal digits are read back** as far as they are written. -/
theorem hexNumber?_hexText (width n : ℕ) : hexNumber? (hexText width n) = some (n % 16 ^ width) := by
  induction width generalizing n with
  | zero => rw [Nat.pow_zero, Nat.mod_one]; rfl
  | succ width ih =>
    have hdigit := hexValue?_digitChar (Nat.mod_lt n (by decide : 16 > 0))
    have hmod : 16 * (n / 16 % 16 ^ width) + n % 16 = n % 16 ^ (width + 1) := by
      rw [Nat.pow_succ', Nat.mod_mul]
      omega
    simp only [hexNumber?] at ih
    simp only [hexText, hexNumber?, List.foldlM_append, ih, List.foldlM_cons, List.foldlM_nil,
      hdigit, Option.map_some, hmod, Option.bind_eq_bind, Option.bind_some]
    rfl

/-- A letter of a hexadecimal number. -/
lemma exists_of_mem_hexText {width n : ℕ} {c : Char} (h : c ∈ hexText width n) :
    ∃ d < 16, c = Nat.digitChar d := by
  induction width generalizing n with
  | zero => cases h
  | succ width ih =>
    rcases List.mem_append.mp h with h | h
    · exact ih h
    · exact ⟨n % 16, Nat.mod_lt n (by decide), List.mem_singleton.mp h⟩

/-! ## Printed texts -/

/-- The single quote. -/
def quote : Char := '\x27'

/-- The double quote. -/
def doubleQuote : Char := '\x22'

/-- The backslash. -/
def backslash : Char := '\x5c'

section Repr

variable (isPrintable : Char → Bool)

/-- A letter in a printed text: quotes of the kind around the text, backslashes and letters that
are not printable are escaped. -/
def reprChar (around c : Char) : List Char :=
  if c = around ∨ c = backslash then [backslash, c]
  else if c = '\t' then [backslash, 't']
  else if c = '\n' then [backslash, 'n']
  else if c = '\r' then [backslash, 'r']
  else if c.toNat < 0x20 ∨ c.toNat = 0x7f then backslash :: 'x' :: hexText 2 c.toNat
  else if c.toNat < 0x7f ∨ isPrintable c then [c]
  else if c.toNat ≤ 0xff then backslash :: 'x' :: hexText 2 c.toNat
  else if c.toNat ≤ 0xffff then backslash :: 'u' :: hexText 4 c.toNat
  else backslash :: 'U' :: hexText 8 c.toNat

/-- The quotes around a text: double ones if it has single ones only. -/
def quotesOf (text : List Char) : Char :=
  if quote ∈ text ∧ doubleQuote ∉ text then doubleQuote else quote

/-- **`repr(text)`.** -/
def reprText (text : List Char) : List Char :=
  quotesOf text :: (text.flatMap (reprChar isPrintable (quotesOf text)) ++ [quotesOf text])

end Repr

/-! ## The texts of JSON -/

/-- The letter for an escape of one letter. -/
def escaped? (c : Char) : Option Char :=
  if c = doubleQuote ∨ c = backslash ∨ c = '/' then some c
  else if c = 'b' then some '\x08'
  else if c = 'f' then some '\x0c'
  else if c = 'n' then some '\n'
  else if c = 'r' then some '\r'
  else if c = 't' then some '\t'
  else none

/-- A letter before what is read behind it. -/
def push (c : Char) (result : Option (List Char × List Char)) : Option (List Char × List Char) :=
  result.map fun parts => (c :: parts.1, parts.2)

/-- **A JSON text behind its opening quote**: its letters, and what stands behind the closing
quote. Control letters are not allowed, and two surrogates make one letter. -/
def scanChars : List Char → Option (List Char × List Char)
  | [] => none
  | c :: text =>
    if c = doubleQuote then some ([], text)
    else if c = backslash then
      match text with
      | [] => none
      | e :: text =>
        if e = 'u' then
          match text with
          | h₁ :: h₂ :: h₃ :: h₄ :: text =>
            match hexNumber? [h₁, h₂, h₃, h₄] with
            | none => none
            | some n =>
              if 0xd800 ≤ n ∧ n ≤ 0xdbff then
                match text with
                | b :: u :: l₁ :: l₂ :: l₃ :: l₄ :: text =>
                  if b = backslash ∧ u = 'u' then
                    match hexNumber? [l₁, l₂, l₃, l₄] with
                    | none => none
                    | some m =>
                      if 0xdc00 ≤ m ∧ m ≤ 0xdfff then
                        push (Char.ofNat (0x10000 + 0x400 * (n - 0xd800) + (m - 0xdc00)))
                          (scanChars text)
                      else none
                  else none
                | _ => none
              else if 0xdc00 ≤ n ∧ n ≤ 0xdfff then none
              else push (Char.ofNat n) (scanChars text)
          | _ => none
        else
          match escaped? e with
          | none => none
          | some d => push d (scanChars text)
    else if c.toNat < 0x20 then none
    else push c (scanChars text)

/-- **A JSON text.** -/
def scanText : List Char → Option (List Char × List Char)
  | [] => none
  | c :: text => if c = doubleQuote then scanChars text else none

-- The equations of these functions are generated here, not in each proof that unfolds them.
section

attribute [local simp] escaped? scanChars scanText

end

section JsonText

variable (isPrintable : Char → Bool)

/-- The letters that Python prints like JSON. -/
def JsonChar (c : Char) : Prop :=
  c = '\t' ∨ c = '\n' ∨ c = '\r' ∨ 0x20 ≤ c.toNat ∧ c.toNat < 0x7f ∨
    0x7f < c.toNat ∧ (isPrintable c ∨ 0xff < c.toNat ∧ c.toNat ≤ 0xffff)

instance (c : Char) : Decidable (JsonChar isPrintable c) :=
  inferInstanceAs (Decidable (_ ∨ _))

/-- **The texts that Python prints like JSON**: with a single quote, which makes Python print double
ones around the text, without a double quote, and with letters that are printed like JSON. -/
def JsonText (text : List Char) : Prop :=
  quote ∈ text ∧ doubleQuote ∉ text ∧ ∀ c ∈ text, JsonChar isPrintable c

instance (text : List Char) : Decidable (JsonText isPrintable text) :=
  decidable_of_iff (quote ∈ text ∧ doubleQuote ∉ text ∧
    (text.all fun c => decide (JsonChar isPrintable c)) = true) (by simp [JsonText])

end JsonText

/-! ## Printed texts are read back -/

section Steps

/-- The backslash is not a quote. -/
lemma backslash_ne : backslash ≠ doubleQuote := by decide

variable {c d e : Char} (rest : List Char)

/-- The closing quote. -/
lemma scanChars_doubleQuote : scanChars (doubleQuote :: rest) = some ([], rest) := by
  rw [scanChars.eq_def]
  exact if_pos rfl

/-- A letter without an escape. -/
lemma scanChars_plain (hquote : c ≠ doubleQuote) (hslash : c ≠ backslash) (h : 0x20 ≤ c.toNat) :
    scanChars (c :: rest) = push c (scanChars rest) := by
  rw [scanChars.eq_def]
  simp only [if_neg hquote, if_neg hslash, if_neg (Nat.not_lt.mpr h)]

/-- An escape of one letter. -/
lemma scanChars_escape (he : e ≠ 'u') (h : escaped? e = some d) :
    scanChars (backslash :: e :: rest) = push d (scanChars rest) := by
  rw [scanChars.eq_def]
  simp only [if_neg backslash_ne, if_true, if_neg he, h]

/-- An escape that JSON does not have. -/
lemma scanChars_escape_none (he : e ≠ 'u') (h : escaped? e = none) :
    scanChars (backslash :: e :: rest) = none := by
  rw [scanChars.eq_def]
  simp only [if_neg backslash_ne, if_true, if_neg he, h]

/-- An escape of four digits that is not a surrogate. -/
lemma scanChars_unicode {n : ℕ} (hn : n ≤ 0xffff) (hscalar : n < 0xd800 ∨ 0xdfff < n) :
    scanChars (backslash :: 'u' :: (hexText 4 n ++ rest)) = push (Char.ofNat n) (scanChars rest) := by
  have hnumber : hexNumber? (hexText 4 n) = some n := by
    rw [hexNumber?_hexText, Nat.mod_eq_of_lt (by omega)]
  have hhigh : ¬ (0xd800 ≤ n ∧ n ≤ 0xdbff) := by omega
  have hlow : ¬ (0xdc00 ≤ n ∧ n ≤ 0xdfff) := by omega
  simp only [hexText, List.nil_append, List.cons_append] at hnumber ⊢
  rw [scanChars.eq_def]
  simp only [if_neg backslash_ne, if_true, hnumber, if_neg hhigh, if_neg hlow]

end Steps

section Read

variable {isPrintable : Char → Bool} {c : Char}

/-- A letter that is printed like JSON is read back. -/
lemma scanChars_reprChar (hquote : c ≠ doubleQuote) (h : JsonChar isPrintable c)
    (rest : List Char) :
    scanChars (reprChar isPrintable doubleQuote c ++ rest) = push c (scanChars rest) := by
  have hscalar : c.toNat < 0xd800 ∨ 0xdfff < c.toNat := c.valid.imp id And.left
  rw [reprChar]
  split_ifs with hescape htab hline hreturn hcontrol hplain hshort hlong
  · obtain rfl := hescape.resolve_left hquote
    exact scanChars_escape rest (by decide) (by decide)
  · exact htab ▸ scanChars_escape rest (by decide) (by decide)
  · exact hline ▸ scanChars_escape rest (by decide) (by decide)
  · exact hreturn ▸ scanChars_escape rest (by decide) (by decide)
  · rcases h with h | h | h | h | h
    · exact absurd h htab
    · exact absurd h hline
    · exact absurd h hreturn
    · omega
    · omega
  · have hslash : c ≠ backslash := fun heq => hescape (Or.inr heq)
    exact scanChars_plain rest hquote hslash (by omega)
  · rcases h with h | h | h | h | h
    · exact absurd h htab
    · exact absurd h hline
    · exact absurd h hreturn
    · omega
    · rcases h.2 with hprint | hrange
      · exact absurd (Or.inr hprint) hplain
      · omega
  · have hread := scanChars_unicode rest hlong hscalar
    rwa [Char.ofNat_toNat] at hread
  · rcases h with h | h | h | h | h
    · exact absurd h htab
    · exact absurd h hline
    · exact absurd h hreturn
    · omega
    · rcases h.2 with hprint | hrange
      · exact absurd (Or.inr hprint) hplain
      · omega

/-- Another letter is not read. -/
lemma scanChars_reprChar_none (hquote : c ≠ doubleQuote) (h : ¬ JsonChar isPrintable c)
    (rest : List Char) : scanChars (reprChar isPrintable doubleQuote c ++ rest) = none := by
  have hx : escaped? 'x' = none := by decide
  have hU : escaped? 'U' = none := by decide
  simp only [JsonChar, not_or] at h
  obtain ⟨htab, hline, hreturn, hplain, hwide⟩ := h
  rw [reprChar]
  split_ifs with hescape hcontrol hprint hshort hlong
  · obtain rfl := hescape.resolve_left hquote
    exact absurd (by decide) hplain
  · exact scanChars_escape_none _ (by decide) hx
  · rcases hprint with hascii | hprint
    · omega
    · exact absurd ⟨by omega, Or.inl hprint⟩ hwide
  · exact scanChars_escape_none _ (by decide) hx
  · exact absurd ⟨by omega, Or.inr ⟨by omega, hlong⟩⟩ hwide
  · exact scanChars_escape_none _ (by decide) hU

/-- The letters of a text between double quotes. -/
lemma scanChars_flatMap {text : List Char} (hquote : doubleQuote ∉ text) (rest : List Char) :
    scanChars (text.flatMap (reprChar isPrintable doubleQuote) ++ doubleQuote :: rest) =
      if text.all fun c => decide (JsonChar isPrintable c) then some (text, rest) else none := by
  induction text with
  | nil => exact scanChars_doubleQuote rest
  | cons c text ih =>
    obtain ⟨hc, hquote⟩ := not_or.mp (mt List.mem_cons.mpr hquote)
    rw [List.flatMap_cons, List.append_assoc]
    by_cases hchar : JsonChar isPrintable c
    · simp only [scanChars_reprChar (Ne.symm hc) hchar, ih hquote, List.all_cons, hchar,
        decide_true, Bool.true_and]
      split_ifs <;> rfl
    · simp only [scanChars_reprChar_none (Ne.symm hc) hchar, List.all_cons, hchar, decide_false,
        Bool.false_and, Bool.false_eq_true, if_false]

/-- **A printed text is read back** exactly if it is printed like JSON. -/
theorem scanText_reprText (isPrintable : Char → Bool) (text rest : List Char) :
    scanText (reprText isPrintable text ++ rest) =
      if JsonText isPrintable text then some (text, rest) else none := by
  have hparts : reprText isPrintable text ++ rest = quotesOf text ::
      (text.flatMap (reprChar isPrintable (quotesOf text)) ++ quotesOf text :: rest) := by
    simp only [reprText, List.cons_append, List.append_assoc, List.nil_append]
  rw [hparts, scanText]
  by_cases hquotes : quote ∈ text ∧ doubleQuote ∉ text
  · have heq : quotesOf text = doubleQuote := if_pos hquotes
    rw [heq, if_pos rfl, scanChars_flatMap hquotes.2]
    simp only [JsonText, hquotes.1, hquotes.2, not_false_eq_true, true_and, List.all_eq_true,
      decide_eq_true_eq]
  · have heq : quotesOf text = quote := if_neg hquotes
    rw [heq, if_neg (by decide), if_neg fun h => hquotes ⟨h.1, h.2.1⟩]

end Read

/-! ## Words in printed texts -/

/-- The letters of escapes, and the quotes. -/
def escapeLetters : List Char :=
  quote :: doubleQuote :: backslash :: "tnrxuU0123456789abcdef".toList

section Words

variable {isPrintable : Char → Bool} {around : Char}

/-- A hexadecimal digit is a letter of an escape. -/
lemma digitChar_mem_escapeLetters {d : ℕ} (h : d < 16) : Nat.digitChar d ∈ escapeLetters := by
  have hall : ∀ d : Fin 16, Nat.digitChar d ∈ escapeLetters := by decide
  exact hall ⟨d, h⟩

/-- A letter is printed as it is, or as an escape. -/
lemma reprChar_cases (isPrintable : Char → Bool) (haround : around ∈ escapeLetters) (c : Char) :
    reprChar isPrintable around c = [c] ∨ ∃ escape, reprChar isPrintable around c =
      backslash :: escape ∧ ∀ a ∈ escape, a ∈ escapeLetters := by
  have hhex (kind : Char) (hkind : kind ∈ escapeLetters) (width n : ℕ) :
      ∀ a ∈ kind :: hexText width n, a ∈ escapeLetters := by
    intro a ha
    rcases List.mem_cons.mp ha with rfl | ha
    · exact hkind
    · obtain ⟨d, hd, rfl⟩ := exists_of_mem_hexText ha
      exact digitChar_mem_escapeLetters hd
  rw [reprChar]
  split_ifs with hescape htab hline hreturn hcontrol hplain hshort hlong
  · refine Or.inr ⟨[c], rfl, fun a ha => ?_⟩
    obtain rfl := List.mem_singleton.mp ha
    rcases hescape with rfl | rfl
    · exact haround
    · decide
  · exact Or.inr ⟨['t'], rfl, List.forall_mem_singleton.mpr (by decide)⟩
  · exact Or.inr ⟨['n'], rfl, List.forall_mem_singleton.mpr (by decide)⟩
  · exact Or.inr ⟨['r'], rfl, List.forall_mem_singleton.mpr (by decide)⟩
  · exact Or.inr ⟨_, rfl, hhex 'x' (by decide) 2 _⟩
  · exact Or.inl rfl
  · exact Or.inr ⟨_, rfl, hhex 'x' (by decide) 2 _⟩
  · exact Or.inr ⟨_, rfl, hhex 'u' (by decide) 4 _⟩
  · exact Or.inr ⟨_, rfl, hhex 'U' (by decide) 8 _⟩

/-- The quotes around a text. -/
lemma quotesOf_cases (text : List Char) : quotesOf text = quote ∨ quotesOf text = doubleQuote := by
  rw [quotesOf]
  split_ifs
  · exact Or.inr rfl
  · exact Or.inl rfl

/-- A word without backslashes and quotes at the beginning of printed letters. -/
lemma prefix_of_flatMap (haround : around ∈ escapeLetters) {u text rest : List Char}
    (hu : ∀ c ∈ u, c ≠ backslash ∧ c ≠ around)
    (h : u <+: text.flatMap (reprChar isPrintable around) ++ around :: rest) : u <+: text := by
  induction text generalizing u with
  | nil =>
    cases u with
    | nil => exact List.nil_prefix
    | cons c u => exact absurd (List.cons_prefix_cons.mp h).1 (hu c (by simp)).2
  | cons c text ih =>
    cases u with
    | nil => exact List.nil_prefix
    | cons d u =>
      obtain ⟨hd, hu⟩ := List.forall_mem_cons.mp hu
      rw [List.flatMap_cons] at h
      rcases reprChar_cases isPrintable haround c with heq | ⟨escape, heq, -⟩
      · rw [heq] at h
        obtain ⟨rfl, htail⟩ := List.cons_prefix_cons.mp h
        exact List.cons_prefix_cons.mpr ⟨rfl, ih hu htail⟩
      · rw [heq] at h
        exact absurd (List.cons_prefix_cons.mp h).1 hd.1

/-- A word in printed letters and what stands behind the closing quote. -/
lemma infix_of_flatMap (haround : around ∈ escapeLetters) {a : Char} {u text rest : List Char}
    (ha : a ∉ escapeLetters) (hu : ∀ c ∈ u, c ≠ backslash ∧ c ≠ around)
    (h : a :: u <:+: text.flatMap (reprChar isPrintable around) ++ around :: rest) :
    a :: u <:+: text ∨ a :: u <:+: rest := by
  induction text with
  | nil =>
    refine Or.inr ((List.infix_cons_iff.mp h).resolve_left fun hhead => ?_)
    exact ha ((List.cons_prefix_cons.mp hhead).1 ▸ haround)
  | cons c text ih =>
    have hlater : a :: u <:+: text.flatMap (reprChar isPrintable around) ++ around :: rest →
        a :: u <:+: c :: text ∨ a :: u <:+: rest := fun hocc =>
      (ih hocc).imp_left fun hin => hin.trans (List.suffix_cons c text).isInfix
    rw [List.flatMap_cons, List.append_assoc] at h
    rcases reprChar_cases isPrintable haround c with heq | ⟨escape, heq, hescape⟩
    · rw [heq, List.singleton_append, List.infix_cons_iff] at h
      rcases h with hhead | hocc
      · obtain ⟨rfl, htail⟩ := List.cons_prefix_cons.mp hhead
        exact Or.inl (List.cons_prefix_cons.mpr ⟨rfl, prefix_of_flatMap haround hu htail⟩).isInfix
      · exact hlater hocc
    · have hnotMem : a ∉ backslash :: escape := by
        intro hmem
        rcases List.mem_cons.mp hmem with rfl | hmem
        · exact ha (by decide)
        · exact ha (hescape a hmem)
      rw [heq, Search.infix_append_iff_of_notMem hnotMem] at h
      exact hlater h

/-- **A word in a printed text** and what stands behind it is in the text or behind, if its first
letter is in no escape, and the others are no backslashes and quotes. -/
theorem infix_of_reprText {a : Char} {u text rest : List Char} (ha : a ∉ escapeLetters)
    (hu : ∀ c ∈ u, c ≠ backslash ∧ c ≠ quote ∧ c ≠ doubleQuote)
    (h : a :: u <:+: reprText isPrintable text ++ rest) : a :: u <:+: text ∨ a :: u <:+: rest := by
  have haround : quotesOf text ∈ escapeLetters := by
    rcases quotesOf_cases text with heq | heq <;> rw [heq] <;> decide
  have hquotes : ∀ c ∈ u, c ≠ backslash ∧ c ≠ quotesOf text := by
    intro c hc
    rcases quotesOf_cases text with heq | heq <;> rw [heq]
    · exact ⟨(hu c hc).1, (hu c hc).2.1⟩
    · exact ⟨(hu c hc).1, (hu c hc).2.2⟩
  have hparts : reprText isPrintable text ++ rest = quotesOf text ::
      (text.flatMap (reprChar isPrintable (quotesOf text)) ++ quotesOf text :: rest) := by
    simp only [reprText, List.cons_append, List.append_assoc, List.nil_append]
  rw [hparts, List.infix_cons_iff] at h
  rcases h with hhead | hocc
  · exact absurd ((List.cons_prefix_cons.mp hhead).1 ▸ haround) ha
  · exact infix_of_flatMap haround ha hquotes hocc

end Words

/-! ## Numbers -/

/-- The digits at the beginning of a text, and the rest. -/
def scanDigits (text : List Char) : List Char × List Char :=
  (text.takeWhile Char.isDigit, text.dropWhile Char.isDigit)

/-- A whole number: no digit stands behind a zero at its beginning. -/
def scanWhole : List Char → Option (List Char × List Char)
  | [] => none
  | c :: text =>
    if c = '0' then some ([c], text)
    else if c.isDigit then some (scanDigits (c :: text))
    else none

/-- A whole number with its sign. -/
def scanInteger : List Char → Option (List Char × List Char)
  | [] => none
  | c :: text =>
    if c = '-' then (scanWhole text).map fun parts => (c :: parts.1, parts.2)
    else scanWhole (c :: text)

/-- The digits behind a point, if there are any. -/
def scanFraction : List Char → List Char × List Char
  | [] => ([], [])
  | c :: text =>
    if c = '.' ∧ (scanDigits text).1 ≠ [] then (c :: (scanDigits text).1, (scanDigits text).2)
    else ([], c :: text)

/-- A sign at the beginning of a text, and the rest. -/
def scanSign : List Char → List Char × List Char
  | [] => ([], [])
  | c :: text => if c = '+' ∨ c = '-' then ([c], text) else ([], c :: text)

/-- An exponent, if there is one. -/
def scanExponent : List Char → List Char × List Char
  | [] => ([], [])
  | c :: text =>
    let digits := scanDigits (scanSign text).2
    if (c = 'e' ∨ c = 'E') ∧ digits.1 ≠ [] then
      (c :: ((scanSign text).1 ++ digits.1), digits.2)
    else ([], c :: text)

/-- **A JSON number**: the whole number, the fraction and the exponent, and the rest. -/
def scanNumber (text : List Char) :
    Option ((List Char × List Char × List Char) × List Char) :=
  (scanInteger text).map fun whole =>
    let fraction := scanFraction whole.2
    let exponent := scanExponent fraction.2
    ((whole.1, fraction.1, exponent.1), exponent.2)

section

attribute [local simp] scanWhole scanInteger scanFraction scanSign scanExponent

end

/-- Behind the number nothing stands that could belong to it. -/
def Stops (rest : List Char) : Prop :=
  ∀ c ∈ rest.head?, c.isDigit = false ∧ c ≠ '.' ∧ c ≠ 'e' ∧ c ≠ 'E'

/-- The digits of a whole number. -/
structure WholeDigits (digits : List Char) : Prop where
  ne_nil : digits ≠ []
  isDigit : ∀ c ∈ digits, c.isDigit
  zero : digits.head? = some '0' → digits = ['0']

/-- **How a finite floating-point number is printed**: with a fraction or an exponent. -/
structure FloatLiteral where
  isNegative : Bool
  whole : List Char
  fraction : List Char
  exponent : Option (Bool × List Char)
  whole_digits : WholeDigits whole
  fraction_digits : ∀ c ∈ fraction, c.isDigit
  exponent_digits : ∀ e ∈ exponent, e.2 ≠ [] ∧ ∀ c ∈ e.2, c.isDigit
  float : fraction ≠ [] ∨ exponent.isSome

/-- The fraction in a printed number. -/
def FloatLiteral.fractionText (l : FloatLiteral) : List Char :=
  if l.fraction = [] then [] else '.' :: l.fraction

/-- The exponent in a printed number. -/
def FloatLiteral.exponentText (l : FloatLiteral) : List Char :=
  match l.exponent with
  | none => []
  | some (isNegative, digits) => 'e' :: (if isNegative then '-' else '+') :: digits

/-- The printed number. -/
def FloatLiteral.text (l : FloatLiteral) : List Char :=
  (if l.isNegative then '-' :: l.whole else l.whole) ++ (l.fractionText ++ l.exponentText)

section Numbers

variable {digits rest : List Char}

/-- Digits are read up to something else. -/
lemma scanDigits_append (hdigits : ∀ c ∈ digits, c.isDigit)
    (hrest : ∀ c ∈ rest.head?, c.isDigit = false) : scanDigits (digits ++ rest) = (digits, rest) := by
  have htake : rest.takeWhile Char.isDigit = [] := by
    cases rest with
    | nil => rfl
    | cons c rest => exact List.takeWhile_cons_of_neg (by simp [hrest c rfl])
  have hdrop : rest.dropWhile Char.isDigit = rest := by
    cases rest with
    | nil => rfl
    | cons c rest => exact List.dropWhile_cons_of_neg (by simp [hrest c rfl])
  rw [scanDigits, List.takeWhile_append_of_pos hdigits, List.dropWhile_append_of_pos hdigits, htake,
    hdrop, List.append_nil]

/-- A whole number is read. -/
lemma scanWhole_append (h : WholeDigits digits) (hrest : ∀ c ∈ rest.head?, c.isDigit = false) :
    scanWhole (digits ++ rest) = some (digits, rest) := by
  obtain ⟨c, text, rfl⟩ := List.exists_cons_of_ne_nil h.ne_nil
  by_cases hzero : c = '0'
  · subst hzero
    obtain rfl := (List.cons.inj (h.zero rfl)).2
    rfl
  · have hdigit : c.isDigit := h.isDigit c (by simp)
    rw [List.cons_append, scanWhole, if_neg hzero, if_pos hdigit, ← List.cons_append,
      scanDigits_append h.isDigit hrest]

/-- A whole number with a sign is read. -/
lemma scanInteger_append (isNegative : Bool) (h : WholeDigits digits)
    (hrest : ∀ c ∈ rest.head?, c.isDigit = false) :
    scanInteger ((if isNegative then '-' :: digits else digits) ++ rest) =
      some (if isNegative then '-' :: digits else digits, rest) := by
  cases isNegative with
  | true =>
    simp only [if_true, List.cons_append, scanInteger, scanWhole_append h hrest]
    rfl
  | false =>
    obtain ⟨c, text, hcons⟩ := List.exists_cons_of_ne_nil h.ne_nil
    have hminus : c ≠ '-' := by
      rintro rfl
      exact absurd (h.isDigit '-' (by simp [hcons])) (by decide)
    have hscan := scanWhole_append h hrest
    rw [hcons, List.cons_append] at hscan
    simp only [Bool.false_eq_true, if_false, hcons, List.cons_append, scanInteger, if_neg hminus,
      hscan]

/-- No digit stands behind the number. -/
lemma Stops.not_isDigit (h : Stops rest) : ∀ c ∈ rest.head?, c.isDigit = false :=
  fun c hc => (h c hc).1

/-- No fraction stands behind the number. -/
lemma Stops.scanFraction_eq (h : Stops rest) : scanFraction rest = ([], rest) := by
  cases rest with
  | nil => rfl
  | cons c rest => exact if_neg fun hpoint => (h c rfl).2.1 hpoint.1

/-- No exponent stands behind the number. -/
lemma Stops.scanExponent_eq (h : Stops rest) : scanExponent rest = ([], rest) := by
  cases rest with
  | nil => rfl
  | cons c rest =>
    exact if_neg fun hletter => hletter.1.elim (h c rfl).2.2.1 (h c rfl).2.2.2

/-- The fraction of a printed number is read. -/
lemma FloatLiteral.scanFraction_eq (l : FloatLiteral)
    (hrest : ∀ c ∈ rest.head?, c.isDigit = false ∧ c ≠ '.') :
    scanFraction (l.fractionText ++ rest) = (l.fractionText, rest) := by
  rw [fractionText]
  split_ifs with hempty
  · cases rest with
    | nil => rfl
    | cons c rest => exact if_neg fun hpoint => (hrest c rfl).2 hpoint.1
  · have hscan := scanDigits_append l.fraction_digits fun c hc => (hrest c hc).1
    rw [List.cons_append, scanFraction, hscan, if_pos ⟨rfl, hempty⟩]

/-- The exponent of a printed number is read. -/
lemma FloatLiteral.scanExponent_eq (l : FloatLiteral) (hrest : Stops rest) :
    scanExponent (l.exponentText ++ rest) = (l.exponentText, rest) := by
  rw [exponentText]
  cases hexponent : l.exponent with
  | none => exact hrest.scanExponent_eq
  | some e =>
    obtain ⟨isNegative, digits⟩ := e
    obtain ⟨hne, hdigits⟩ := l.exponent_digits _ hexponent
    have hsign : scanSign ((if isNegative then '-' else '+') :: (digits ++ rest)) =
        ([if isNegative then '-' else '+'], digits ++ rest) := by
      cases isNegative <;> rfl
    have hscan := scanDigits_append hdigits hrest.not_isDigit
    simp only [List.cons_append, scanExponent, hsign, hscan, true_or, ne_eq, hne,
      not_false_eq_true, and_self, if_true, List.nil_append]

/-- What stands behind the whole part of a printed number. -/
lemma FloatLiteral.head?_exponentText (l : FloatLiteral) (hrest : Stops rest) :
    ∀ c ∈ (l.exponentText ++ rest).head?, c.isDigit = false ∧ c ≠ '.' := by
  intro c hc
  rw [exponentText] at hc
  cases hexponent : l.exponent with
  | none =>
    rw [hexponent] at hc
    exact ⟨(hrest c hc).1, (hrest c hc).2.1⟩
  | some e =>
    rw [hexponent] at hc
    obtain rfl : 'e' = c := Option.some.inj hc
    decide

/-- **A printed floating-point number is read** as one. -/
theorem FloatLiteral.scanNumber_eq (l : FloatLiteral) (hrest : Stops rest) :
    ∃ whole fraction exponent,
      scanNumber (l.text ++ rest) = some ((whole, fraction, exponent), rest) ∧
        whole ++ (fraction ++ exponent) = l.text ∧ ¬ (fraction = [] ∧ exponent = []) := by
  have hbehind := l.head?_exponentText hrest
  have hfraction : ∀ c ∈ (l.fractionText ++ (l.exponentText ++ rest)).head?,
      c.isDigit = false := by
    intro c hc
    by_cases hempty : l.fraction = []
    · rw [fractionText, if_pos hempty] at hc
      exact (hbehind c hc).1
    · rw [fractionText, if_neg hempty] at hc
      obtain rfl : '.' = c := Option.some.inj hc
      decide
  have hwhole := scanInteger_append l.isNegative l.whole_digits hfraction
  refine ⟨_, l.fractionText, l.exponentText, ?_, rfl, ?_⟩
  · rw [text, List.append_assoc, List.append_assoc, scanNumber, hwhole]
    simp only [Option.map_some, l.scanFraction_eq hbehind, l.scanExponent_eq hrest]
  · rintro ⟨hnoFraction, hnoExponent⟩
    rcases l.float with hne | hsome
    · rw [fractionText, if_neg hne] at hnoFraction
      cases hnoFraction
    · obtain ⟨e, he⟩ := Option.isSome_iff_exists.mp hsome
      rw [exponentText, he] at hnoExponent
      cases hnoExponent

/-- The first letter of a printed floating-point number. -/
lemma FloatLiteral.exists_text_cons (l : FloatLiteral) :
    ∃ c text, l.text = c :: text ∧ (c.isDigit ∨ c = '-') := by
  rw [text]
  cases l.isNegative with
  | true => exact ⟨'-', _, rfl, Or.inr rfl⟩
  | false =>
    obtain ⟨c, digits, hcons⟩ := List.exists_cons_of_ne_nil l.whole_digits.ne_nil
    refine ⟨c, digits ++ (l.fractionText ++ l.exponentText), by rw [hcons]; rfl, Or.inl ?_⟩
    exact l.whole_digits.isDigit c (by simp [hcons])

/-- The letters of a printed floating-point number. -/
lemma FloatLiteral.isDigit_or_mem (l : FloatLiteral) {c : Char} (h : c ∈ l.text) :
    c.isDigit ∨ c ∈ ['-', '.', 'e', '+'] := by
  have hwhole : c ∈ l.whole → c.isDigit ∨ c ∈ ['-', '.', 'e', '+'] := fun hc =>
    Or.inl (l.whole_digits.isDigit c hc)
  have hexponent : c ∈ l.exponentText → c.isDigit ∨ c ∈ ['-', '.', 'e', '+'] := by
    intro hc
    rw [exponentText] at hc
    split at hc
    · cases hc
    · next isNegative digits heq =>
      rcases List.mem_cons.mp hc with rfl | hc
      · decide
      · rcases List.mem_cons.mp hc with rfl | hc
        · cases isNegative <;> decide
        · exact Or.inl ((l.exponent_digits _ heq).2 c hc)
  have hfraction : c ∈ l.fractionText → c.isDigit ∨ c ∈ ['-', '.', 'e', '+'] := by
    intro hc
    rw [fractionText] at hc
    split_ifs at hc
    · cases hc
    · rcases List.mem_cons.mp hc with rfl | hc
      · decide
      · exact Or.inl (l.fraction_digits c hc)
  rcases List.mem_append.mp h with hc | hc
  · split_ifs at hc
    · rcases List.mem_cons.mp hc with rfl | hc
      · decide
      · exact hwhole hc
    · exact hwhole hc
  · exact (List.mem_append.mp hc).elim hfraction hexponent

/-- The digits of a positive number do not begin with a zero. -/
lemma head?_toDigits {n : ℕ} (h : 0 < n) : (Nat.toDigits 10 n).head? ≠ some '0' := by
  induction n using Nat.strong_induction_on with
  | _ n ih =>
    by_cases hsmall : n < 10
    · rw [Nat.toDigits_of_lt_base hsmall]
      have hall : ∀ d : Fin 10, 0 < d.val → [Nat.digitChar d].head? ≠ some '0' := by decide
      exact hall ⟨n, hsmall⟩ h
    · rw [Nat.toDigits_of_base_le (by decide) (Nat.not_lt.mp hsmall)]
      rw [List.head?_append_of_ne_nil _ Nat.toDigits_ne_nil]
      exact ih (n / 10) (by omega) (by omega)

/-- The digits of a number. -/
lemma wholeDigits_toDigits (n : ℕ) : WholeDigits (Nat.toDigits 10 n) where
  ne_nil := Nat.toDigits_ne_nil
  isDigit := PyText.isDigit_of_mem_toDigits
  zero h := by
    cases n with
    | zero => rfl
    | succ n => exact absurd h (head?_toDigits (Nat.succ_pos n))

/-- **A printed integer is read** as one. -/
theorem scanNumber_str (n : ℤ) (hrest : Stops rest) :
    scanNumber (PyText.str n ++ rest) = some ((PyText.str n, [], []), rest) := by
  have hread : scanInteger (PyText.str n ++ rest) = some (PyText.str n, rest) := by
    cases n with
    | ofNat n => exact scanInteger_append false (wholeDigits_toDigits n) hrest.not_isDigit
    | negSucc n => exact scanInteger_append true (wholeDigits_toDigits (n + 1)) hrest.not_isDigit
  rw [scanNumber, hread]
  simp only [Option.map_some, hrest.scanFraction_eq, hrest.scanExponent_eq]

end Numbers

/-! ## Values between commas -/

/-- The white space of JSON. -/
def isBlank (c : Char) : Bool := c = ' ' ∨ c = '\t' ∨ c = '\n' ∨ c = '\r'

/-- A text without the white space at its beginning. -/
def skip (text : List Char) : List Char := text.dropWhile isBlank

section Sequence

variable {β : Type}

section Scan

variable (scan : List Char → Option (β × List Char)) (close : Char)

/-- One or more values between commas up to a closing bracket, not more than `fuel`. -/
def items : ℕ → List Char → Option (List β × List Char)
  | 0, _ => none
  | fuel + 1, text =>
    match scan text with
    | none => none
    | some (b, rest) =>
      match skip rest with
      | [] => none
      | c :: rest =>
        if c = ',' then (items fuel (skip rest)).map fun found => (b :: found.1, found.2)
        else if c = close then some ([b], rest)
        else none

/-- **Values between commas** up to a closing bracket. A text has not more values than letters. -/
def sequence (text : List Char) : Option (List β × List Char) :=
  match skip text with
  | [] => none
  | c :: rest => if c = close then some ([], rest) else items scan close text.length (c :: rest)

end Scan

/-- Values printed with a comma and a blank between them. -/
def printed (f : β → List Char) : List β → List Char
  | [] => []
  | [b] => f b
  | b :: d :: bs => f b ++ ',' :: ' ' :: printed f (d :: bs)

section

attribute [local simp] items printed

end

/-- Printed values begin like the first one. -/
lemma exists_printed_cons {f : β → List Char} {b : β} {c : Char} {text : List Char}
    (h : f b = c :: text) (bs : List β) : ∃ rest, printed f (b :: bs) = c :: rest := by
  cases bs with
  | nil => exact ⟨text, h⟩
  | cons d bs => exact ⟨_, by rw [printed, h]; rfl⟩

/-- Values that are printed by their images. -/
lemma printed_map {γ : Type} (g : γ → β) (f : β → List Char) (cs : List γ) :
    printed f (cs.map g) = printed (fun c => f (g c)) cs := by
  induction cs with
  | nil => rfl
  | cons c cs ih =>
    cases cs with
    | nil => rfl
    | cons d cs =>
      rw [List.map_cons] at ih
      rw [List.map_cons, List.map_cons, printed, printed, ih]

/-- The text of one of the values. -/
lemma length_le_printed (f : β → List Char) {b : β} {bs : List β} (h : b ∈ bs) :
    (f b).length ≤ (printed f bs).length := by
  induction bs with
  | nil => cases h
  | cons x bs ih =>
    cases bs with
    | nil =>
      obtain rfl := List.mem_singleton.mp h
      exact le_rfl
    | cons y bs =>
      rw [printed, List.length_append, List.length_cons, List.length_cons]
      rcases List.mem_cons.mp h with rfl | h
      · omega
      · have := ih h
        omega

/-- **A word in printed values** is behind them, if it can not begin in one of them or in what
stands between. -/
lemma infix_of_printed {f : β → List Char} {a : Char} {u rest : List Char} {bs : List β}
    (hcomma : a ≠ ',') (hblank : a ≠ ' ')
    (hvalue : ∀ b ∈ bs, ∀ rest, a :: u <:+: f b ++ rest → a :: u <:+: rest)
    (h : a :: u <:+: printed f bs ++ rest) : a :: u <:+: rest := by
  induction bs with
  | nil => exact h
  | cons x bs ih =>
    obtain ⟨hx, hbs⟩ := List.forall_mem_cons.mp hvalue
    cases bs with
    | nil => exact hx rest h
    | cons y bs =>
      rw [printed, List.append_assoc] at h
      have hbehind := hx _ h
      have hbetween : a ∉ [',', ' '] := by simp [hcomma, hblank]
      exact ih hbs ((Search.infix_append_iff_of_notMem hbetween u _).mp hbehind)

section Printed

variable {scan : List Char → Option (β × List Char)} {close : Char} {f : β → List Char}
  {P : β → Prop} [DecidablePred P] {bs : List β}
  (hclose : isBlank close = false ∧ close ≠ ',')
  (hstart : ∀ b ∈ bs, ∃ c text, f b = c :: text ∧ isBlank c = false ∧ c ≠ close)
  (hscan : ∀ b ∈ bs, ∀ c rest, c = ',' ∨ c = close →
    scan (f b ++ c :: rest) = if P b then some (b, c :: rest) else none)

include hclose hstart hscan

/-- One or more printed values are read. -/
lemma items_printed (hne : bs ≠ []) {fuel : ℕ} (hfuel : bs.length ≤ fuel) (rest : List Char) :
    items scan close fuel (printed f bs ++ close :: rest) =
      if ∀ b ∈ bs, P b then some (bs, rest) else none := by
  have hskip (c : Char) (text : List Char) (hc : isBlank c = false) :
      skip (c :: text) = c :: text := List.dropWhile_cons_of_neg (by simp [hc])
  induction bs generalizing fuel with
  | nil => exact absurd rfl hne
  | cons b bs ih =>
    obtain ⟨fuel, rfl⟩ := Nat.exists_eq_succ_of_ne_zero
      (Nat.ne_of_gt (Nat.lt_of_lt_of_le (Nat.succ_pos _) hfuel))
    obtain ⟨hscanB, hscanBs⟩ := List.forall_mem_cons.mp hscan
    obtain ⟨-, hstartBs⟩ := List.forall_mem_cons.mp hstart
    rw [items]
    cases bs with
    | nil =>
      rw [printed, hscanB close rest (Or.inr rfl)]
      by_cases hb : P b
      · simp [hb, hskip close rest hclose.1, hclose.2]
      · simp [hb]
    | cons d bs =>
      rw [printed, List.append_assoc, List.cons_append, hscanB ',' _ (Or.inl rfl)]
      by_cases hb : P b
      · obtain ⟨c, text, hd, hblank, -⟩ := hstartBs d (by simp)
        have hnext : skip (' ' :: (printed f (d :: bs) ++ close :: rest)) =
            printed f (d :: bs) ++ close :: rest := by
          obtain ⟨text, hhead⟩ := exists_printed_cons hd bs
          rw [hhead]
          exact (List.dropWhile_cons_of_pos (by decide)).trans (hskip c _ hblank)
        simp only [hskip ',' _ (by decide), if_true, List.cons_append, hnext,
          ih hstartBs hscanBs (by simp) (Nat.le_of_succ_le_succ hfuel), List.forall_mem_cons, hb,
          true_and]
        split_ifs <;> rfl
      · rw [if_neg hb, if_neg fun hall => hb (hall b (by simp))]

/-- **Printed values are read one after the other**, exactly if each one is. -/
theorem sequence_printed (rest : List Char) :
    sequence scan close (printed f bs ++ close :: rest) =
      if ∀ b ∈ bs, P b then some (bs, rest) else none := by
  have hlength : bs.length ≤ (printed f bs ++ close :: rest).length := by
    have hle : bs.length ≤ (printed f bs).length := by
      clear hscan
      induction bs with
      | nil => exact Nat.zero_le _
      | cons b bs ih =>
        obtain ⟨⟨c, text, hb, -⟩, hstartBs⟩ := List.forall_mem_cons.mp hstart
        cases bs with
        | nil => simp [printed, hb]
        | cons d bs =>
          have := ih hstartBs
          rw [printed, hb]
          simp only [List.length_cons, List.length_append] at this ⊢
          omega
    rw [List.length_append]
    omega
  cases bs with
  | nil =>
    have hskip : skip (close :: rest) = close :: rest :=
      List.dropWhile_cons_of_neg (by simp [hclose.1])
    simp [sequence, printed, hskip]
  | cons b bs =>
    obtain ⟨c, text, hb, hblank, hne⟩ := hstart b (by simp)
    have hitems := items_printed hclose hstart hscan (List.cons_ne_nil b bs) hlength rest
    obtain ⟨text, hhead⟩ := exists_printed_cons hb bs
    have hskip : skip (c :: (text ++ close :: rest)) = c :: (text ++ close :: rest) :=
      List.dropWhile_cons_of_neg (by simp [hblank])
    rw [hhead, List.cons_append] at hitems ⊢
    rw [sequence, hskip]
    simp only [if_neg hne, hitems]

end Printed

end Sequence

end Literals
