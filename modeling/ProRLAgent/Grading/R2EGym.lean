import ProRLAgent.FnCall.Loaded
import ProRLAgent.Lib.Dict
import ProRLAgent.Lib.Lines

set_option relaxedAutoImplicit false
set_option autoImplicit false

/-!
# The grade of a test run of R2E-Gym

The output of the tests is read line by line into a map from test names to statuses. A map of the
same kind is expected, and the patch counts as resolved if the two agree. Names are shortened on
both sides: colours go away, what stands behind ` - ` goes away, and of the parts between `::` only
the last two are kept, or only the last one of two. So the file of a test does not count.

The patch that is applied, what `git apply` and the tests print, and the reader of JSON are inputs.

## Main definitions

* `ProRLAgent.Grading.normalise`, `ProRLAgent.Grading.basicPytestParser` — names and statuses.
* `ProRLAgent.Grading.applyPatchAndEvaluateR2EGym` — the evaluation.
* `ProRLAgent.Grading.Agrees` — what a resolved run shows.

## Main results

* `ProRLAgent.Grading.normalise_normalise` — a short name stays as it is.
* `ProRLAgent.Grading.shortName_of_notMem` — without colours there is one way to shorten a name.
* `ProRLAgent.Grading.isResolved_iff` — what the comparison of the two maps finds out.
* `ProRLAgent.Grading.resolved_agrees` — a run is resolved only if names and statuses agree.
-/

namespace ProRLAgent.Grading

open FnCall (Text Library jsonLoads)
open Serialization (Json)

variable {ν : Type}

/-! ## Colours -/

/-- `re.sub(pattern, '', text)`, where `matchLength` is the length of the match at the beginning of
a text and 0 for none: the first `skip` letters belong to a match. -/
def deleteFrom (matchLength : Text → ℕ) : ℕ → Text → Text
  | _, [] => []
  | skip + 1, _ :: text => deleteFrom matchLength skip text
  | 0, c :: text =>
    match matchLength (c :: text) with
    | 0 => c :: deleteFrom matchLength 0 text
    | skip + 1 => deleteFrom matchLength skip text

/-- The length of a match of `\x1b\[[0-9;]*m`. -/
def colourLength : Text → ℕ
  | '\x1b' :: '[' :: text =>
    let parameters := text.takeWhile fun c => c.isDigit || c == ';'
    if (text.drop parameters.length).head? = some 'm' then parameters.length + 3 else 0
  | _ => 0

/-- `ansi_re.sub('', text)`. -/
def decolor : Text → Text := deleteFrom colourLength 0

/-- The length of a match of `\x1b\[[0-9;]*m|\r`. -/
def outputLength (text : Text) : ℕ := if text.head? = some '\r' then 1 else colourLength text

/-- `test_output_clean`. -/
def testOutputClean : Text → Text := deleteFrom outputLength 0

/-! ## Names and statuses -/

/-- `' - '`. -/
def dashes : Text := " - ".toList

/-- `'::'`. -/
def colons : Text := "::".toList

/-- `_normalise`. -/
def normalise (nodeid : Text) : Text :=
  let nodeid := Search.beforeFirst dashes nodeid
  let parts := Search.split colons nodeid
  if 3 ≤ parts.length then ['.'].intercalate (parts.drop (parts.length - 2))
  else if parts.length = 2 then parts.getLastD nodeid
  else nodeid

/-- A short name is all of the id, one of its parts, or two parts with a dot between. -/
lemma normalise_cases (nodeid : Text) :
    let parts := Search.split colons (Search.beforeFirst dashes nodeid)
    (parts.length = 1 ∧ normalise nodeid = Search.beforeFirst dashes nodeid) ∨
      normalise nodeid ∈ parts ∨
      ∃ first ∈ parts, ∃ last ∈ parts, normalise nodeid = first ++ '.' :: last := by
  intro parts
  obtain ⟨piece, pieces, heq, -⟩ :=
    Search.splitFrom_spec (show colons ≠ [] by decide) 0 (Search.beforeFirst dashes nodeid)
  have hparts : parts = piece :: pieces := heq
  have hnormalise : normalise nodeid = if 3 ≤ parts.length then
      ['.'].intercalate (parts.drop (parts.length - 2))
    else if parts.length = 2 then parts.getLastD (Search.beforeFirst dashes nodeid)
    else Search.beforeFirst dashes nodeid := rfl
  have hpos : 1 ≤ parts.length := by simp [hparts]
  split_ifs at hnormalise with hthree htwo
  · have hlen : (parts.drop (parts.length - 2)).length = 2 := by
      rw [List.length_drop]
      omega
    obtain ⟨first, last, hlast⟩ := List.length_eq_two.mp hlen
    have hmem : ∀ p ∈ [first, last], p ∈ parts := fun p hp => List.mem_of_mem_drop (hlast ▸ hp)
    exact Or.inr (Or.inr ⟨first, hmem first (by simp), last, hmem last (by simp),
      by rw [hnormalise, hlast]; simp [List.intercalate]⟩)
  · obtain ⟨first, last, hlast⟩ := List.length_eq_two.mp htwo
    exact Or.inr (Or.inl (by rw [hnormalise, hlast]; simp))
  · exact Or.inl ⟨by omega, hnormalise⟩

/-- A short name has no separator in it. -/
lemma not_infix_normalise (nodeid : Text) :
    ¬ colons <:+: normalise nodeid ∧ ¬ dashes <:+: normalise nodeid := by
  have hdashes := Search.not_infix_beforeFirst (show dashes ≠ [] by decide) nodeid
  have hparts : ∀ part ∈ Search.split colons (Search.beforeFirst dashes nodeid),
      ¬ colons <:+: part ∧ ¬ dashes <:+: part := by
    intro part hpart
    obtain ⟨hcolons, hinfix⟩ := Search.not_infix_of_mem_split (by decide) hpart
    exact ⟨hcolons, fun h => hdashes (h.trans hinfix)⟩
  rcases normalise_cases nodeid with ⟨hlen, heq⟩ | hmem | ⟨first, hfirst, last, hlast, heq⟩
  · rw [heq]
    refine ⟨fun h => ?_, hdashes⟩
    have htwo := Search.two_le_length_split (by decide) h
    omega
  · exact hparts _ hmem
  · -- No separator goes across the dot.
    rw [heq]
    exact ⟨fun h => (Search.infix_or_infix_of_notMem (by decide) (by decide) h).elim
        (hparts first hfirst).1 (hparts last hlast).1,
      fun h => (Search.infix_or_infix_of_notMem (by decide) (by decide) h).elim
        (hparts first hfirst).2 (hparts last hlast).2⟩

/-- A text without separators is its own short name. -/
lemma normalise_of_not_infix {nodeid : Text} (hcolons : ¬ colons <:+: nodeid)
    (hdashes : ¬ dashes <:+: nodeid) : normalise nodeid = nodeid := by
  rw [normalise, Search.beforeFirst_eq_self hdashes, Search.split_of_not_infix hcolons]
  rfl

/-- **A short name stays as it is.** -/
@[simp] theorem normalise_normalise (nodeid : Text) :
    normalise (normalise nodeid) = normalise nodeid :=
  normalise_of_not_infix (not_infix_normalise nodeid).1 (not_infix_normalise nodeid).2

/-- The words that a line of a test begins with. -/
def statusWords : List Text :=
  ["PASSED".toList, "FAILED".toList, "ERROR".toList, "SKIPPED".toList]

/-- `text.split(maxsplit=1)`. -/
def splitOnce (text : Text) : List Text :=
  let text := PyText.lstrip text
  let word := text.takeWhile fun c => !PyText.isSpace c
  let rest := PyText.lstrip (text.drop word.length)
  if text = [] then [] else if rest = [] then [word] else [word, rest]

/-- What a line reports: the id of a test and its status. -/
def reported? (line : Text) : Option (Text × Text) :=
  let line := PyText.strip (decolor line)
  if statusWords.any fun word => word.isPrefixOf line then
    match splitOnce line with
    | [status, nodeidRaw] => if normalise nodeidRaw = [] then none else some (nodeidRaw, status)
    | _ => none
  else none

/-- What the lines of a log report. -/
def reports (log : Text) : List (Text × Text) := (PyText.splitlines log).filterMap reported?

/-- `_basic_pytest_parser`. -/
def basicPytestParser (log : Text) : Dict Text Text :=
  Dict.ofEntries ((reports log).map fun r => (normalise r.1, r.2))

/-- `decolor_dict_keys`. -/
def decolorDictKeys {β : Type} (d : Dict Text β) : Dict Text β := d.mapKeys decolor

/-- `strip_suffix`. -/
def stripSuffix {β : Type} (d : Dict Text β) : Dict Text β := d.mapKeys (Search.beforeFirst dashes)

/-- `parse_norm` and `expected_norm`. -/
def normalised {β : Type} (d : Dict Text β) : Dict Text β :=
  (stripSuffix (decolorDictKeys d)).mapKeys normalise

/-! ## The evaluation -/

/-- The report on a patch. -/
structure Report where
  emptyGeneration : Bool
  resolved : Bool
  failedApplyPatch : Bool
  errorEval : Bool
  testTimeout : Bool
  deriving DecidableEq

/-- What the evaluation returns. -/
structure Evaluation where
  report : Report
  applyPatchOutput : Text
  testOutput : Text
  deriving DecidableEq

section Evaluation

variable (L : Library ν) (exceeds : Text → Bool)

/-- `json.loads(expected_json)` with its fallback. A value that is no text is not loaded either. -/
def loadExpected : Option Text → Json ν
  | none => .obj []
  | some text =>
    match jsonLoads L exceeds text with
    | .ok value => value
    | .error _ => .obj []

/-- The expected map. `d.items()` fails for a value that is no object. -/
def expectedMap (expectedJson : Option Text) : Except PyError (Dict Text (Json ν)) :=
  match loadExpected L exceeds expectedJson with
  | .obj entries => .ok (Dict.ofEntries (entries.map fun e => (e.1.toList, e.2)))
  | _ => .error (.other "AttributeError: object has no attribute 'items'")

/-- `status == value`. -/
def isStatus (status : Text) : Json ν → Bool
  | .str s => s.toList = status
  | _ => false

/-- `resolved`. -/
def isResolved (parseNorm : Dict Text Text) (expectedNorm : Dict Text (Json ν)) : Bool :=
  parseNorm.entries.length = expectedNorm.entries.length ∧
    parseNorm.entries.all fun e => (expectedNorm.get? e.1).any (isStatus e.2)

variable (applyPatchPass applyPatchFail : Text)

/-- The patch was applied. -/
def Applied (patchResult : Text) : Prop :=
  ¬ applyPatchFail <:+: patchResult ∧ applyPatchPass <:+: patchResult

instance decidableApplied (patchResult : Text) :
    Decidable (Applied applyPatchPass applyPatchFail patchResult) :=
  inferInstanceAs (Decidable (_ ∧ _))

/-- **`_apply_patch_and_evaluate_r2egym`**, from the output of `git apply` on. -/
def applyPatchAndEvaluateR2EGym (gitPatch patchResult testOutput : Text)
    (expectedJson : Option Text) : Except PyError Evaluation :=
  if ¬ Applied applyPatchPass applyPatchFail patchResult then
    .ok ⟨⟨PyText.strip gitPatch = [], false, true, false, false⟩, patchResult, []⟩
  else do
    let expected ← expectedMap L exceeds expectedJson
    let parsed := basicPytestParser (testOutputClean testOutput)
    return ⟨⟨false, isResolved (normalised parsed) (normalised expected), false, false, false⟩,
      patchResult, testOutput⟩

end Evaluation

/-! ## Compared names -/

/-- The name under which an expected id is compared. -/
def shortName (nodeid : Text) : Text := normalise (Search.beforeFirst dashes (decolor nodeid))

/-- The name under which the id in a line is compared. -/
def lineName (nodeid : Text) : Text := shortName (normalise nodeid)

/-- A text without escape sequences has no colours. -/
lemma decolor_of_notMem {text : Text} (h : '\x1b' ∉ text) : decolor text = text := by
  induction text with
  | nil => rfl
  | cons c text ih =>
    rw [List.mem_cons, not_or] at h
    have hlength : colourLength (c :: text) = 0 := by
      unfold colourLength
      split
      · next heq => exact absurd (List.cons.inj heq).1.symm h.1
      · rfl
    have htail : deleteFrom colourLength 0 text = text := ih h.2
    rw [decolor, deleteFrom, hlength, htail]

/-- The letters of a short name come from the id, but for the dot. -/
lemma notMem_normalise {c : Char} (hc : c ≠ '.') {nodeid : Text} (h : c ∉ nodeid) :
    c ∉ normalise nodeid := by
  have hcut : c ∉ Search.beforeFirst dashes nodeid := by
    intro hmem
    rw [Search.beforeFirst] at hmem
    rcases hparts : Search.splitFirst dashes nodeid with _ | ⟨before, after⟩
    · rw [hparts] at hmem
      exact h hmem
    · rw [hparts] at hmem
      have heq := Search.splitFirst_spec hparts
      exact h (heq ▸ List.mem_append_left _ hmem)
  have hparts : ∀ part ∈ Search.split colons (Search.beforeFirst dashes nodeid), c ∉ part :=
    fun part hpart hmem => hcut ((Search.not_infix_of_mem_split (by decide) hpart).2.subset hmem)
  rcases normalise_cases nodeid with ⟨-, heq⟩ | hmem | ⟨first, hfirst, last, hlast, heq⟩
  · rwa [heq]
  · exact hparts _ hmem
  · rw [heq, List.mem_append, List.mem_cons, not_or, not_or]
    exact ⟨hparts first hfirst, hc, hparts last hlast⟩

/-- Without colours the names of expected ids and of ids in lines are shortened in one way. -/
theorem shortName_of_notMem {nodeid : Text} (h : '\x1b' ∉ nodeid) :
    shortName nodeid = normalise nodeid ∧ lineName nodeid = normalise nodeid := by
  have hcut : normalise (Search.beforeFirst dashes nodeid) = normalise nodeid := by
    rw [normalise, normalise, Search.beforeFirst_eq_self
      (Search.not_infix_beforeFirst (by decide) nodeid)]
  refine ⟨by rw [shortName, decolor_of_notMem h, hcut], ?_⟩
  rw [lineName, shortName, decolor_of_notMem (notMem_normalise (by decide) h),
    Search.beforeFirst_eq_self (not_infix_normalise nodeid).2, normalise_normalise]

section Normalised

variable {β : Type} {d : Dict Text β} {nodeid name : Text} {value : β}

/-- The compared names. -/
lemma mem_keys_normalised : name ∈ (normalised d).keys ↔ ∃ id ∈ d.keys, shortName id = name := by
  simp only [normalised, stripSuffix, decolorDictKeys, Dict.mem_keys_mapKeys]
  constructor
  · rintro ⟨cut, ⟨plain, ⟨id, hid, rfl⟩, rfl⟩, hname⟩
    exact ⟨id, hid, hname⟩
  · rintro ⟨id, hid, hname⟩
    exact ⟨_, ⟨_, ⟨id, hid, rfl⟩, rfl⟩, hname⟩

/-- An id whose name no other id has keeps its value. -/
lemma get?_normalised_of_unique (h : d.get? nodeid = some value)
    (hunique : ∀ id ∈ d.keys, shortName id = shortName nodeid → id = nodeid) :
    (normalised d).get? (shortName nodeid) = some value := by
  have hplain : (decolorDictKeys d).get? (decolor nodeid) = some value :=
    Dict.get?_mapKeys_of_unique h fun id hid heq => hunique id hid (by rw [shortName, heq]; rfl)
  have hcut : (stripSuffix (decolorDictKeys d)).get?
      (Search.beforeFirst dashes (decolor nodeid)) = some value := by
    refine Dict.get?_mapKeys_of_unique hplain fun plain hmem heq => ?_
    obtain ⟨id, hid, rfl⟩ := Dict.mem_keys_mapKeys.mp hmem
    rw [hunique id hid (by rw [shortName, heq]; rfl)]
  refine Dict.get?_mapKeys_of_unique hcut fun cut hmem heq => ?_
  obtain ⟨plain, hplain, rfl⟩ := Dict.mem_keys_mapKeys.mp hmem
  obtain ⟨id, hid, rfl⟩ := Dict.mem_keys_mapKeys.mp hplain
  rw [hunique id hid heq]

end Normalised

/-- The status that is kept for a name: the last line of a test gives it. -/
def keptStatus (log name : Text) : Option Text := (normalised (basicPytestParser log)).get? name

/-- The names that are kept are those of the lines. -/
lemma mem_keys_logged {log name : Text} :
    name ∈ (normalised (basicPytestParser log)).keys ↔ ∃ r ∈ reports log, lineName r.1 = name := by
  simp only [mem_keys_normalised, basicPytestParser, Dict.mem_keys_ofEntries, List.map_map,
    List.mem_map, lineName]
  constructor
  · rintro ⟨id, ⟨r, hr, rfl⟩, hname⟩
    exact ⟨r, hr, hname⟩
  · rintro ⟨r, hr, hname⟩
    exact ⟨_, ⟨r, hr, rfl⟩, hname⟩

/-- **The last line of a test gives its status**, unless another test in the log gets the same name
only once colours are gone. -/
theorem keptStatus_of_last {log : Text} {before after : List (Text × Text)} {r : Text × Text}
    (hlog : reports log = before ++ r :: after)
    (hlast : ∀ r' ∈ after, normalise r'.1 ≠ normalise r.1)
    (hunique : ∀ r' ∈ reports log, lineName r'.1 = lineName r.1 → normalise r'.1 = normalise r.1) :
    keptStatus log (lineName r.1) = some r.2 := by
  refine get?_normalised_of_unique ?_ fun id hid heq => ?_
  · rw [basicPytestParser, Dict.get?_ofEntries, hlog, List.map_append, List.reverse_append,
      List.map_cons, List.reverse_cons, List.find?_append, List.find?_append]
    have hafter : ((after.map fun r => (normalise r.1, r.2)).reverse.find? fun e =>
        decide (e.1 = normalise r.1)) = none := by
      rw [List.find?_eq_none]
      rintro e he
      obtain ⟨r', hr', rfl⟩ := List.mem_map.mp (List.mem_reverse.mp he)
      simpa using hlast r' hr'
    rw [hafter]
    simp
  · rw [basicPytestParser, Dict.mem_keys_ofEntries, List.map_map] at hid
    obtain ⟨r', hr', rfl⟩ := List.mem_map.mp hid
    exact hunique r' hr' heq

/-! ## Resolved runs -/

/-- **What a resolved run shows**: the lines of the log have the names of the expected ids, and the
status that is kept for a name is the one that is expected for it. -/
structure Agrees (log : Text) (expected : Dict Text (Json ν)) : Prop where
  reported : ∀ id ∈ expected.keys, ∃ r ∈ reports log, lineName r.1 = shortName id
  awaited : ∀ r ∈ reports log, ∃ id ∈ expected.keys, shortName id = lineName r.1
  status : ∀ {name status value}, keptStatus log name = some status →
    (normalised expected).get? name = some value → isStatus status value = true

/-- The names agree as soon as those of the two maps do. -/
lemma mem_keys_iff_of_agrees {log : Text} {expected : Dict Text (Json ν)}
    (h : Agrees log expected) (name : Text) :
    name ∈ (normalised (basicPytestParser log)).keys ↔ name ∈ (normalised expected).keys := by
  rw [mem_keys_logged, mem_keys_normalised]
  constructor
  · rintro ⟨r, hr, rfl⟩
    exact h.awaited r hr
  · rintro ⟨id, hid, rfl⟩
    exact h.reported id hid

/-- **The comparison of the two maps** finds out whether names and statuses agree. -/
theorem isResolved_iff {log : Text} {expected : Dict Text (Json ν)} :
    isResolved (normalised (basicPytestParser log)) (normalised expected) = true ↔
      Agrees log expected := by
  rw [isResolved, decide_eq_true_iff, List.all_eq_true]
  constructor
  · rintro ⟨hlen, hall⟩
    have hvalue : ∀ {name status}, keptStatus log name = some status →
        ∃ value, (normalised expected).get? name = some value ∧ isStatus status value = true := by
      intro name status h
      exact (Option.any_eq_true _ _).mp (hall (name, status) (Dict.get?_eq_some_iff.mp h))
    have hsub : ∀ name ∈ (normalised (basicPytestParser log)).keys,
        name ∈ (normalised expected).keys := by
      intro name hname
      obtain ⟨status, hstatus⟩ := Dict.mem_keys_iff.mp hname
      obtain ⟨value, hget, -⟩ := hvalue hstatus
      exact Dict.mem_keys_iff.mpr ⟨value, hget⟩
    have hkeys := Dict.mem_keys_iff_of_length hlen hsub
    refine ⟨fun id hid => ?_, fun r hr => ?_, fun hstatus hget => ?_⟩
    · exact mem_keys_logged.1 ((hkeys _).mpr (mem_keys_normalised.2 ⟨id, hid, rfl⟩))
    · exact mem_keys_normalised.1 (hsub _ (mem_keys_logged.2 ⟨r, hr, rfl⟩))
    · obtain ⟨value, hget', hvalue⟩ := hvalue hstatus
      rw [hget] at hget'
      rwa [Option.some.inj hget']
  · intro h
    have hkeys := mem_keys_iff_of_agrees h
    refine ⟨Dict.length_eq_of_mem_keys_iff hkeys, ?_⟩
    rintro ⟨name, status⟩ he
    have hstatus : keptStatus log name = some status := Dict.get?_eq_some_iff.mpr he
    obtain ⟨value, hget⟩ :=
      Dict.mem_keys_iff.mp ((hkeys name).mp (Dict.mem_keys_iff.mpr ⟨status, hstatus⟩))
    exact (Option.any_eq_true _ _).mpr ⟨value, hget, h.status hstatus hget⟩

section Claims

variable (L : Library ν) (exceeds : Text → Bool) (applyPatchPass applyPatchFail : Text)

/-- **A run is resolved only if names and statuses agree**, and it is resolved if they do and the
expected map is not empty. The last line of a test gives the status of its name, and an id whose
name no other expected id has gives the expected one. -/
theorem resolved_agrees {gitPatch patchResult testOutput : Text} {expectedJson : Option Text}
    {evaluation : Evaluation} (happlied : Applied applyPatchPass applyPatchFail patchResult)
    (h : applyPatchAndEvaluateR2EGym L exceeds applyPatchPass applyPatchFail gitPatch patchResult
      testOutput expectedJson = .ok evaluation) :
    ∃ expected, expectedMap L exceeds expectedJson = .ok expected ∧
      (evaluation.report.resolved = true → Agrees (testOutputClean testOutput) expected) ∧
      (expected.keys ≠ [] → Agrees (testOutputClean testOutput) expected →
        evaluation.report.resolved = true) ∧
      (∀ before r after, reports (testOutputClean testOutput) = before ++ r :: after →
        (∀ r' ∈ after, normalise r'.1 ≠ normalise r.1) →
        (∀ r' ∈ reports (testOutputClean testOutput),
          lineName r'.1 = lineName r.1 → normalise r'.1 = normalise r.1) →
        keptStatus (testOutputClean testOutput) (lineName r.1) = some r.2) ∧
      ∀ id value, expected.get? id = some value →
        (∀ id' ∈ expected.keys, shortName id' = shortName id → id' = id) →
        (normalised expected).get? (shortName id) = some value := by
  rw [applyPatchAndEvaluateR2EGym, if_neg (not_not.mpr happlied)] at h
  obtain ⟨expected, hexpected, hreturn⟩ := Except.bind_eq_ok.mp h
  obtain rfl := Except.ok.inj hreturn
  exact ⟨expected, hexpected, isResolved_iff.1, fun _ => isResolved_iff.2,
    fun before r after hlog hlast hunique => keptStatus_of_last hlog hlast hunique,
    fun id value hvalue hunique => get?_normalised_of_unique hvalue hunique⟩

end Claims

/-- What is printed for a patch that applies. -/
def appliedText : Text := ">>>>> Applied Patch".toList

/-- What is printed for a patch that does not apply. -/
def failedText : Text := ">>>>> Patch Apply Failed".toList

/-- A map that expects the test of one file to pass. -/
def expectedSample : Text :=
  "\x7b\x22tests/a.py::test_x\x22: \x22PASSED\x22\x7d".toList

/-- The evaluation of a log against a map. -/
def evaluationSample (testOutput : Text) (expectedJson : Option Text) : Except PyError Evaluation :=
  applyPatchAndEvaluateR2EGym FnCall.sampleLibrary (fun _ => false) appliedText failedText []
    appliedText testOutput expectedJson

/-- The run of a test is resolved though the log has a test of that name in another file only. A
log without tests is resolved if no map is expected. -/
theorem resolved_otherFile :
    evaluationSample "PASSED tests/b.py::test_x\n".toList (some expectedSample) =
        .ok ⟨⟨false, true, false, false, false⟩, appliedText,
          "PASSED tests/b.py::test_x\n".toList⟩ ∧
      reports (testOutputClean "PASSED tests/b.py::test_x\n".toList) =
        [("tests/b.py::test_x".toList, "PASSED".toList)] ∧
      (expectedMap FnCall.sampleLibrary (fun _ => false) (some expectedSample)).map Dict.keys =
        .ok ["tests/a.py::test_x".toList] ∧
      evaluationSample "no tests ran".toList none =
        .ok ⟨⟨false, true, false, false, false⟩, appliedText, "no tests ran".toList⟩ := by
  refine ⟨?_, ?_, ?_, ?_⟩ <;> decide +kernel

/-- The names agree in a run of one test. -/
theorem resolved_agrees_sample :
    ∃ expected, expectedMap FnCall.sampleLibrary (fun _ => false) (some expectedSample) =
        .ok expected ∧
      Agrees (testOutputClean "PASSED tests/a.py::test_x\n".toList) expected := by
  obtain ⟨expected, hexpected, hagrees, -⟩ :=
    resolved_agrees FnCall.sampleLibrary (fun _ => false) appliedText failedText
      (show Applied appliedText failedText appliedText by decide)
      (show evaluationSample "PASSED tests/a.py::test_x\n".toList (some expectedSample) =
        .ok ⟨⟨false, true, false, false, false⟩, appliedText,
          "PASSED tests/a.py::test_x\n".toList⟩ by decide +kernel)
  exact ⟨expected, hexpected, hagrees rfl⟩

end ProRLAgent.Grading
