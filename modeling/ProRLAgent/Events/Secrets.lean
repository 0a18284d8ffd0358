import ProRLAgent.Lib.Replace
import ProRLAgent.Events.Serialization

set_option relaxedAutoImplicit false
set_option autoImplicit false

/-!
# Secrets in stored events

`add_event` replaces the secrets of the session in the dictionary of an event before it is stored.
`_replace_secrets` goes through nested dictionaries and replaces every secret in the texts that are
values there. It does not look into lists and does not change keys: a text in a list, in the
metadata of a tool call for example, is stored as it is.

## Main definitions

* `Serialization.replaceSecrets`, `Serialization.addEvent` — the replacement and the storing.
* `Serialization.PyObj.written` — the texts that the encoder writes for a value.
* `Serialization.PyObj.unreached` — the texts that the replacement does not reach.

## Main results

* `Serialization.secretFree_hideSecrets` — no secret is left in a text that is reached.
* `Serialization.secretFree_stored_iff` — no secret is stored exactly if none is in a text that is
  not reached.
-/

namespace ProRLAgent.Serialization

variable {ν τ : Type}

/-! ## The replacement -/

/-- The text that stands for a secret. -/
def secretHidden : String := "<secret_hidden>"

/-- `text.replace(old, new)`. -/
def replaceText (text old new : String) : String :=
  String.ofList (Replace.replaceAll old.toList new.toList text.toList)

/-- The secrets replaced in a text, one after the other. -/
def hideSecrets (secrets : List String) (text : String) : String :=
  secrets.foldl (fun t secret => replaceText t secret secretHidden) text

mutual

/-- A value of a dictionary with its secrets replaced. -/
def PyObj.replaceSecrets (secrets : List String) : PyObj ν → PyObj ν
  | .dict entries => .dict (replaceSecrets secrets entries)
  | .str s => .str (hideSecrets secrets s)
  -- `replace` returns a plain text, also on a member of an enumeration.
  | .strEnum s => if secrets = [] then .strEnum s else .str (hideSecrets secrets s)
  | v => v

/-- **`_replace_secrets`**. -/
def replaceSecrets (secrets : List String) : List (DictKey × PyObj ν) → List (DictKey × PyObj ν)
  | [] => []
  | (k, v) :: es => (k, v.replaceSecrets secrets) :: replaceSecrets secrets es

end

/-- The event with the attributes that `add_event` sets. -/
def Event.stamped (e : Event ν τ) (now : String) (source : EventSource) (curId : ℤ) : Event ν τ :=
  { e with
    timestamp := some now
    source := some source
    id := some curId }

/-- **`add_event`** up to the file: the data that is stored. `load` is `event_from_dict`, which has
to accept the data; it takes deprecated arguments out of the data, and no registered class has
one. -/
def addEvent (T : ToolCalls ν τ) (text : Event ν τ → String) (secrets : List String) (now : String)
    (source : EventSource) (curId : ℤ) (load : List (DictKey × PyObj ν) → Except PyError Unit)
    (e : Event ν τ) : Except PyError (List (DictKey × PyObj ν)) := do
  if e.id.getD (-1) ≠ -1 then
    throw (.valueError "Event already has an ID")
  let data ← eventToDict T text (e.stamped now source curId)
  let data := replaceSecrets secrets (toEntries data)
  load data
  let _ ← (PyObj.dict data).toJson
  return data

/-! ## The texts of a value -/

/-- The texts that are written for a key. -/
def DictKey.written (k : DictKey) : List String := k.text.toOption.toList

mutual

/-- **The texts that the encoder writes for a value**: keys and values at any depth. -/
def PyObj.written : PyObj ν → List String
  | .str s | .strEnum s | .datetime s => [s]
  | .list items | .tuple items => writtenList items
  | .dict entries => writtenEntries entries
  | .model fields => writtenFields fields
  | _ => []

/-- The items of a list. -/
def writtenList : List (PyObj ν) → List String
  | [] => []
  | v :: vs => v.written ++ writtenList vs

/-- The entries of a dictionary. -/
def writtenEntries : List (DictKey × PyObj ν) → List String
  | [] => []
  | (k, v) :: es => k.written ++ (v.written ++ writtenEntries es)

/-- The fields of a model. -/
def writtenFields : List (String × PyObj ν) → List String
  | [] => []
  | (k, v) :: fs => k :: (v.written ++ writtenFields fs)

end

mutual

/-- **The texts that the replacement does not reach** in a value of a dictionary: all that is
written for a value that is neither a dictionary nor a text. -/
def PyObj.unreached : PyObj ν → List String
  | .dict entries => unreachedEntries entries
  | .str _ | .strEnum _ => []
  | v => v.written

/-- The same for the entries of a dictionary: keys are not reached. -/
def unreachedEntries : List (DictKey × PyObj ν) → List String
  | [] => []
  | (k, v) :: es => k.written ++ (v.unreached ++ unreachedEntries es)

end

section

attribute [local simp] PyObj.replaceSecrets replaceSecrets PyObj.written writtenList writtenEntries
  writtenFields PyObj.unreached unreachedEntries

end

/-- No secret occurs in the text. -/
def SecretFree (secrets : List String) (text : String) : Prop :=
  ∀ s ∈ secrets, ¬ s.toList <:+: text.toList

instance (secrets : List String) (text : String) : Decidable (SecretFree secrets text) :=
  inferInstanceAs (Decidable (∀ s ∈ secrets, _))

/-! ## What is stored -/

section Stored

variable {secrets : List String}

/-- A secret that does not occur is not made by the replacements. -/
lemma not_infix_hideSecrets {s : List Char} (hap : Replace.Apart s secretHidden.toList)
    (hne : ∀ s ∈ secrets, s.toList ≠ []) {text : String} (h : ¬ s <:+: text.toList) :
    ¬ s <:+: (hideSecrets secrets text).toList := by
  induction secrets generalizing text with
  | nil => exact h
  | cons x xs ih =>
    refine ih (fun s hs => hne s (List.mem_cons_of_mem _ hs)) fun hin => h ?_
    have hin : s <:+: (replaceText text x secretHidden).toList := hin
    rw [replaceText, String.toList_ofList] at hin
    exact (Replace.infix_replaceAll (hne x List.mem_cons_self) hap hin).1

/-- **A text that is reached** has no secret left. -/
theorem secretFree_hideSecrets
    (h : ∀ s ∈ secrets, s.toList ≠ [] ∧ Replace.Apart s.toList secretHidden.toList)
    (text : String) : SecretFree secrets (hideSecrets secrets text) := by
  induction secrets generalizing text with
  | nil => exact fun s hs => absurd hs List.not_mem_nil
  | cons x xs ih =>
    have hxs := fun s hs => h s (List.mem_cons_of_mem x hs)
    intro s hs
    obtain rfl | hs := List.mem_cons.mp hs
    · obtain ⟨hne, hap⟩ := h s List.mem_cons_self
      refine not_infix_hideSecrets hap (fun s hs => (hxs s hs).1) fun hin => ?_
      have hin : s.toList <:+: (replaceText text s secretHidden).toList := hin
      rw [replaceText, String.toList_ofList] at hin
      exact (Replace.infix_replaceAll hne hap hin).2 rfl
    · exact ih hxs _ s hs

variable {P : String → Prop}

mutual

/-- What is written for a value after the replacement satisfies a property of the replaced texts
exactly if what is not reached does. -/
theorem forall_written_replaceSecrets (hP : ∀ s, P (hideSecrets secrets s)) : ∀ v : PyObj ν,
    (∀ t ∈ (v.replaceSecrets secrets).written, P t) ↔ ∀ t ∈ v.unreached, P t
  | .dict entries => forall_writtenEntries_replaceSecrets hP entries
  | .str s => by simpa [PyObj.replaceSecrets, PyObj.written, PyObj.unreached] using hP s
  | .strEnum s => by
    rw [PyObj.replaceSecrets, PyObj.unreached]
    split_ifs with hnil
    · subst hnil
      have hs : P s := hP s
      simpa [PyObj.written] using hs
    · simpa [PyObj.written] using hP s
  | .none | .bool _ | .int _ | .float _ | .intEnum _ | .enum _ | .datetime _ | .list _ | .tuple _
  | .record _ | .model _ | .other _ => Iff.rfl

/-- The same for the entries of a dictionary. -/
theorem forall_writtenEntries_replaceSecrets (hP : ∀ s, P (hideSecrets secrets s)) :
    ∀ es : List (DictKey × PyObj ν),
      (∀ t ∈ writtenEntries (replaceSecrets secrets es), P t) ↔ ∀ t ∈ unreachedEntries es, P t
  | [] => Iff.rfl
  | (k, v) :: es => by
    rw [replaceSecrets, writtenEntries, unreachedEntries]
    simp only [List.forall_mem_append]
    rw [forall_written_replaceSecrets hP v, forall_writtenEntries_replaceSecrets hP es]

end

variable {T : ToolCalls ν τ} {text : Event ν τ → String} {now : String} {source : EventSource}
  {curId : ℤ} {load : List (DictKey × PyObj ν) → Except PyError Unit} {e : Event ν τ}

/-- The data that is stored is that of the event with its secrets replaced. -/
lemma addEvent_eq_ok {data : List (DictKey × PyObj ν)}
    (h : addEvent T text secrets now source curId load e = .ok data) :
    ∃ d, eventToDict T text (e.stamped now source curId) = .ok d ∧
      data = replaceSecrets secrets (toEntries d) := by
  unfold addEvent at h
  split_ifs at h with hid
  · simp [throw, throwThe, MonadExceptOf.throw, bind, Except.bind] at h
  · obtain ⟨d, hd, h⟩ := Except.bind_eq_ok.mp h
    obtain ⟨-, -, h⟩ := Except.bind_eq_ok.mp h
    obtain ⟨-, -, h⟩ := Except.bind_eq_ok.mp h
    exact ⟨d, hd, (Except.ok.inj h).symm⟩

/-- **No secret is stored** exactly if no secret occurs in a text of the event that the replacement
does not reach: in a key, or in a value below a list. -/
theorem secretFree_stored_iff
    (hsecrets : ∀ s ∈ secrets, s.toList ≠ [] ∧ Replace.Apart s.toList secretHidden.toList)
    {d : List (String × PyObj ν)} {data : List (DictKey × PyObj ν)}
    (hd : eventToDict T text (e.stamped now source curId) = .ok d)
    (h : addEvent T text secrets now source curId load e = .ok data) :
    (∀ t ∈ writtenEntries data, SecretFree secrets t) ↔
      ∀ t ∈ unreachedEntries (toEntries d), SecretFree secrets t := by
  obtain ⟨d', hd', rfl⟩ := addEvent_eq_ok h
  obtain rfl := Except.ok.inj (hd.symm.trans hd')
  exact forall_writtenEntries_replaceSecrets (secretFree_hideSecrets hsecrets) _

end Stored

/-! ## Single events -/

/-- No event has metadata of a tool call. -/
def noToolCalls : ToolCalls ℤ Empty where
  dump m := m.elim
  load _ := .error (.valueError "validation error")
  round m := m.elim

/-- A message of the user. -/
def userMessage (content : String) (imageUrls : PyObj ℤ) : Event ℤ Empty where
  cls := .messageAction
  fields := [("content", .str content), ("image_urls", imageUrls),
    ("wait_for_response", .bool false), ("action", .strEnum "message"), ("security_risk", .none)]

/-- The number `4711` is apart from the text that stands for a secret. -/
lemma apart_4711 : ∀ s ∈ ["4711"], s.toList ≠ [] ∧
    Replace.Apart s.toList secretHidden.toList := by
  intro s hs
  obtain rfl := List.mem_singleton.mp hs
  exact ⟨by decide, Replace.apart_of_disjoint (by decide) (by decide) (by simp [secretHidden])⟩

/-- The secret in the content of a message is not stored. -/
theorem secretFree_message : ∃ data,
    addEvent noToolCalls (fun _ => "key 4711") ["4711"] "12:00" .user 0 (fun _ => .ok ())
      (userMessage "key 4711" .none) = .ok data ∧
    ∀ t ∈ writtenEntries data, SecretFree ["4711"] t := by
  have hd : eventToDict noToolCalls (fun _ => "key 4711")
      ((userMessage "key 4711" .none).stamped "12:00" .user 0) = .ok _ := rfl
  have h : addEvent noToolCalls (fun _ => "key 4711") ["4711"] "12:00" .user 0 (fun _ => .ok ())
      (userMessage "key 4711" .none) = .ok _ := rfl
  exact ⟨_, h, (secretFree_stored_iff apart_4711 hd h).mpr (by decide)⟩

/-- **A secret that is stored**: in the address of an image, an item of a list. -/
theorem not_secretFree_image : ∃ data,
    addEvent noToolCalls (fun _ => "see") ["4711"] "12:00" .user 0 (fun _ => .ok ())
      (userMessage "see" (.list [.str "https://img/?key=4711"])) = .ok data ∧
    (∀ s ∈ ["4711"], s.toList ≠ [] ∧ Replace.Apart s.toList secretHidden.toList) ∧
    ¬ ∀ t ∈ writtenEntries data, SecretFree ["4711"] t :=
  ⟨_, rfl, apart_4711, by decide⟩

end ProRLAgent.Serialization
