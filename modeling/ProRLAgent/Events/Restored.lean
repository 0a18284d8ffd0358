import ProRLAgent.Lib.Assoc
import ProRLAgent.Events.Serialization

set_option relaxedAutoImplicit false
set_option autoImplicit false

/-!
# Fields that are restored

Most fields of an event are of types whose values JSON has. What is stored for such a field is read
back as it was. The others are converted: the metadata of a command is dumped as a dictionary and
loaded as a model, the microagents of a recall are dictionaries in the stored event and instances of
their dataclass in the loaded one, and the type of a recall becomes a member of its enumeration
again.

## Main definitions

* `Serialization.Event.Storable` — what a well-typed event needs to be restored.

## Main results

* `Serialization.jsonLike_of_hasType` — values of ordinary types are values that JSON has.
* `Serialization.restored_extra` — a field in `extras` is restored by its conversion.
-/

namespace ProRLAgent.Serialization

variable {ν τ : Type}

/-! ## Values of ordinary types -/

/-- Texts are values that JSON has. -/
lemma PyObj.isText.jsonLike {v : PyObj ν} (h : v.isText = true) : v.jsonLike = true := by
  cases v with
  | str s => rfl
  | strEnum s => rfl
  | _ => simp [PyObj.isText] at h

/-- A list of values that JSON has. -/
lemma jsonLikeList_of_all {vs : List (PyObj ν)} (h : ∀ v ∈ vs, v.jsonLike = true) :
    jsonLikeList vs = true := by
  induction vs with
  | nil => rfl
  | cons v vs ih =>
    rw [jsonLikeList, h v List.mem_cons_self, ih fun w hw => h w (List.mem_cons_of_mem _ hw),
      Bool.and_true]

/-- Entries with values that JSON has. -/
lemma jsonLikeEntries_of_all {es : List (DictKey × PyObj ν)}
    (h : ∀ e ∈ es, e.1.text?.isSome = true ∧ e.2.jsonLike = true) : jsonLikeEntries es = true := by
  induction es with
  | nil => rfl
  | cons e es ih =>
    obtain ⟨hkey, hvalue⟩ := h e List.mem_cons_self
    rw [jsonLikeEntries, hkey, hvalue, ih fun e he => h e (List.mem_cons_of_mem _ he)]
    rfl

/-- **Values of ordinary types** that are declared throughout are values that JSON has. -/
theorem jsonLike_of_hasType : ∀ {t : FieldType} {v : PyObj ν}, t.ordinary = true →
    t.untyped = false → t.hasType v = true → v.jsonLike = true := by
  intro t
  induction t with
  | str => exact fun _ _ h => PyObj.isText.jsonLike h
  | any => exact fun _ h => by simp [FieldType.untyped] at h
  | bareDict => exact fun _ h => by simp [FieldType.untyped] at h
  | enum values => exact fun h => by simp [FieldType.ordinary] at h
  | knowledge => exact fun h => by simp [FieldType.ordinary] at h
  | metadata => exact fun h => by simp [FieldType.ordinary] at h
  | int | bool | strEnum values | intEnum values =>
    intro v _ _ h
    cases v <;> first | rfl | simp [FieldType.hasType] at h
  | opt t ih =>
    intro v ho hu h
    cases v with
    | none => rfl
    | _ => exact ih ho hu (by simpa [FieldType.hasType] using h)
  | list t ih =>
    intro v ho hu h
    cases v with
    | list items =>
      have hitems : ∀ w ∈ items, t.hasType w = true := by simpa [FieldType.hasType] using h
      exact jsonLikeList_of_all fun w hw => ih ho hu (hitems w hw)
    | _ => simp [FieldType.hasType] at h
  | dict t ih =>
    intro v ho hu h
    cases v with
    | dict entries =>
      rw [FieldType.hasType, Bool.and_eq_true, List.all_eq_true] at h
      rw [PyObj.jsonLike, h.2, Bool.and_true]
      refine jsonLikeEntries_of_all fun e he => ?_
      have hentry := h.1 e he
      rw [Bool.and_eq_true] at hentry
      exact ⟨hentry.1, ih ho hu hentry.2⟩
    | _ => simp [FieldType.hasType] at h

/-! ## The table -/

deriving instance DecidableEq for FieldType

namespace EventClass

/-- No class has two fields of one name. -/
lemma names_nodup (version : String) (cls : EventClass) :
    ((cls.fields version : List (FieldSpec ν)).map FieldSpec.name).Nodup := by
  cases cls <;> simp [fields, tagSpec, text, flag, optText, optInt, anyDict, securityRisk,
    confirmationState, tagField, isAction, actions]

/-- The keys that are renamed or dropped on loading. -/
def deprecatedKeys : List String :=
  ["timestamp", "is_confirmed", "images_urls", "keep_prompt", "translated_ipython_code",
    "exit_code", "command_id", "formatted_output_and_error"]

/-- No field is renamed or dropped on loading. -/
lemma name_notMem_deprecatedKeys {version : String} {cls : EventClass} :
    ∀ f ∈ (cls.fields version : List (FieldSpec ν)), f.name ∉ deprecatedKeys := by
  have h : (cls.fields version).all
      (fun f : FieldSpec ν => decide (f.name ∉ deprecatedKeys)) = true := by
    cases cls <;> rfl
  exact fun f hf => of_decide_eq_true (List.all_eq_true.mp h f hf)

/-- The default of the field names the class. -/
def hasTagDefault (cls : EventClass) (f : FieldSpec ν) : Bool :=
  match f.default with
  | some (.strEnum s) => s = cls.tag
  | _ => false

/-- The only field that is stored at the top is the one that names the class. -/
lemma name_eq_tagField {version : String} {cls : EventClass} :
    ∀ f ∈ (cls.fields version : List (FieldSpec ν)), f.name ∈ topKeys →
      f.name = cls.tagField ∧ f.default = some (.strEnum cls.tag) := by
  have h : (cls.fields version).all (fun f : FieldSpec ν => decide (f.name ∈ topKeys →
      f.name = cls.tagField ∧ hasTagDefault cls f = true)) = true := by
    cases cls <;> rfl
  intro f hf htop
  obtain ⟨hname, htag⟩ := of_decide_eq_true (List.all_eq_true.mp h f hf) htop
  refine ⟨hname, ?_⟩
  unfold hasTagDefault at htag
  split at htag
  next s hs => rw [hs, of_decide_eq_true htag]
  next => simp at htag

/-- The default of the field is `None`. -/
def hasNoneDefault (f : FieldSpec ν) : Bool :=
  match f.default with
  | some .none => true
  | _ => false

/-- The security risk is unset by default. -/
lemma default_securityRisk {version : String} {cls : EventClass} :
    ∀ f ∈ (cls.fields version : List (FieldSpec ν)), f.name = "security_risk" →
      f.default = some .none := by
  have h : (cls.fields version).all (fun f : FieldSpec ν => decide (f.name = "security_risk" →
      hasNoneDefault f = true)) = true := by
    cases cls <;> rfl
  intro f hf hname
  have hnone := of_decide_eq_true (List.all_eq_true.mp h f hf) hname
  unfold hasNoneDefault at hnone
  split at hnone
  next hd => exact hd
  next => simp at hnone

/-- The fields of an action are of ordinary types, with one exception. -/
lemma ordinary_of_isAction {version : String} {cls : EventClass} (hcls : cls.isAction = true) :
    ∀ f ∈ (cls.fields version : List (FieldSpec ν)), f.type.ordinary = true ∨
      (cls = .agentFinishAction ∧ f.name = "task_completed") := by
  have h : (cls.fields version).all (fun f : FieldSpec ν => decide (cls.isAction = true →
      f.type.ordinary = true ∨ (cls = .agentFinishAction ∧ f.name = "task_completed"))) = true := by
    cases cls <;> rfl
  exact fun f hf => of_decide_eq_true (List.all_eq_true.mp h f hf) hcls

/-- How a field of an observation is loaded: by a conversion of its own, or as it is if its type is
ordinary. -/
def ExtraCases (cls : EventClass) (f : FieldSpec ν) : Prop :=
  (cls = .cmdOutputObservation ∧ f.name = "metadata" ∧ f.type = .metadata) ∨
  (cls = .recallObservation ∧ f.name = "recall_type" ∧ f.type = .strEnum recallTypes) ∨
  (cls = .recallObservation ∧ f.name = "microagent_knowledge" ∧ f.type = .list .knowledge) ∨
  (f.type.ordinary = true ∧ (cls = .cmdOutputObservation → f.name ≠ "metadata") ∧
    (cls = .recallObservation → f.name ≠ "recall_type" ∧ f.name ≠ "microagent_knowledge"))

instance (cls : EventClass) (f : FieldSpec ν) : Decidable (ExtraCases cls f) :=
  inferInstanceAs (Decidable (_ ∨ _ ∨ _ ∨ _))

/-- The fields of an observation are of ordinary types or have a conversion of their own. -/
lemma extra_cases {version : String} {cls : EventClass} (hcls : cls.isAction = false) :
    ∀ f ∈ (cls.fields version : List (FieldSpec ν)), ExtraCases cls f := by
  have h : (cls.fields version).all (fun f : FieldSpec ν => decide (cls.isAction = false →
      ExtraCases cls f)) = true := by
    cases cls <;> rfl
  exact fun f hf => of_decide_eq_true (List.all_eq_true.mp h f hf) hcls

/-- Every observation has a text `content`. -/
lemma content_mem {version : String} {cls : EventClass} (h : cls.isAction = false) :
    (⟨"content", .str, none⟩ : FieldSpec ν) ∈ cls.fields version := by
  cases cls <;> simp [fields, isAction, actions] at h ⊢

/-- The name of an action finds its class. -/
lemma find?_actions {cls : EventClass} (h : cls.isAction = true) :
    (actions.find? fun c => c.tag = cls.tag) = some cls := by
  revert h
  cases cls <;> decide

/-- The name of an observation finds its class. -/
lemma find?_observations {cls : EventClass} (h : cls.isAction = false) :
    (observations.find? fun c => c.tag = cls.tag) = some cls := by
  revert h
  cases cls <;> decide

end EventClass

/-! ## Conversions -/

/-- What is written for a text. -/
lemma toJson_of_isText {v : PyObj ν} (h : v.isText = true) :
    ∃ s, v.asdict = v ∧ v.toJson = .ok (.str s) ∧ v.byValue = .str s := by
  cases v with
  | str s => exact ⟨s, rfl, rfl, rfl⟩
  | strEnum s => exact ⟨s, rfl, rfl, rfl⟩
  | _ => simp [PyObj.isText] at h

/-- An optional text of a model is written and loaded. -/
lemma modelOptStr_of_isOptStr {v : PyObj ν} (h : v.isOptStr = true) :
    ∃ j, v.toJson = .ok j ∧
      ∀ entries key, entries.lookup key = some j → modelOptStr entries key = .ok v := by
  cases v with
  | none => exact ⟨.null, rfl, fun entries key hkey => by rw [modelOptStr, hkey]⟩
  | str s => exact ⟨.str s, rfl, fun entries key hkey => by rw [modelOptStr, hkey]⟩
  | _ => simp [PyObj.isOptStr] at h

/-- **The metadata of a command** is written as a dictionary and loaded as it was. -/
lemma loadMetadata_of_isMetadata {v : PyObj ν} (h : v.isMetadata = true) :
    ∃ entries, (storedExtra v.asdict).toJson = .ok (.obj entries) ∧
      loadMetadata entries = .ok v := by
  unfold PyObj.isMetadata at h
  split at h
  next exitCode pid username hostname workingDir path pre suffix =>
    simp only [Bool.and_eq_true] at h
    obtain ⟨⟨⟨h₁, h₂⟩, h₃⟩, h₄⟩ := h
    obtain ⟨j₁, hj₁, hload₁⟩ := modelOptStr_of_isOptStr h₁
    obtain ⟨j₂, hj₂, hload₂⟩ := modelOptStr_of_isOptStr h₂
    obtain ⟨j₃, hj₃, hload₃⟩ := modelOptStr_of_isOptStr h₃
    obtain ⟨j₄, hj₄, hload₄⟩ := modelOptStr_of_isOptStr h₄
    refine ⟨[("exit_code", .int exitCode), ("pid", .int pid), ("username", j₁), ("hostname", j₂),
      ("working_dir", j₃), ("py_interpreter_path", j₄), ("prefix", .str pre),
      ("suffix", .str suffix)], ?_, ?_⟩
    · simp only [PyObj.asdict, storedExtra, toEntries, List.map_cons, List.map_nil, PyObj.toJson,
        toJsonEntries, DictKey.text, hj₁, hj₂, hj₃, hj₄]
      exact congrArg (fun es => Except.ok (Json.obj es)) (ofPairs_of_nodup (by simp))
    · rw [loadMetadata, hload₁ _ "username" (by simp [List.lookup_cons]),
        hload₂ _ "hostname" (by simp [List.lookup_cons]),
        hload₃ _ "working_dir" (by simp [List.lookup_cons]),
        hload₄ _ "py_interpreter_path" (by simp [List.lookup_cons])]
      rfl
  next => simp at h

/-- A microagent is written as a dictionary and loaded as it was. -/
lemma loadKnowledge_of_isKnowledge {v : PyObj ν} (h : v.isKnowledge = true) :
    ∃ j w, v.asdict.toJson = .ok j ∧ loadKnowledge j = .ok w ∧ w.byValue = v.byValue := by
  unfold PyObj.isKnowledge at h
  split at h
  next name trigger content =>
    simp only [Bool.and_eq_true] at h
    obtain ⟨⟨h₁, h₂⟩, h₃⟩ := h
    obtain ⟨s₁, hd₁, hj₁, hv₁⟩ := toJson_of_isText h₁
    obtain ⟨s₂, hd₂, hj₂, hv₂⟩ := toJson_of_isText h₂
    obtain ⟨s₃, hd₃, hj₃, hv₃⟩ := toJson_of_isText h₃
    refine ⟨.obj [("name", .str s₁), ("trigger", .str s₂), ("content", .str s₃)],
      .record [("name", .str s₁), ("trigger", .str s₂), ("content", .str s₃)], ?_, ?_, ?_⟩
    · simp only [PyObj.asdict, asdictFields, hd₁, hd₂, hd₃, PyObj.toJson, toJsonEntries,
        DictKey.text, hj₁, hj₂, hj₃]
      exact congrArg (fun es => Except.ok (Json.obj es)) (ofPairs_of_nodup (by simp))
    · simp [loadKnowledge, List.lookup_cons, Json.toPy]
    · simp only [PyObj.byValue, byValueFields, hv₁, hv₂, hv₃]
  next => simp at h

/-- The same for a list of microagents. -/
lemma loadKnowledge_list {items : List (PyObj ν)} (h : ∀ v ∈ items, v.isKnowledge = true) :
    ∃ js ws, toJsonList (asdictList items) = .ok js ∧ js.mapM loadKnowledge = .ok ws ∧
      byValueList ws = byValueList items := by
  induction items with
  | nil => exact ⟨[], [], rfl, rfl, rfl⟩
  | cons v items ih =>
    obtain ⟨j, w, hj, hw, hvalue⟩ := loadKnowledge_of_isKnowledge (h v List.mem_cons_self)
    obtain ⟨js, ws, hjs, hws, hvalues⟩ := ih fun v hv => h v (List.mem_cons_of_mem _ hv)
    refine ⟨j :: js, w :: ws, ?_, ?_, ?_⟩
    · rw [asdictList, toJsonList, hj, hjs]
      rfl
    · rw [List.mapM_cons, hw, hws]
      rfl
    · rw [byValueList, byValueList, hvalue, hvalues]

/-- An entry of `extras` is written as the field itself where JSON has the value. -/
lemma toJson_storedExtra {v : PyObj ν} (h : v.jsonLike = true) :
    (storedExtra v).toJson = v.toJson := by
  cases v with
  | strEnum s => rfl
  | intEnum n => rfl
  | enum s => simp [PyObj.jsonLike] at h
  | model fields => simp [PyObj.jsonLike] at h
  | _ => rfl

/-- **A field in `extras`** is restored by the conversion of its class. -/
theorem restored_extra {version : String} {cls : EventClass} (hcls : cls.isAction = false)
    {f : FieldSpec ν} (hf : f ∈ cls.fields version) {v : PyObj ν} (htype : f.type.hasType v = true)
    (huntyped : f.type.untyped = true → v.jsonLike = true) :
    ∃ j w, (storedExtra v.asdict).toJson = .ok j ∧ convertExtra cls f.name j = .ok w ∧
      w.byValue = v.byValue := by
  obtain ⟨rfl, hname, ht⟩ | ⟨rfl, hname, ht⟩ | ⟨rfl, hname, ht⟩ | ⟨hord, hmeta, hrecall⟩ :=
    EventClass.extra_cases hcls f hf
  · rw [ht] at htype
    obtain ⟨entries, hstored, hload⟩ := loadMetadata_of_isMetadata htype
    refine ⟨.obj entries, v, hstored, ?_, rfl⟩
    rw [convertExtra, if_pos ⟨rfl, hname⟩, hload]
  · rw [ht] at htype
    cases v with
    | strEnum s =>
      refine ⟨.str s, .strEnum s, rfl, ?_, rfl⟩
      have hmem : s ∈ EventClass.recallTypes := by simpa [FieldType.hasType] using htype
      simp [convertExtra, hname, hmem]
    | _ => simp [FieldType.hasType] at htype
  · rw [ht] at htype
    cases v with
    | list items =>
      have hitems : ∀ w ∈ items, w.isKnowledge = true := by
        simpa [FieldType.hasType] using htype
      obtain ⟨js, ws, hjs, hws, hvalues⟩ := loadKnowledge_list hitems
      refine ⟨.arr js, .list ws, ?_, ?_, ?_⟩
      · simp only [PyObj.asdict, storedExtra, PyObj.toJson, hjs]
        rfl
      · simp [convertExtra, hname, hws]
      · rw [PyObj.byValue, PyObj.byValue, hvalues]
    | _ => simp [FieldType.hasType] at htype
  · have hjson : v.jsonLike = true := by
      cases hu : f.type.untyped with
      | true => exact huntyped hu
      | false => exact jsonLike_of_hasType hord hu htype
    obtain ⟨hasdict, j, hj, hback⟩ := toJson_of_jsonLike v hjson
    refine ⟨j, j.toPy, by rw [hasdict, toJson_storedExtra hjson, hj], ?_, hback⟩
    unfold convertExtra
    rw [if_neg fun h => hmeta h.1 h.2, if_neg fun h => (hrecall h.1).1 h.2,
      if_neg fun h => (hrecall h.1).2 h.2]

end ProRLAgent.Serialization
