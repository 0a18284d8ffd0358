import Mathlib.Data.Rat.Defs
import ProRLAgent.Events.Restored

set_option relaxedAutoImplicit false
set_option autoImplicit false

/-!
# The round trip of events

A well-typed event that is stored and loaded comes back as it was, with members of enumerations by
their values, as long as what the declared types leave open are values that JSON has, the field
`action` or `observation` names the class, and no hard timeout is set on an observation. Two classes
need more: the completion of a task in `AgentFinishAction` is unset, and the reason in the outputs
of `AgentRejectAction` is a text.

## Main definitions

* `Serialization.Event.Storable` — what a well-typed event needs to be restored.

## Main results

* `Serialization.roundTrips_of_storable` — such an event round-trips.
* `Serialization.not_roundTrips_wellTyped` — well-typed events that do not.
-/

namespace ProRLAgent.Serialization

variable {ν τ : Type}

/-- **What a well-typed event needs to be restored.** -/
structure Event.Storable (version : String) (e : Event ν τ) : Prop where
  /-- `action` or `observation` names the class. -/
  tag : e.field? e.cls.tagField = some (.str e.cls.tag) ∨
    e.field? e.cls.tagField = some (.strEnum e.cls.tag)
  /-- A field whose declared type leaves a part open holds a value that JSON has. -/
  untyped : ∀ f ∈ (e.cls.fields version : List (FieldSpec ν)), f.type.untyped = true →
    ∀ v, e.field? f.name = some v → v.jsonLike = true
  /-- No hard timeout is set on an observation. -/
  timeout : e.cls.isAction = false → e.timeout = none
  /-- The completion of a task is unset. -/
  completed : e.cls = .agentFinishAction → e.field? "task_completed" = some .none
  /-- The reason of a rejection is a text. -/
  reason : e.cls = .agentRejectAction → ∀ entries r, e.field? "outputs" = some (.dict entries) →
    reason? entries = some r → r.isText = true

/-! ## The fields of a well-typed event -/

section Fields

variable {version : String} {e : Event ν τ}

/-- The fields have the names of the class. -/
lemma Event.WellTyped.names (hw : e.WellTyped version) :
    e.fields.map Prod.fst = (e.cls.fields version : List (FieldSpec ν)).map FieldSpec.name :=
  Assoc.map_eq_of_forall₂ hw.1 fun _ _ h => h.1

/-- No name occurs twice. -/
lemma Event.WellTyped.nodup (hw : e.WellTyped version) : (e.fields.map Prod.fst).Nodup := by
  rw [hw.names]
  exact EventClass.names_nodup version e.cls

/-- A field of the class is there and holds a value of its type. -/
lemma Event.WellTyped.field (hw : e.WellTyped version) {f : FieldSpec ν}
    (hf : f ∈ e.cls.fields version) :
    ∃ v, e.field? f.name = some v ∧ f.type.hasType v = true := by
  obtain ⟨a, ha, hname, htype⟩ := Assoc.exists_of_mem hw.1 hf
  exact ⟨a.2, hname ▸ Assoc.lookup_of_mem hw.nodup ha, htype⟩

/-- A field that is there is one of the class. -/
lemma Event.WellTyped.spec (hw : e.WellTyped version) {name : String} {v : PyObj ν}
    (h : e.field? name = some v) :
    ∃ f ∈ (e.cls.fields version : List (FieldSpec ν)), f.name = name ∧ f.type.hasType v = true := by
  have hname : name ∈ e.fields.map Prod.fst := List.mem_map.mpr ⟨_, Assoc.mem_of_lookup h, rfl⟩
  rw [hw.names] at hname
  obtain ⟨f, hf, rfl⟩ := List.mem_map.mp hname
  obtain ⟨v', hv', htype⟩ := hw.field hf
  obtain rfl := Option.some.inj (h.symm.trans hv')
  exact ⟨f, hf, rfl, htype⟩

/-- A key of the top is a field only if it names the class. -/
lemma Event.WellTyped.field?_topKey (hw : e.WellTyped version) {key : String} (hkey : key ∈ topKeys)
    (hne : key ≠ e.cls.tagField) : e.field? key = none := by
  cases hv : e.field? key with
  | none => rfl
  | some v =>
    obtain ⟨f, hf, rfl, -⟩ := hw.spec hv
    exact absurd (EventClass.name_eq_tagField f hf hkey).1 hne

/-- The field that names the class is a text. -/
lemma Event.Storable.tagValue (hs : e.Storable version) :
    ∃ v, e.field? e.cls.tagField = some v ∧ v.isSet = true ∧ v.toJson = .ok (.str e.cls.tag) ∧
      v.byValue = .str e.cls.tag := by
  obtain h | h := hs.tag
  · exact ⟨_, h, rfl, rfl, rfl⟩
  · exact ⟨_, h, rfl, rfl, rfl⟩

/-- The fields of an action are values that JSON has. -/
lemma Event.WellTyped.jsonLike_of_isAction (hw : e.WellTyped version) (hs : e.Storable version)
    (hcls : e.cls.isAction = true) {name : String} {v : PyObj ν} (h : e.field? name = some v) :
    v.jsonLike = true := by
  obtain ⟨f, hf, rfl, htype⟩ := hw.spec h
  cases hu : f.type.untyped with
  | true => exact hs.untyped f hf hu v h
  | false =>
    obtain hord | ⟨hfinish, hname⟩ := EventClass.ordinary_of_isAction hcls f hf
    · exact jsonLike_of_hasType hord hu htype
    · have hnone := hs.completed hfinish
      rw [← hname, h] at hnone
      obtain rfl := Option.some.inj hnone
      rfl

end Fields

/-! ## What is stored below the top -/

section Props

variable {version : String} {e : Event ν τ}

/-- The fields that `event_to_dict` stores in `args` or `extras`. -/
def Event.props (e : Event ν τ) : List (String × PyObj ν) :=
  dropUnsetRisk ((e.fields.map fun f => (f.1, f.2.asdict)).filter fun f => f.1 ∉ topKeys)

/-- Only `None` is copied as `None`. -/
lemma asdict_eq_none_iff {v : PyObj ν} : v.asdict = .none ↔ v = .none := by
  cases v <;> simp [PyObj.asdict]

open Classical in
/-- What is stored under a name. -/
lemma Event.lookup_props (e : Event ν τ) (name : String) :
    e.props.lookup name =
      if name ∈ topKeys ∨ (name = "security_risk" ∧ e.field? name = some .none) then none
      else (e.field? name).map PyObj.asdict := by
  have hall : ∀ name, ((e.fields.map fun f => (f.1, f.2.asdict)).filter
      fun f => f.1 ∉ topKeys).lookup name =
        if name ∈ topKeys then none else (e.field? name).map PyObj.asdict := by
    intro name
    rw [Assoc.lookup_filter (fun k => decide (k ∉ topKeys)), Assoc.lookup_map]
    by_cases h : name ∈ topKeys <;> simp [h, Event.field?]
  have hrisk : "security_risk" ∉ topKeys := by decide
  rw [Event.props, dropUnsetRisk, hall, if_neg hrisk]
  split
  next hnone =>
    -- The risk is `None`, and its entry is dropped.
    obtain ⟨v, hv, hasdict⟩ := Option.map_eq_some_iff.mp hnone
    obtain rfl := asdict_eq_none_iff.1 hasdict
    rw [Assoc.lookup_filter (fun k => decide (k ≠ "security_risk")), hall]
    by_cases hname : name = "security_risk"
    · simp [hname, hv]
    · simp [hname]
  next hnone =>
    rw [hall]
    by_cases hname : name = "security_risk"
    · subst hname
      have hset : e.field? "security_risk" ≠ some .none := fun h => hnone (by rw [h]; rfl)
      simp [hrisk, hset]
    · simp [hname]

/-- The names of what is stored are among the names of the fields. -/
lemma Event.props_sublist (e : Event ν τ) :
    List.Sublist (e.props.map Prod.fst) (e.fields.map Prod.fst) := by
  have hall : List.Sublist (((e.fields.map fun f => (f.1, f.2.asdict)).filter
      fun f => f.1 ∉ topKeys).map Prod.fst) (e.fields.map Prod.fst) := by
    have h := (List.filter_sublist (p := fun f : String × PyObj ν => decide (f.1 ∉ topKeys))
      (l := e.fields.map fun f => (f.1, f.2.asdict))).map Prod.fst
    rwa [List.map_map] at h
  rw [Event.props, dropUnsetRisk]
  split
  · exact (List.filter_sublist.map Prod.fst).trans hall
  · exact hall

/-- **A field of the class** is stored as it is, or it is left out and has its default. -/
lemma Event.WellTyped.props_cases (hw : e.WellTyped version) (hs : e.Storable version)
    {f : FieldSpec ν} (hf : f ∈ e.cls.fields version) :
    ∃ v, e.field? f.name = some v ∧ f.type.hasType v = true ∧
      (e.props.lookup f.name = some v.asdict ∨
        (e.props.lookup f.name = none ∧ ∃ d, f.default = some d ∧ d.byValue = v.byValue)) := by
  obtain ⟨v, hv, htype⟩ := hw.field hf
  refine ⟨v, hv, htype, ?_⟩
  rw [Event.lookup_props, hv]
  by_cases htop : f.name ∈ topKeys
  · obtain ⟨hname, hdefault⟩ := EventClass.name_eq_tagField f hf htop
    obtain ⟨v', hv', -, -, hvalue⟩ := hs.tagValue
    obtain rfl : v = v' := Option.some.inj (by rw [← hv, hname, hv'])
    exact Or.inr ⟨by simp [htop], _, hdefault, by rw [hvalue]; rfl⟩
  · by_cases hrisk : f.name = "security_risk" ∧ v = .none
    · obtain ⟨hname, rfl⟩ := hrisk
      exact Or.inr ⟨by simp [hname], _, EventClass.default_securityRisk f hf hname, rfl⟩
    · left
      rw [if_neg (by simp only [htop, Option.some.injEq, false_or]; exact hrisk), Option.map_some]

/-- What is stored under a name is a field. -/
lemma Event.field?_of_props {name : String} {w : PyObj ν} (h : e.props.lookup name = some w) :
    ∃ v, e.field? name = some v ∧ w = v.asdict ∧ name ∉ topKeys := by
  rw [Event.lookup_props] at h
  split at h
  · simp at h
  next hnot =>
    obtain ⟨v, hv, rfl⟩ := Option.map_eq_some_iff.mp h
    exact ⟨v, hv, rfl, fun hmem => hnot (Or.inl hmem)⟩

/-- Nothing is stored under a deprecated name. -/
lemma Event.WellTyped.props_deprecated (hw : e.WellTyped version) {name : String}
    (hname : name ∈ EventClass.deprecatedKeys) : e.props.lookup name = none := by
  cases h : e.props.lookup name with
  | none => rfl
  | some w =>
    obtain ⟨v, hv, -, -⟩ := Event.field?_of_props h
    obtain ⟨f, hf, rfl, -⟩ := hw.spec hv
    exact absurd hname (EventClass.name_notMem_deprecatedKeys f hf)

end Props

/-! ## The stored event -/

section Stored

variable {version : String} {e : Event ν τ}

/-- Entries with texts as keys are written one by one. -/
lemma toJsonEntries_toEntries (es : List (String × PyObj ν)) :
    toJsonEntries (toEntries es) = es.mapM fun a => do return (a.1, ← a.2.toJson) := by
  induction es with
  | nil => rfl
  | cons a es ih =>
    have hcons : toEntries (a :: es) = (.str a.1, a.2) :: toEntries es := rfl
    rw [hcons, toJsonEntries, ih, List.mapM_cons]
    cases a.2.toJson with
    | error err => rfl
    | ok j => rfl

/-- **A dictionary whose keys are texts** is written as an object with the same keys. -/
lemma toJson_dict {es : List (String × PyObj ν)} (hnodup : (es.map Prod.fst).Nodup)
    (h : ∀ a ∈ es, ∃ j, a.2.toJson = .ok j) :
    ∃ js, (PyObj.dict (toEntries es)).toJson = .ok (.obj js) ∧ js.map Prod.fst = es.map Prod.fst ∧
      ∀ k, js.lookup k = (es.lookup k).bind fun v => v.toJson.toOption := by
  obtain ⟨js, hjs, hkeys, hlookup⟩ := Assoc.exists_mapM_lookup (g := fun _ v => PyObj.toJson v) h
  refine ⟨js, ?_, hkeys, hlookup⟩
  rw [PyObj.toJson, toJsonEntries_toEntries, hjs]
  exact congrArg (fun es => Except.ok (Json.obj es)) (ofPairs_of_nodup (hkeys ▸ hnodup))

/-- The message of the event is there. -/
lemma Event.WellTyped.message_eq (hw : e.WellTyped version) (hs : e.Storable version)
    (text : Event ν τ → String) : e.message text = .ok (text e) := by
  unfold Event.message
  split
  next hcls =>
    split
    next entries houtputs =>
      split
      next r hr => rw [if_pos (hs.reason hcls entries r houtputs hr)]
      next => rfl
    next => rfl
  next hcls => rw [if_pos (by rw [hw.2 hcls, Bool.or_true])]
  next => rfl

/-- What is stored at the top can be written. -/
lemma Event.WellTyped.toJson_topValue (hw : e.WellTyped version) (hs : e.Storable version)
    (T : ToolCalls ν τ) {message key : String} {v : PyObj ν}
    (h : topValue T e message key = some v) : ∃ j, v.toJson = .ok j := by
  have htag : ∀ key ∈ topKeys, (e.field? key).filter PyObj.isSet = some v →
      ∃ j, v.toJson = .ok j := by
    intro key hkey h
    by_cases hname : key = e.cls.tagField
    · obtain ⟨v', hv', hset, hjson, -⟩ := hs.tagValue
      rw [hname, hv', Option.filter_some, if_pos hset] at h
      exact ⟨_, Option.some.inj h ▸ hjson⟩
    · rw [hw.field?_topKey hkey hname] at h
      simp at h
  unfold topValue at h
  split at h
  · split at h
    · simp at h
    · obtain ⟨n, -, rfl⟩ := Option.map_eq_some_iff.mp h
      exact ⟨_, rfl⟩
  · obtain ⟨s, -, rfl⟩ := Option.map_eq_some_iff.mp h
    exact ⟨_, rfl⟩
  · obtain ⟨s, -, rfl⟩ := Option.map_eq_some_iff.mp h
    exact ⟨_, rfl⟩
  · obtain rfl := Option.some.inj h
    exact ⟨_, rfl⟩
  · obtain ⟨n, -, rfl⟩ := Option.map_eq_some_iff.mp h
    exact ⟨_, rfl⟩
  · exact htag "action" (by decide) h
  · exact htag "observation" (by decide) h
  · obtain ⟨m, -, rfl⟩ := Option.map_eq_some_iff.mp h
    obtain ⟨j, hj, -⟩ := T.round m
    exact ⟨j, hj⟩
  · simp at h

/-- The keys of the top that are stored. -/
def topEntries (T : ToolCalls ν τ) (e : Event ν τ) (message : String) : List (String × PyObj ν) :=
  topKeys.filterMap fun key => (topValue T e message key).map fun v => (key, v)

/-- **The stored event**: what is written under the keys of the top and under the others. -/
lemma Event.WellTyped.dumps_eq (hw : e.WellTyped version) (hs : e.Storable version)
    (T : ToolCalls ν τ) (message : String) (rest : List (String × PyObj ν))
    (hnodup : (rest.map Prod.fst).Nodup) (htop : ∀ a ∈ rest, a.1 ∉ topKeys)
    (hrest : ∀ a ∈ rest, ∃ j, a.2.toJson = .ok j) :
    ∃ data, dumps (topEntries T e message ++ rest) = .ok (.obj data) ∧
      (∀ k ∈ topKeys, data.lookup k =
        (topValue T e message k).bind fun v => v.toJson.toOption) ∧
      ∀ k ∉ topKeys, data.lookup k = (rest.lookup k).bind fun v => v.toJson.toOption := by
  have hsub := Assoc.map_fst_filterMap_sublist (topValue T e message) topKeys
  have hkeys : ((topEntries T e message ++ rest).map Prod.fst).Nodup := by
    rw [List.map_append, List.nodup_append]
    refine ⟨hsub.nodup (by decide), hnodup, ?_⟩
    rintro k hk k' hk' rfl
    obtain ⟨a, ha, rfl⟩ := List.mem_map.mp hk'
    exact htop a ha (hsub.subset hk)
  have hjson : ∀ a ∈ topEntries T e message ++ rest, ∃ j, a.2.toJson = .ok j := by
    intro a ha
    obtain ha | ha := List.mem_append.mp ha
    · obtain ⟨k, -, hk⟩ := List.mem_filterMap.mp ha
      obtain ⟨v, hv, rfl⟩ := Option.map_eq_some_iff.mp hk
      exact hw.toJson_topValue hs T hv
    · exact hrest a ha
  obtain ⟨data, hdata, -, hlookup⟩ := toJson_dict hkeys hjson
  refine ⟨data, hdata, fun k hk => ?_, fun k hk => ?_⟩
  · have hnot : rest.lookup k = none := by
      rw [Assoc.lookup_eq_none_iff]
      rintro hmem
      obtain ⟨a, ha, rfl⟩ := List.mem_map.mp hmem
      exact htop a ha hk
    rw [hlookup, List.lookup_append, topEntries, Assoc.lookup_filterMap, if_pos hk, hnot,
      Option.or_none]
  · rw [hlookup, List.lookup_append, topEntries, Assoc.lookup_filterMap, if_neg hk, Option.none_or]

end Stored

/-! ## Calling the class -/

section Construct

variable {version : String}

/-- Equal fields, with enumerations by their values. -/
def SameFields (fields fields' : List (String × PyObj ν)) : Prop :=
  List.Forall₂ (fun a b => b.1 = a.1 ∧ b.2.byValue = a.2.byValue) fields fields'

/-- What `byValue` changes is set before and after. -/
lemma isSet_byValue (v : PyObj ν) : v.byValue.isSet = v.isSet := by
  cases v <;> rfl

/-- Equal fields are set in both. -/
lemma SameFields.isSetField {fields fields' : List (String × PyObj ν)}
    (h : SameFields fields fields') (name : String) :
    isSetField fields' name = isSetField fields name := by
  induction h with
  | nil => rfl
  | @cons a b fields fields' hhead _ ih =>
    unfold Serialization.isSetField at ih ⊢
    rw [Assoc.lookup_cons_of, Assoc.lookup_cons_of, hhead.1]
    by_cases hname : name = a.1
    · rw [if_pos hname, if_pos hname, Option.any_some, Option.any_some, ← isSet_byValue,
        hhead.2, isSet_byValue]
    · rw [if_neg hname, if_neg hname, ih]

/-- Equal fields are accepted together. -/
lemma SameFields.validate {fields fields' : List (String × PyObj ν)}
    (h : SameFields fields fields') :
    validateFieldPolymorphism fields' = validateFieldPolymorphism fields := by
  simp only [validateFieldPolymorphism, h.isSetField]

/-- **Calling the class** with arguments that are the fields, by their values, or are left out where
the default is. -/
lemma construct_eq {cls : EventClass} {args fields : List (String × PyObj ν)}
    (hnames : fields.map Prod.fst = (cls.fields version : List (FieldSpec ν)).map FieldSpec.name)
    (hargs : ∀ a ∈ args, a.1 ∈ fields.map Prod.fst)
    (hvalue : ∀ f ∈ (cls.fields version : List (FieldSpec ν)), ∃ v w,
      fields.lookup f.name = some v ∧ (args.lookup f.name).or f.default = some w ∧
        w.byValue = v.byValue)
    (hvalid : cls = .condensationAction → validateFieldPolymorphism fields = true) :
    ∃ fields', construct version cls args = .ok fields' ∧ SameFields fields fields' := by
  have hnodup : (fields.map Prod.fst).Nodup := by
    rw [hnames]
    exact EventClass.names_nodup version cls
  have hany : (args.any fun a => decide (a.1 ∉
      (cls.fields version : List (FieldSpec ν)).map FieldSpec.name)) = false := by
    rw [List.any_eq_false]
    intro a ha
    simpa [← hnames] using hargs a ha
  -- Every field gets a value, equal to that of the given fields.
  have hfield : ∀ f ∈ (cls.fields version : List (FieldSpec ν)), ∃ b, fieldOf args f = .ok b ∧
      b.1 = f.name ∧ ∃ v, fields.lookup f.name = some v ∧ b.2.byValue = v.byValue := by
    intro f hf
    obtain ⟨v, w, hv, hw, hsame⟩ := hvalue f hf
    refine ⟨(f.name, w), ?_, rfl, v, hv, hsame⟩
    rw [fieldOf]
    cases harg : args.lookup f.name with
    | some w' =>
      rw [harg, Option.some_or] at hw
      rw [Option.some.inj hw]
    | none =>
      rw [harg, Option.none_or] at hw
      rw [hw]
  obtain ⟨fields', hfields', hrel⟩ := Except.exists_mapM_eq_ok hfield
  have hkeys : fields'.map Prod.fst = fields.map Prod.fst :=
    hnames ▸ Assoc.map_eq_of_forall₂ hrel fun _ _ h => h.1
  have hsame : SameFields fields fields' := by
    refine Assoc.forall₂_of_lookup (R := fun v w : PyObj ν => w.byValue = v.byValue) hkeys hnodup
      fun k v w hv hw => ?_
    obtain ⟨f, -, hname, v', hv', hvalue⟩ :=
      Assoc.exists_of_mem hrel.flip (Assoc.mem_of_lookup hw)
    obtain rfl : v = v' := Option.some.inj (by rw [← hv, ← hv', ← hname])
    exact hvalue
  refine ⟨fields', ?_, hsame⟩
  have hcheck : (cls = .condensationAction && !validateFieldPolymorphism fields') = false := by
    rw [hsame.validate]
    by_cases hcls : cls = .condensationAction
    · simp [hvalid hcls]
    · simp [hcls]
  simp only [construct, hany, Bool.false_and, Bool.false_eq_true, if_false, hfields']
  exact if_neg (by rw [hcheck]; exact Bool.false_ne_true)

/-- A key that does not occur has nothing to be removed. -/
lemma popEntry_of_lookup {α : Type} {entries : List (String × α)} {key : String}
    (h : entries.lookup key = none) : popEntry key entries = entries := by
  rw [popEntry, List.filter_eq_self]
  intro a ha
  rw [Assoc.lookup_eq_none_iff] at h
  exact decide_eq_true fun hkey => h (hkey ▸ List.mem_map_of_mem ha)

/-- Setting `blocking` to the value that it has. -/
lemma SameFields.setBlocking {fields fields' : List (String × PyObj ν)} {b : PyObj ν}
    (h : SameFields fields fields')
    (hb : ∀ a ∈ fields, a.1 = "blocking" → b.byValue = a.2.byValue) :
    SameFields fields (setBlocking b fields') := by
  induction h with
  | nil => exact .nil
  | @cons a a' fields fields' hhead _ ih =>
    refine .cons ?_ (ih fun x hx => hb x (List.mem_cons_of_mem _ hx))
    by_cases hname : a'.1 = "blocking"
    · simp only [if_pos hname]
      exact ⟨hhead.1, hb a List.mem_cons_self (hhead.1 ▸ hname)⟩
    · simp only [if_neg hname]
      exact hhead

end Construct

/-! ## Loading an action -/

section Action

variable {version : String} {e : Event ν τ}

/-- **`action_from_dict`** on arguments without deprecated keys. -/
lemma actionFromDict_eq {cls : EventClass} (hcls : cls.isAction = true)
    (literalEval : String → Option (List (String × Json ν))) {data args : List (String × Json ν)}
    {fields : List (String × PyObj ν)} {timeout : Option ν}
    (htag : data.lookup "action" = some (.str cls.tag))
    (hargs : data.lookup "args" = some (.obj args))
    (hdeprecated : ∀ k ∈ EventClass.deprecatedKeys, args.lookup k = none)
    (hfields : construct version cls (args.map fun a => (a.1, a.2.toPy)) = .ok fields)
    (htimeout : data.lookup "timeout" = timeout.map Json.float) :
    actionFromDict (τ := τ) version literalEval data = .ok
      { cls := cls
        fields := if timeout.isSome then
          setBlocking (((args.lookup "blocking").map Json.toPy).getD (.bool false)) fields
        else fields
        timeout := timeout } := by
  have h₁ := hdeprecated "timestamp" (by decide)
  have h₂ := hdeprecated "is_confirmed" (by decide)
  have h₃ := hdeprecated "images_urls" (by decide)
  have h₄ := hdeprecated "keep_prompt" (by decide)
  have h₅ := hdeprecated "translated_ipython_code" (by decide)
  have hold : handleActionDeprecatedArgs literalEval args = .ok args := by
    rw [handleActionDeprecatedArgs, popEntry_of_lookup h₄, h₅]
    rfl
  have hcall : malformed (construct version cls (args.map fun a => (a.1, a.2.toPy))) =
      .ok fields := by
    rw [hfields]
    rfl
  simp only [actionFromDict, htag, EventClass.find?_actions hcls, hargs, pure_bind, h₁,
    popEntry_of_lookup h₁, h₂, popEntry_of_lookup h₂, h₃, hold, Except.ok_bind, hcall, htimeout]
  cases timeout with
  | none => rfl
  | some x => rfl

/-- **The arguments of an action** are restored. -/
lemma Event.WellTyped.restored_action (hw : e.WellTyped version) (hs : e.Storable version)
    (hcls : e.cls.isAction = true) :
    ∃ args fields', (PyObj.dict (toEntries e.props)).toJson = .ok (.obj args) ∧
      (∀ k ∈ EventClass.deprecatedKeys, args.lookup k = none) ∧
      construct version e.cls (args.map fun a => (a.1, a.2.toPy)) = .ok fields' ∧
      SameFields e.fields fields' ∧
      ∀ a ∈ e.fields, a.1 = "blocking" →
        (((args.lookup "blocking").map Json.toPy).getD (.bool false)).byValue = a.2.byValue := by
  have hnodup := e.props_sublist.nodup hw.nodup
  have hjson : ∀ a ∈ e.props, ∃ j, a.2.toJson = .ok j := by
    intro a ha
    obtain ⟨v, hv, hasdict, -⟩ := Event.field?_of_props (Assoc.lookup_of_mem hnodup ha)
    obtain ⟨hcopy, j, hj, -⟩ := toJson_of_jsonLike v (hw.jsonLike_of_isAction hs hcls hv)
    exact ⟨j, by rw [hasdict, hcopy, hj]⟩
  obtain ⟨args, hargs, hkeys, hlookup⟩ := toJson_dict hnodup hjson
  have hstored : ∀ name v, e.field? name = some v → e.props.lookup name = some v.asdict →
      ∃ j, args.lookup name = some j ∧ j.toPy.byValue = v.byValue := by
    intro name v hv hprops
    obtain ⟨hcopy, j, hj, hback⟩ := toJson_of_jsonLike v (hw.jsonLike_of_isAction hs hcls hv)
    exact ⟨j, by rw [hlookup, hprops, Option.bind_some, hcopy, hj]; rfl, hback⟩
  have hcall : ∃ fields', construct version e.cls (args.map fun a => (a.1, a.2.toPy)) =
      .ok fields' ∧ SameFields e.fields fields' := by
    refine construct_eq hw.names (fun a ha => ?_) (fun f hf => ?_) hw.2
    · obtain ⟨x, hx, rfl⟩ := List.mem_map.mp ha
      exact e.props_sublist.subset (hkeys ▸ List.mem_map_of_mem hx)
    · rw [Assoc.lookup_map]
      obtain ⟨v, hv, -, hprops | ⟨hprops, d, hd, hvalue⟩⟩ := hw.props_cases hs hf
      · obtain ⟨j, hj, hback⟩ := hstored f.name v hv hprops
        exact ⟨v, j.toPy, hv, by rw [hj]; rfl, hback⟩
      · exact ⟨v, d, hv, by rw [hlookup, hprops]; exact hd, hvalue⟩
  obtain ⟨fields', hfields', hsame⟩ := hcall
  refine ⟨args, fields', hargs, fun k hk => ?_, hfields', hsame, fun a ha hname => ?_⟩
  · rw [hlookup, hw.props_deprecated hk]
    rfl
  · have hv : e.field? "blocking" = some a.2 := hname ▸ Assoc.lookup_of_mem hw.nodup ha
    have hprops : e.props.lookup "blocking" = some a.2.asdict := by
      rw [Event.lookup_props, if_neg (by simp [topKeys]), hv, Option.map_some]
    obtain ⟨j, hj, hback⟩ := hstored "blocking" a.2 hv hprops
    rw [hj, Option.map_some, Option.getD_some, hback]

end Action

/-! ## Loading an observation -/

section Observation

variable {version : String} {e : Event ν τ}

/-- **`observation_from_dict`** on extras without deprecated keys. -/
lemma observationFromDict_eq {cls : EventClass} (hcls : cls.isAction = false)
    {data extras : List (String × Json ν)} {extras' fields : List (String × PyObj ν)}
    {content : Json ν} (htag : data.lookup "observation" = some (.str cls.tag))
    (hcontent : data.lookup "content" = some content)
    (hextras : data.lookup "extras" = some (.obj extras))
    (hdeprecated : ∀ k ∈ EventClass.deprecatedKeys, extras.lookup k = none)
    (hconvert : (extras.mapM fun a => do return (a.1, ← convertExtra cls a.1 a.2)) = .ok extras')
    (honce : extras'.lookup "content" = none)
    (hfields : construct version cls (("content", content.toPy) :: extras') = .ok fields) :
    observationFromDict (τ := τ) version data = .ok { cls := cls, fields := fields } := by
  have hold : handleObservationDeprecatedExtras extras = extras := by
    rw [handleObservationDeprecatedExtras, hdeprecated "exit_code" (by decide)]
    simp only [hdeprecated "command_id" (by decide)]
    exact popEntry_of_lookup (hdeprecated _ (by decide))
  simp only [observationFromDict, htag, EventClass.find?_observations hcls, hcontent,
    Option.getD_some, hextras, pure_bind, hold, hconvert, Except.ok_bind, honce, hfields]
  rfl

/-- The entries of `extras`. -/
def Event.extras (e : Event ν τ) : List (String × PyObj ν) :=
  (e.props.filter fun f => f.1 ≠ "content").map fun f => (f.1, storedExtra f.2)

/-- What is stored in `extras`. -/
lemma Event.lookup_extras (e : Event ν τ) (name : String) :
    e.extras.lookup name =
      if name = "content" then none else (e.props.lookup name).map storedExtra := by
  rw [Event.extras, Assoc.lookup_map, Assoc.lookup_filter (fun k => decide (k ≠ "content"))]
  by_cases h : name = "content"
  · simp [h]
  · simp [h]

/-- The names in `extras` are among the names of the fields. -/
lemma Event.extras_sublist (e : Event ν τ) :
    List.Sublist (e.extras.map Prod.fst) (e.fields.map Prod.fst) := by
  have h : List.Sublist (e.extras.map Prod.fst) (e.props.map Prod.fst) := by
    rw [Event.extras, List.map_map]
    exact List.filter_sublist.map Prod.fst
  exact h.trans e.props_sublist

/-- **The content and the extras of an observation** are restored. -/
lemma Event.WellTyped.restored_observation (hw : e.WellTyped version) (hs : e.Storable version)
    (hcls : e.cls.isAction = false) :
    ∃ content v extras extras' fields', e.props.lookup "content" = some v ∧
      v.toJson = .ok content ∧ (PyObj.dict (toEntries e.extras)).toJson = .ok (.obj extras) ∧
      (∀ k ∈ EventClass.deprecatedKeys, extras.lookup k = none) ∧
      (extras.mapM fun a => do return (a.1, ← convertExtra e.cls a.1 a.2)) = .ok extras' ∧
      extras'.lookup "content" = none ∧
      construct version e.cls (("content", content.toPy) :: extras') = .ok fields' ∧
      SameFields e.fields fields' := by
  have hnodup := e.extras_sublist.nodup hw.nodup
  have hrestored : ∀ name u, e.extras.lookup name = some u → ∃ v, e.field? name = some v ∧
      ∃ j w, u.toJson = .ok j ∧ convertExtra e.cls name j = .ok w ∧ w.byValue = v.byValue := by
    intro name u hu
    rw [Event.lookup_extras] at hu
    split at hu
    · simp at hu
    · obtain ⟨p, hp, rfl⟩ := Option.map_eq_some_iff.mp hu
      obtain ⟨v, hv, rfl, -⟩ := Event.field?_of_props hp
      obtain ⟨f, hf, rfl, htype⟩ := hw.spec hv
      exact ⟨v, hv, restored_extra hcls hf htype fun h => hs.untyped f hf h v hv⟩
  have hjson : ∀ a ∈ e.extras, ∃ j, a.2.toJson = .ok j := by
    intro a ha
    obtain ⟨-, -, j, -, hj, -, -⟩ := hrestored a.1 a.2 (Assoc.lookup_of_mem hnodup ha)
    exact ⟨j, hj⟩
  obtain ⟨extras, hextras, hkeys, hlookup⟩ := toJson_dict hnodup hjson
  -- Every entry of the stored extras is converted.
  have hconvert : ∀ a ∈ extras, ∃ w, convertExtra e.cls a.1 a.2 = .ok w := by
    intro a ha
    have ha := Assoc.lookup_of_mem (hkeys ▸ hnodup) ha
    rw [hlookup, Option.bind_eq_some_iff] at ha
    obtain ⟨u, hu, hj'⟩ := ha
    obtain ⟨-, -, j, w, hj, hw, -⟩ := hrestored a.1 u hu
    rw [hj] at hj'
    obtain rfl := Option.some.inj hj'
    exact ⟨w, hw⟩
  obtain ⟨extras', hextras', hkeys', hlookup'⟩ := Assoc.exists_mapM_lookup hconvert
  have honce : e.extras.lookup "content" = none := by rw [Event.lookup_extras, if_pos rfl]
  -- The content is a text.
  have hcontent : (⟨"content", .str, none⟩ : FieldSpec ν) ∈ e.cls.fields version :=
    EventClass.content_mem hcls
  obtain ⟨c, hc, hctype, hprops | ⟨-, d, hd, -⟩⟩ := hw.props_cases hs hcontent
  case inr => simp at hd
  obtain ⟨text, hcopy, htext, htextValue⟩ := toJson_of_isText hctype
  have hcall : ∃ fields', construct version e.cls
      (("content", (Json.str text).toPy) :: extras') = .ok fields' ∧
      SameFields e.fields fields' := by
    refine construct_eq hw.names (fun a ha => ?_) (fun f hf => ?_) hw.2
    · obtain rfl | ha := List.mem_cons.mp ha
      · exact List.mem_map.mpr ⟨_, Assoc.mem_of_lookup hc, rfl⟩
      · exact e.extras_sublist.subset (hkeys ▸ hkeys' ▸ List.mem_map_of_mem ha)
    · rw [Assoc.lookup_cons_of]
      by_cases hname : f.name = "content"
      · rw [if_pos hname, hname]
        exact ⟨c, _, hc, rfl, htextValue.symm⟩
      · rw [if_neg hname, hlookup', hlookup]
        obtain ⟨v, hv, -, hstored | ⟨hstored, d, hd, hvalue⟩⟩ := hw.props_cases hs hf
        · have hextra : e.extras.lookup f.name = some (storedExtra v.asdict) := by
            rw [Event.lookup_extras, if_neg hname, hstored, Option.map_some]
          obtain ⟨v', hv', j, w, hj, hw', hvalue⟩ := hrestored f.name _ hextra
          obtain rfl := Option.some.inj (hv.symm.trans hv')
          refine ⟨v, w, hv, ?_, hvalue⟩
          rw [hextra, Option.bind_some, hj]
          simp [Except.toOption, hw']
        · have hextra : e.extras.lookup f.name = none := by
            rw [Event.lookup_extras, if_neg hname, hstored, Option.map_none]
          exact ⟨v, d, hv, by rw [hextra]; exact hd, hvalue⟩
  obtain ⟨fields', hfields', hsame⟩ := hcall
  refine ⟨.str text, c.asdict, extras, extras', fields', hprops, by rw [hcopy, htext], hextras,
    fun k hk => ?_, hextras', by rw [hlookup', hlookup, honce]; rfl, hfields', hsame⟩
  rw [hlookup, Event.lookup_extras, hw.props_deprecated hk]
  split <;> rfl

end Observation

/-! ## The attributes -/

/-- **The attributes** are restored from the top of the stored event. -/
lemma setAttributes_eq (T : ToolCalls ν τ) {e : Event ν τ} {message : String}
    {data : List (String × Json ν)}
    (hdata : ∀ k ∈ topKeys, data.lookup k =
      (topValue T e message k).bind fun v => v.toJson.toOption)
    (cls : EventClass) (fields : List (String × PyObj ν)) (timeout : Option ν) :
    setAttributes T data { cls := cls, fields := fields, timeout := timeout } = .ok
      { cls := cls
        fields := fields
        timeout := timeout
        id := if e.id.getD (-1) = -1 then none else e.id
        timestamp := e.timestamp
        source := e.source
        cause := e.cause
        toolCallMetadata := e.toolCallMetadata } := by
  have hid : loadInt data "id" none = .ok (if e.id.getD (-1) = -1 then none else e.id) := by
    rw [loadInt, hdata "id" (by decide), topValue]
    split_ifs
    · rfl
    · cases e.id <;> rfl
  have htimestamp : loadTimestamp data none = e.timestamp := by
    rw [loadTimestamp, hdata "timestamp" (by decide), topValue]
    cases e.timestamp <;> rfl
  have hsource : loadSource data none = .ok e.source := by
    rw [loadSource, hdata "source" (by decide), topValue]
    cases e.source with
    | none => rfl
    | some s => cases s <;> rfl
  have hcause : loadInt data "cause" none = .ok e.cause := by
    rw [loadInt, hdata "cause" (by decide), topValue]
    cases e.cause <;> rfl
  have htool : loadToolCallMetadata T data none = .ok e.toolCallMetadata := by
    rw [loadToolCallMetadata, hdata "tool_call_metadata" (by decide), topValue]
    cases e.toolCallMetadata with
    | none => rfl
    | some m =>
      obtain ⟨j, hj, hload⟩ := T.round m
      simp [hj, hload, Except.toOption, Except.map]
  simp only [setAttributes, hid, htimestamp, hsource, hcause, htool, Except.ok_bind]
  rfl

/-! ## The round trip -/

section RoundTrip

variable {version : String} {e : Event ν τ}

/-- The stored event names its class. -/
lemma Event.Storable.topValue_tagField (hs : e.Storable version) (T : ToolCalls ν τ)
    (message : String) :
    ∃ v, topValue T e message e.cls.tagField = some v ∧ v.toJson = .ok (.str e.cls.tag) := by
  obtain ⟨v, hv, hset, hjson, -⟩ := hs.tagValue
  have hfilter : (e.field? e.cls.tagField).filter PyObj.isSet = some v := by
    rw [hv, Option.filter_some, if_pos hset]
  refine ⟨v, ?_, hjson⟩
  have hname : e.cls.tagField = "action" ∨ e.cls.tagField = "observation" := by
    rw [EventClass.tagField]
    split <;> simp
  obtain hname | hname := hname
  · rw [hname] at hfilter ⊢
    rw [topValue, hfilter]
  · rw [hname] at hfilter ⊢
    rw [topValue, hfilter]

/-- Under a key of the top the entries have its value. -/
lemma lookup_topEntries (T : ToolCalls ν τ) (e : Event ν τ) (message : String) (key : String)
    (hkey : key ∈ topKeys) :
    (topEntries T e message).lookup key = topValue T e message key := by
  rw [topEntries, Assoc.lookup_filterMap, if_pos hkey]

/-- What is loaded with the fields and the timeout is the event. -/
lemma sameEvent_of_fields {fields : List (String × PyObj ν)}
    (hfields : SameFields e.fields fields) :
    SameEvent e { e with
      fields := fields
      id := if e.id.getD (-1) = -1 then none else e.id } where
  cls := rfl
  fields := hfields
  id := by
    split_ifs with h
    · exact h.symm
    · rfl
  timestamp := rfl
  source := rfl
  cause := rfl
  timeout := rfl
  toolCallMetadata := rfl

/-- Actions round-trip. -/
lemma roundTrips_of_isAction (hw : e.WellTyped version) (hs : e.Storable version)
    (hcls : e.cls.isAction = true) (T : ToolCalls ν τ) (text : Event ν τ → String)
    (literalEval : String → Option (List (String × Json ν))) :
    RoundTrips version T text literalEval e := by
  have htagField : e.cls.tagField = "action" := by rw [EventClass.tagField, if_pos hcls]
  obtain ⟨tag, htag, htagJson⟩ := hs.topValue_tagField T (text e)
  rw [htagField] at htag
  obtain ⟨args, fields, hargs, hdeprecated, hcall, hsame, hblocking⟩ := hw.restored_action hs hcls
  have hstored : eventToDict T text e = .ok (topEntries T e (text e) ++
      ([("args", PyObj.dict (toEntries e.props))] ++
        (e.timeout.map fun x => ("timeout", PyObj.float x)).toList)) := by
    have haction := lookup_topEntries T e (text e) "action" (by decide)
    rw [topEntries, htag] at haction
    simp only [eventToDict, hw.message_eq hs text, Except.ok_bind, haction, Option.isSome_some,
      if_true]
    rfl
  obtain ⟨data, hdumps, htop, hrest⟩ := hw.dumps_eq hs T (text e)
    ([("args", PyObj.dict (toEntries e.props))] ++
      (e.timeout.map fun x => ("timeout", PyObj.float x)).toList)
    (by cases e.timeout <;> simp) (by cases e.timeout <;> simp [topKeys])
    (by
      intro a ha
      cases htimeout : e.timeout with
      | none =>
        obtain rfl : a = ("args", PyObj.dict (toEntries e.props)) := by simpa [htimeout] using ha
        exact ⟨_, hargs⟩
      | some x =>
        obtain rfl | rfl : a = ("args", PyObj.dict (toEntries e.props)) ∨
            a = ("timeout", PyObj.float x) := by
          simpa [htimeout] using ha
        · exact ⟨_, hargs⟩
        · exact ⟨_, rfl⟩)
  have haction : data.lookup "action" = some (.str e.cls.tag) := by
    rw [htop "action" (by decide), htag, Option.bind_some, htagJson]
    rfl
  have hargsData : data.lookup "args" = some (.obj args) := by
    rw [hrest "args" (by decide), List.cons_append, List.nil_append, List.lookup_cons_self,
      Option.bind_some, hargs]
    rfl
  have htimeout : data.lookup "timeout" = e.timeout.map Json.float := by
    rw [hrest "timeout" (by decide)]
    cases e.timeout <;> rfl
  have hloaded : SameFields e.fields (if e.timeout.isSome then
      setBlocking (((args.lookup "blocking").map Json.toPy).getD (.bool false)) fields
      else fields) := by
    split_ifs
    · exact hsame.setBlocking hblocking
    · exact hsame
  refine ⟨_, _, _, hstored, hdumps, ?_, sameEvent_of_fields hloaded⟩
  rw [eventFromDict, haction, Option.isSome_some, if_pos rfl,
    actionFromDict_eq hcls literalEval haction hargsData hdeprecated hcall htimeout,
    Except.ok_bind, setAttributes_eq T htop]

/-- Observations round-trip. -/
lemma roundTrips_of_isObservation (hw : e.WellTyped version) (hs : e.Storable version)
    (hcls : e.cls.isAction = false) (T : ToolCalls ν τ) (text : Event ν τ → String)
    (literalEval : String → Option (List (String × Json ν))) :
    RoundTrips version T text literalEval e := by
  have htagField : e.cls.tagField = "observation" := by
    rw [EventClass.tagField, hcls, if_neg Bool.false_ne_true]
  obtain ⟨tag, htag, htagJson⟩ := hs.topValue_tagField T (text e)
  rw [htagField] at htag
  obtain ⟨content, c, extras, extras', fields, hc, hcontent, hextras, hdeprecated, hconvert, honce,
    hcall, hsame⟩ := hw.restored_observation hs hcls
  have hnoAction : topValue T e (text e) "action" = none := by
    rw [topValue, hw.field?_topKey (by decide) (by rw [htagField]; decide)]
    rfl
  have hstored : eventToDict T text e = .ok (topEntries T e (text e) ++
      ([("content", c), ("extras", .dict (toEntries e.extras))] ++
        (e.success?.map fun b => ("success", PyObj.bool b)).toList)) := by
    have haction := lookup_topEntries T e (text e) "action" (by decide)
    have hobservation := lookup_topEntries T e (text e) "observation" (by decide)
    rw [topEntries, hnoAction] at haction
    rw [topEntries, htag] at hobservation
    have hprops : (dropUnsetRisk ((e.fields.map fun f => (f.1, f.2.asdict)).filter
      fun f => f.1 ∉ topKeys)).lookup "content" = some c := hc
    simp only [eventToDict, hw.message_eq hs text, Except.ok_bind, haction, Option.isSome_none,
      Bool.false_eq_true, if_false, hobservation, Option.isSome_some, if_true, hprops,
      Option.getD_some]
    rfl
  obtain ⟨data, hdumps, htop, hrest⟩ := hw.dumps_eq hs T (text e)
    ([("content", c), ("extras", .dict (toEntries e.extras))] ++
      (e.success?.map fun b => ("success", PyObj.bool b)).toList)
    (by cases e.success? <;> simp) (by cases e.success? <;> simp [topKeys])
    (by
      intro a ha
      obtain ha | ha := List.mem_append.mp ha
      · obtain rfl | rfl : a = ("content", c) ∨ a = ("extras", .dict (toEntries e.extras)) := by
          simpa using ha
        · exact ⟨_, hcontent⟩
        · exact ⟨_, hextras⟩
      · obtain ⟨b, -, rfl⟩ := Option.map_eq_some_iff.mp (Option.mem_toList.mp ha)
        exact ⟨_, rfl⟩)
  have haction : data.lookup "action" = none := by
    rw [htop "action" (by decide), hnoAction]
    rfl
  have hobservation : data.lookup "observation" = some (.str e.cls.tag) := by
    rw [htop "observation" (by decide), htag, Option.bind_some, htagJson]
    rfl
  have hcontentData : data.lookup "content" = some content := by
    rw [hrest "content" (by decide), List.cons_append, List.lookup_cons_self, Option.bind_some,
      hcontent]
    rfl
  have hextrasData : data.lookup "extras" = some (.obj extras) := by
    have hlookup : ([("content", c), ("extras", .dict (toEntries e.extras))] ++
        (e.success?.map fun b => ("success", PyObj.bool b)).toList).lookup "extras" =
          some (.dict (toEntries e.extras)) := rfl
    rw [hrest "extras" (by decide), hlookup, Option.bind_some, hextras]
    rfl
  refine ⟨_, _, _, hstored, hdumps, ?_, sameEvent_of_fields hsame⟩
  rw [eventFromDict, haction, Option.isSome_none, if_neg Bool.false_ne_true, hobservation,
    Option.isSome_some, if_pos rfl,
    observationFromDict_eq hcls hobservation hcontentData hextrasData
      hdeprecated hconvert honce hcall, Except.ok_bind, setAttributes_eq T htop, hs.timeout hcls]

/-- **The round trip**: a well-typed event of a registered class that is storable, with any
attributes, is stored as JSON, and what is loaded is an event of the same class with the same
fields, by value, and the same attributes. -/
theorem roundTrips_of_storable (hw : e.WellTyped version) (hs : e.Storable version)
    (T : ToolCalls ν τ) (text : Event ν τ → String)
    (literalEval : String → Option (List (String × Json ν))) :
    RoundTrips version T text literalEval e := by
  cases hcls : e.cls.isAction with
  | true => exact roundTrips_of_isAction hw hs hcls T text literalEval
  | false => exact roundTrips_of_isObservation hw hs hcls T text literalEval

end RoundTrip

/-! ## Single events -/

/-- Metadata of a tool call whose response has nothing but an id. -/
structure ToolCall where
  functionName : String
  toolCallId : String
  responseId : String
  totalCallsInResponse : ℤ

/-- The dump of such metadata and its constructor. -/
def idOnlyToolCalls : ToolCalls ℚ ToolCall where
  dump m := .dict [(.str "function_name", .str m.functionName),
    (.str "tool_call_id", .str m.toolCallId),
    (.str "model_response", .dict [(.str "id", .str m.responseId)]),
    (.str "total_calls_in_response", .int m.totalCallsInResponse)]
  load
    | .obj [("function_name", .str f), ("tool_call_id", .str c),
        ("model_response", .obj [("id", .str r)]), ("total_calls_in_response", .int n)] =>
      .ok ⟨f, c, r, n⟩
    | _ => .error (.valueError "validation error")
  round _ := ⟨_, rfl, rfl⟩

/-- A command with a hard timeout and all attributes. -/
def listFiles : Event ℚ ToolCall where
  cls := .cmdRunAction
  fields := [("command", .str "ls"), ("is_input", .bool false), ("thought", .str ""),
    ("blocking", .bool true), ("is_static", .bool false), ("cwd", .none), ("hidden", .bool false),
    ("action", .strEnum "run"), ("confirmation_state", .strEnum "awaiting_confirmation"),
    ("security_risk", .intEnum 0)]
  id := some 3
  timestamp := some "2025-01-01T12:00:00"
  source := some .agent
  cause := some 2
  timeout := some 30
  toolCallMetadata := some ⟨"execute_bash", "call_1", "resp_1", 1⟩

/-- The command round-trips. -/
theorem roundTrips_listFiles : listFiles.WellTyped "0.40.0" ∧ listFiles.Storable "0.40.0" ∧
    RoundTrips "0.40.0" idOnlyToolCalls (fun _ => "Running command: ls") (fun _ => none)
      listFiles := by
  have hw : listFiles.WellTyped "0.40.0" := by
    refine ⟨?_, by simp [listFiles]⟩
    simp [listFiles, EventClass.fields, EventClass.tagSpec, EventClass.tagField,
      EventClass.isAction, EventClass.actions, EventClass.text, EventClass.flag,
      EventClass.optText, EventClass.securityRisk, EventClass.confirmationState,
      FieldType.hasType, PyObj.isText]
  have hs : listFiles.Storable "0.40.0" :=
    { tag := Or.inr rfl
      untyped := by
        simp [listFiles, EventClass.fields, EventClass.tagSpec, EventClass.text, EventClass.flag,
          EventClass.optText, EventClass.securityRisk, EventClass.confirmationState,
          FieldType.untyped]
      timeout := by decide
      completed := by simp [listFiles]
      reason := by simp [listFiles] }
  exact ⟨hw, hs, roundTrips_of_storable hw hs _ _ _⟩

/-- What becomes of an event that is stored and loaded. -/
def reload (version : String) (T : ToolCalls ν τ) (text : Event ν τ → String)
    (literalEval : String → Option (List (String × Json ν))) (e : Event ν τ) :
    Except PyError (Event ν τ) := do
  let d ← eventToDict T text e
  let j ← dumps d
  eventFromDict version T literalEval j

/-- An event round-trips exactly if it comes back as the same event. -/
lemma roundTrips_iff {version : String} {T : ToolCalls ν τ} {text : Event ν τ → String}
    {literalEval : String → Option (List (String × Json ν))} {e : Event ν τ} :
    RoundTrips version T text literalEval e ↔
      ∃ e', reload version T text literalEval e = .ok e' ∧ SameEvent e e' := by
  constructor
  · rintro ⟨d, j, e', hd, hj, he', hsame⟩
    exact ⟨e', by rw [reload, hd, Except.ok_bind, hj, Except.ok_bind, he'], hsame⟩
  · rintro ⟨e', h, hsame⟩
    obtain ⟨d, hd, h⟩ := Except.bind_eq_ok.mp h
    obtain ⟨j, hj, he'⟩ := Except.bind_eq_ok.mp h
    exact ⟨d, j, e', hd, hj, he', hsame⟩

/-- A call of a tool with a pair among its arguments. -/
def callWithPair : Event ℚ ToolCall where
  cls := .mcpAction
  fields := [("name", .str "draw"), ("arguments", .dict [(.str "at", .tuple [.int 1, .int 2])]),
    ("thought", .str ""), ("action", .strEnum "call_tool_mcp"), ("security_risk", .none)]

/-- The pair comes back as a list. -/
lemma callWithPair_not_roundTrips : callWithPair.WellTyped "0.40.0" ∧
    ¬ RoundTrips "0.40.0" idOnlyToolCalls (fun _ => "") (fun _ => none) callWithPair := by
  have hreload : reload "0.40.0" idOnlyToolCalls (fun _ => "") (fun _ => none) callWithPair =
      .ok { callWithPair with
        fields := [("name", .str "draw"),
          ("arguments", .dict [(.str "at", .list [.int 1, .int 2])]),
          ("thought", .str ""), ("action", .strEnum "call_tool_mcp"), ("security_risk", .none)] } :=
    rfl
  refine ⟨⟨?_, by simp [callWithPair]⟩, fun h => ?_⟩
  · simp [callWithPair, EventClass.fields, EventClass.tagSpec, EventClass.tagField,
      EventClass.isAction, EventClass.actions, EventClass.text, EventClass.anyDict,
      EventClass.securityRisk, FieldType.hasType, PyObj.isText, DictKey.text?]
  · obtain ⟨e', he', hsame⟩ := roundTrips_iff.1 h
    obtain rfl := Except.ok.inj (hreload.symm.trans he')
    have hfields := hsame.fields
    simp [callWithPair, PyObj.byValue, byValueEntries] at hfields

/-- An observation with a hard timeout. -/
def timedObservation : Event ℚ ToolCall where
  cls := .nullObservation
  fields := [("content", .str ""), ("observation", .strEnum "null")]
  timeout := some 5

/-- The timeout of the observation is lost. -/
lemma timedObservation_not_roundTrips : timedObservation.WellTyped "0.40.0" ∧
    ¬ RoundTrips "0.40.0" idOnlyToolCalls (fun _ => "") (fun _ => none) timedObservation := by
  have hreload : reload "0.40.0" idOnlyToolCalls (fun _ => "") (fun _ => none) timedObservation =
      .ok { timedObservation with timeout := none } :=
    rfl
  refine ⟨⟨?_, by simp [timedObservation]⟩, fun h => ?_⟩
  · simp [timedObservation, EventClass.fields, EventClass.tagSpec, EventClass.tagField,
      EventClass.isAction, EventClass.actions, FieldType.hasType, PyObj.isText]
  · obtain ⟨e', he', hsame⟩ := roundTrips_iff.1 h
    obtain rfl := Except.ok.inj (hreload.symm.trans he')
    have htimeout := hsame.timeout
    simp [timedObservation] at htimeout

/-- An action that names another class. -/
def renamedThought : Event ℚ ToolCall where
  cls := .agentThinkAction
  fields := [("thought", .str ""), ("action", .str "null")]

/-- The action is not loaded: the class that it names has no such argument. -/
lemma renamedThought_not_roundTrips : renamedThought.WellTyped "0.40.0" ∧
    ¬ RoundTrips "0.40.0" idOnlyToolCalls (fun _ => "") (fun _ => none) renamedThought := by
  have hreload : ∃ err, reload "0.40.0" idOnlyToolCalls (fun _ => "") (fun _ => none)
      renamedThought = .error err :=
    ⟨_, rfl⟩
  refine ⟨⟨?_, by simp [renamedThought]⟩, fun h => ?_⟩
  · simp [renamedThought, EventClass.fields, EventClass.tagSpec, EventClass.tagField,
      EventClass.isAction, EventClass.actions, EventClass.text, FieldType.hasType, PyObj.isText]
  · obtain ⟨e', he', -⟩ := roundTrips_iff.1 h
    obtain ⟨err, herr⟩ := hreload
    rw [herr] at he'
    simp at he'

/-- **Well-typed events that do not round-trip**: a tuple comes back as a list, the timeout of an
observation is lost, and an action that names another class is not loaded. -/
theorem not_roundTrips_wellTyped :
    (callWithPair.WellTyped "0.40.0" ∧
      ¬ RoundTrips "0.40.0" idOnlyToolCalls (fun _ => "") (fun _ => none) callWithPair) ∧
    (timedObservation.WellTyped "0.40.0" ∧
      ¬ RoundTrips "0.40.0" idOnlyToolCalls (fun _ => "") (fun _ => none) timedObservation) ∧
    (renamedThought.WellTyped "0.40.0" ∧
      ¬ RoundTrips "0.40.0" idOnlyToolCalls (fun _ => "") (fun _ => none) renamedThought) :=
  ⟨callWithPair_not_roundTrips, timedObservation_not_roundTrips, renamedThought_not_roundTrips⟩

end ProRLAgent.Serialization
