import Mathlib.Data.List.DropRight
import ProRLAgent.Lib.Dict
import ProRLAgent.Rollout.Padding

set_option relaxedAutoImplicit false
set_option autoImplicit false

/-!
# From trajectories to batch rows

The function `_convert_results_to_dataproto_token` of the rollout
(`verl_custom/nvidia/rollout/async_server.py`) turns the collected trajectories into the tensors
of a training batch. Each trajectory becomes one row: the messages before the first assistant
message are the prompt, the others up to the last assistant message are the response; the loss
mask marks the response tokens of assistant messages.

The number type `F` of the log-probabilities is arbitrary, and the position ids of the trainer
library are a parameter.

## Main definitions

* `ProRLAgent.Rollout.convertResultsToDataprotoToken` — the conversion.
* `ProRLAgent.Rollout.TurnSplit` — the parts of a trajectory: prompt, response and dropped rest.
* `ProRLAgent.Rollout.RowCarries` — a row holds exactly the tokens, masks and log-probabilities
  of a prompt and a response.

## Main results

* `ProRLAgent.Rollout.rowCarries_of_convert` — every row of a converted batch carries its
  trajectory.
-/

namespace ProRLAgent.Rollout

variable {F : Type}

/-! ## Data -/

/-- A message of a collected trajectory. -/
structure TrajMessage (F : Type) where
  role : Role
  /-- The entry `token_ids`, `none` if the key is absent and `some none` if its value is null. -/
  tokenIds : Option (Option (List Token))
  /-- The entry `logprobs`, `none` if it is absent or null. -/
  logprobs : Option (List F)

/-- The result of one trajectory. An absent entry stands as the default that the conversion
reads for it. -/
structure TrajResult (F : Type) where
  messages : List (TrajMessage F)
  resolved : Bool
  success : Bool
  finish : Bool
  error : Option String
  isPadded : Bool

/-- An instance of the data set; the conversion reads its id. -/
structure Instance where
  instanceId : String
  deriving DecidableEq, Repr

/-- The settings that the conversion reads. -/
structure RolloutConfig where
  padTokenId : Token
  maxStartingMessageLength : ℕ
  totalLen : ℕ
  numTrajectories : ℕ
  numValTrajectories : ℕ

/-- The converted batch. -/
structure DataProto (F : Type) where
  inputIds : Tensor Token
  responses : Tensor Token
  attentionMask : Tensor ℕ
  positionIds : Tensor ℕ
  lossMask : Tensor ℕ
  rolloutLogProbs : Tensor F
  isPadded : List Bool
  errorMask : List Bool
  success : List Bool
  error : List (Option String)
  instances : List Instance
  resolved : List Bool
  finish : List Bool

/-! ## Matching results with the input batch -/

/-- The trajectories of each instance id. -/
def instanceTrajectories (results : Dict String (Dict ℕ (TrajResult F))) :
    Dict String (List (TrajResult F)) :=
  results.mapValues Dict.values

/-- The results in the order of the input batch, each with its instance. -/
def matchedResults (results : Dict String (Dict ℕ (TrajResult F))) (inputBatch : List Instance) :
    List (Instance × TrajResult F) :=
  inputBatch.flatMap fun item =>
    match (instanceTrajectories results).get? item.instanceId with
    | some trajResults => trajResults.map fun result => (item, result)
    | none => []

/-- The number of results that the conversion asserts. -/
def expectedCount (config : RolloutConfig) (inputBatch : List Instance) (valMode : Bool) : ℕ :=
  if valMode then inputBatch.length * config.numValTrajectories
  else config.numTrajectories * inputBatch.length

/-! ## Filling empty trajectories -/

/-- The row indices of each instance id, in the order of first occurrence. -/
def resultsByInstance (instanceIds : List String) : Dict String (List ℕ) :=
  instanceIds.zipIdx.foldl (fun d (id, i) => d.set id ((d.get? id).getD [] ++ [i])) Dict.empty

/-- A row without messages takes those of the donor, with its outcome. -/
def fillRow (donor row : TrajResult F) : TrajResult F :=
  if row.messages.isEmpty then
    { row with
      messages := donor.messages
      resolved := donor.resolved
      error := donor.error
      finish := donor.finish
      isPadded := true }
  else
    row

/-- One pass of the fallback loop. The donor of a group is its first row with messages, or else
the donor of the groups before it. -/
def fillGroup (state : Option (TrajResult F) × List (TrajResult F)) (group : List ℕ) :
    Option (TrajResult F) × List (TrajResult F) :=
  let valid := (group.filterMap fun i => state.2[i]?).find? fun row => !row.messages.isEmpty
  match valid <|> state.1 with
  | some donor => (some donor, group.foldl (fun rows i => rows.modify i (fillRow donor)) state.2)
  | none => state

/-- The fallback loop. -/
def fillEmptyMessages (instanceIds : List String) (rows : List (TrajResult F)) :
    List (TrajResult F) :=
  ((resultsByInstance instanceIds).values.foldl fillGroup (none, rows)).2

/-! ## Encoding a trajectory -/

/-- The encodings of one row before padding. -/
structure Encoding (F : Type) where
  promptIds : List Token
  promptAttentionMask : List ℕ
  response : ResponseEncoding F

/-- The index of the first assistant message; the number of messages if there is none, or if it
is the first. -/
def startingIndex (messages : List (TrajMessage F)) : ℕ :=
  match messages.findIdx? fun msg => msg.role = .assistant with
  | some (i + 1) => i + 1
  | _ => messages.length

/-- The messages up to the last assistant message. -/
def dropTrailing (messages : List (TrajMessage F)) : List (TrajMessage F) :=
  messages.rdropWhile fun msg => msg.role ≠ .assistant

/-- The entry `token_ids` of a message. -/
def TrajMessage.getTokenIds (msg : TrajMessage F) : Except PyError (Option (List Token)) :=
  match msg.tokenIds with
  | some tokenIds => .ok tokenIds
  | none => .error (.keyError "token_ids")

/-- The ids of an entry whose length is taken: a null value has none. -/
def withLength : Option (List Token) → Except PyError (List Token)
  | some tokenIds => .ok tokenIds
  | none => .error (.typeError "object of type 'NoneType' has no len()")

/-- The loop body for one result: the prompt and response parts of its lists. -/
def encodeResult [Zero F] (result : TrajResult F) : Except PyError (Encoding F) := do
  let start := startingIndex result.messages
  let messages := dropTrailing result.messages
  -- Reading the last role of an empty list in the assertion.
  if messages.isEmpty then
    throw .indexError
  let entries ← messages.mapM TrajMessage.getTokenIds
  -- The lists of log-probabilities and masks take the length of every entry.
  let allIds ← entries.mapM withLength
  let allLogProbs := List.zipWith
    (fun msg ids => msg.logprobs.getD (List.replicate ids.length 0)) messages allIds
  let assistantMasks := List.zipWith
    (fun msg ids => List.replicate ids.length (if msg.role = .assistant then 1 else 0))
    messages allIds
  let promptIds := (allIds.take start).flatten
  let responseIds := (allIds.drop start).flatten
  let attentionMask := (allIds.map fun ids => List.replicate ids.length 1).flatten
  return {
    promptIds := promptIds
    promptAttentionMask := attentionMask.take promptIds.length
    response := {
      inputIds := responseIds
      attentionMask := attentionMask.drop promptIds.length
      assistantMasks := assistantMasks.flatten.drop promptIds.length
      logProbs := (allLogProbs.drop start).flatten } }

/-! ## The conversion -/

/-- The call `max(lengths)`. -/
def maxLength (lengths : List ℕ) : Except PyError ℕ :=
  match lengths.max? with
  | some length => .ok length
  | none => .error (.valueError "max() arg is an empty sequence")

/-- Extends the four lists of a response by the padding of its ids. -/
def extendResponse [Zero F] (padTokenId : Token) (maxLenResponse : ℕ)
    (response : ResponseEncoding F) : ResponseEncoding F :=
  let padLength := maxLenResponse - response.inputIds.length
  { inputIds := response.inputIds ++ List.replicate padLength padTokenId
    attentionMask := response.attentionMask ++ List.replicate padLength 0
    assistantMasks := response.assistantMasks ++ List.replicate padLength 0
    logProbs := response.logProbs ++ List.replicate padLength 0 }

/-- The prompts as left-padded tensors. -/
def padPrompts (config : RolloutConfig) (encodings : List (Encoding F)) :
    Except PyError (Tensor Token × Tensor ℕ) := do
  let maxLenPrompt ← maxLength (encodings.map fun e => e.promptIds.length)
  let promptInputIds ← Tensor.ofLists (encodings.map fun e =>
    e.promptIds ++ List.replicate (maxLenPrompt - e.promptIds.length) config.padTokenId)
  let promptAttentionMask ← Tensor.ofLists (encodings.map fun e =>
    e.promptAttentionMask ++ List.replicate (maxLenPrompt - e.promptIds.length) 0)
  -- A tensor of empty rows holds floats, and the sum of its mask is no slice bound.
  if promptAttentionMask.width = 0 then
    throw (.typeError "slice indices must be integers or None or have an __index__ method")
  convertRightPaddingToLeft config.padTokenId promptInputIds promptAttentionMask
    (some config.maxStartingMessageLength)

/-- The responses as right-padded tensors. -/
def padResponses [Zero F] (config : RolloutConfig) (encodings : List (Encoding F)) :
    Except PyError (PaddedResponses F) := do
  let maxLenResponse ← maxLength (encodings.map fun e => e.response.inputIds.length)
  padToMaxLengthRight config.padTokenId
    (encodings.map fun e => extendResponse config.padTokenId maxLenResponse e.response)
    config.totalLen

/-- The function `_convert_results_to_dataproto_token`. -/
def convertResultsToDataprotoToken [Zero F] (config : RolloutConfig)
    (computePositionIdWithMask : Tensor ℕ → Tensor ℕ)
    (results : Dict String (Dict ℕ (TrajResult F))) (inputBatch : List Instance)
    (valMode : Bool) : Except PyError (DataProto F) := do
  let matched := matchedResults results inputBatch
  if matched.length ≠ expectedCount config inputBatch valMode then
    throw .assertionError
  let instanceList := matched.map Prod.fst
  let rows := fillEmptyMessages (instanceList.map Instance.instanceId) (matched.map Prod.snd)
  let encodings ← rows.mapM encodeResult
  let prompts ← padPrompts config encodings
  let responses ← padResponses config encodings
  let inputIds ← prompts.1.cat responses.inputIds
  let attentionMask ← prompts.2.cat responses.attentionMask
  let positionIds := computePositionIdWithMask attentionMask
  if ¬ (inputIds.width = attentionMask.width ∧ attentionMask.width = positionIds.width) then
    throw .assertionError
  if ¬ (responses.inputIds.width = responses.assistantMask.width ∧
      responses.assistantMask.width = responses.logProbs.width) then
    throw .assertionError
  return {
    inputIds := inputIds
    responses := responses.inputIds
    attentionMask := attentionMask
    positionIds := positionIds
    lossMask := responses.assistantMask
    rolloutLogProbs := responses.logProbs
    isPadded := rows.map (·.isPadded)
    errorMask := rows.map fun row => row.error.isSome && row.error != some ""
    success := rows.map (·.success)
    error := rows.map (·.error)
    instances := instanceList
    resolved := rows.map (·.resolved)
    finish := rows.map (·.finish) }

/-! ## The abstract row -/

/-- The token ids of a message. -/
def TrajMessage.ids (msg : TrajMessage F) : List Token := msg.tokenIds.join.getD []

/-- The log-probabilities of a message, zeros if it has none. -/
def TrajMessage.probs [Zero F] (msg : TrajMessage F) : List F :=
  msg.logprobs.getD (List.replicate msg.ids.length 0)

/-- A token with its origin. -/
structure TaggedToken (F : Type) where
  token : Token
  fromAssistant : Bool
  logprob : F

/-- The tokens of a message, each with the log-probability at its place. -/
def TrajMessage.tagged [Zero F] (msg : TrajMessage F) : List (TaggedToken F) :=
  (msg.ids.zip msg.probs).map fun x => ⟨x.1, msg.role = .assistant, x.2⟩

/-- **The trajectories of a batch**: the first message is not from the assistant, some message
is, and present log-probabilities are as many as the tokens. -/
structure Trajectory (messages : List (TrajMessage F)) : Prop where
  starts : ∃ msg, messages.head? = some msg ∧ msg.role ≠ .assistant
  answers : ∃ msg ∈ messages, msg.role = .assistant
  logprobs : ∀ msg ∈ messages, ∀ tokenIds logprobs, msg.tokenIds = some (some tokenIds) →
    msg.logprobs = some logprobs → logprobs.length = tokenIds.length

/-- **The parts of a trajectory**: the prompt before the first assistant message, the response
from there to the last assistant message, and the rest. -/
structure TurnSplit (messages prompt response rest : List (TrajMessage F)) : Prop where
  parts : messages = prompt ++ response ++ rest
  prompt_roles : ∀ msg ∈ prompt, msg.role ≠ .assistant
  response_first : ∃ msg, response.head? = some msg ∧ msg.role = .assistant
  response_last : ∃ msg, response.getLast? = some msg ∧ msg.role = .assistant
  rest_roles : ∀ msg ∈ rest, msg.role ≠ .assistant

/-- One row of a batch. -/
structure BatchRow (F : Type) where
  inputIds : List Token
  responses : List Token
  attentionMask : List ℕ
  lossMask : List ℕ
  rolloutLogProbs : List F

/-- Row `k` of a batch. -/
def DataProto.row? (batch : DataProto F) (k : ℕ) : Option (BatchRow F) := do
  let inputIds ← batch.inputIds.toLists[k]?
  let responses ← batch.responses.toLists[k]?
  let attentionMask ← batch.attentionMask.toLists[k]?
  let lossMask ← batch.lossMask.toLists[k]?
  let rolloutLogProbs ← batch.rolloutLogProbs.toLists[k]?
  return ⟨inputIds, responses, attentionMask, lossMask, rolloutLogProbs⟩

/-- The ids of a row at the positions of its mask. -/
def BatchRow.attended (row : BatchRow F) : List Token :=
  ((row.inputIds.zip row.attentionMask).filter fun x => x.2 = 1).map Prod.fst

/-- **A row carries a prompt and a response**: the attended ids are the tokens of the prompt, cut
to `max_starting_message_length`, and of the response, cut to `total_len`; the padding is on the
left of the prompt and on the right of the response; and the loss mask and the
log-probabilities are those of the kept response tokens, and 0 on the padding. -/
structure RowCarries [Zero F] (config : RolloutConfig) (prompt response : List (TrajMessage F))
    (row : BatchRow F) : Prop where
  attended : row.attended =
    (prompt.flatMap TrajMessage.ids).take config.maxStartingMessageLength ++
      (response.flatMap TrajMessage.ids).take config.totalLen
  inputIds : row.inputIds =
    leftPadded config.padTokenId config.maxStartingMessageLength
        ((prompt.flatMap TrajMessage.ids).take config.maxStartingMessageLength) ++
      rightPadded config.padTokenId config.totalLen
        ((response.flatMap TrajMessage.ids).take config.totalLen)
  attentionMask : row.attentionMask =
    leftPadded 0 config.maxStartingMessageLength
        (ones ((prompt.flatMap TrajMessage.ids).take config.maxStartingMessageLength)) ++
      rightPadded 0 config.totalLen
        (ones ((response.flatMap TrajMessage.ids).take config.totalLen))
  responses : row.responses = rightPadded config.padTokenId config.totalLen
    ((response.flatMap TrajMessage.ids).take config.totalLen)
  tokens : (response.flatMap TrajMessage.tagged).map TaggedToken.token =
    response.flatMap TrajMessage.ids
  lossMask : row.lossMask = rightPadded 0 config.totalLen
    (((response.flatMap TrajMessage.tagged).take config.totalLen).map fun t =>
      if t.fromAssistant then 1 else 0)
  rolloutLogProbs : row.rolloutLogProbs = rightPadded 0 config.totalLen
    (((response.flatMap TrajMessage.tagged).take config.totalLen).map TaggedToken.logprob)

/-! ## Filling leaves nonempty trajectories alone -/

/-- A row with messages is not filled. -/
lemma fillRow_of_ne_nil {donor row : TrajResult F} (h : row.messages ≠ []) :
    fillRow donor row = row := by
  rw [fillRow, if_neg]
  simpa using h

/-- One pass of the fallback loop changes no batch whose rows all have messages. -/
lemma fillGroup_snd {state : Option (TrajResult F) × List (TrajResult F)} {group : List ℕ}
    (h : ∀ row ∈ state.2, row.messages ≠ []) : (fillGroup state group).2 = state.2 := by
  have hmodify : ∀ donor i, state.2.modify i (fillRow donor) = state.2 := by
    intro donor i
    refine List.ext_getElem? fun j => ?_
    rw [List.getElem?_modify]
    cases hj : state.2[j]? with
    | none => rfl
    | some row => simp [fillRow_of_ne_nil (h row (List.mem_of_getElem? hj))]
  have hloop : ∀ donor, group.foldl (fun rows i => rows.modify i (fillRow donor)) state.2
      = state.2 := by
    intro donor
    induction group with
    | nil => rfl
    | cons i group ih => rw [List.foldl_cons, hmodify, ih]
  simp only [fillGroup]
  split
  · exact hloop _
  · rfl

/-- **Nothing to fill**: the fallback loop changes no batch whose rows all have messages. -/
theorem fillEmptyMessages_eq_self {instanceIds : List String} {rows : List (TrajResult F)}
    (h : ∀ row ∈ rows, row.messages ≠ []) : fillEmptyMessages instanceIds rows = rows := by
  have hloop : ∀ (groups : List (List ℕ)) (state : Option (TrajResult F) × List (TrajResult F)),
      state.2 = rows → (groups.foldl fillGroup state).2 = rows := by
    intro groups
    induction groups with
    | nil => exact fun _ hstate => hstate
    | cons group groups ih =>
      intro state hstate
      exact ih _ ((fillGroup_snd (hstate ▸ h)).trans hstate)
  exact hloop _ _ rfl

/-! ## Splitting a trajectory -/

/-- The messages of the prompt part. -/
def promptPart (messages : List (TrajMessage F)) : List (TrajMessage F) :=
  (dropTrailing messages).take (startingIndex messages)

/-- The messages of the response part. -/
def responsePart (messages : List (TrajMessage F)) : List (TrajMessage F) :=
  (dropTrailing messages).drop (startingIndex messages)

/-- The starting index behind messages of other roles. -/
lemma startingIndex_append {before after : List (TrajMessage F)} {msg : TrajMessage F}
    (hne : before ≠ []) (hbefore : ∀ m ∈ before, m.role ≠ .assistant)
    (hmsg : msg.role = .assistant) : startingIndex (before ++ msg :: after) = before.length := by
  have hnone : before.findIdx? (fun m => decide (m.role = .assistant)) = none := by
    rw [List.findIdx?_eq_none_iff]
    intro m hm
    simpa using hbefore m hm
  have hfind : (before ++ msg :: after).findIdx? (fun m => decide (m.role = .assistant))
      = some before.length := by
    simp [List.findIdx?_append, hnone, List.findIdx?_cons, hmsg]
  obtain ⟨n, hn⟩ : ∃ n, before.length = n + 1 :=
    ⟨before.length - 1, by have := List.length_pos_iff.mpr hne; omega⟩
  rw [startingIndex, hfind, hn]

/-- The messages behind the last assistant message. -/
def restPart (messages : List (TrajMessage F)) : List (TrajMessage F) :=
  messages.rtakeWhile fun msg => msg.role ≠ .assistant

lemma dropTrailing_append_restPart (messages : List (TrajMessage F)) :
    dropTrailing messages ++ restPart messages = messages :=
  List.rdropWhile_append_rtakeWhile

lemma role_of_mem_restPart {messages : List (TrajMessage F)} {msg : TrajMessage F}
    (h : msg ∈ restPart messages) : msg.role ≠ .assistant := by
  simpa using List.mem_rtakeWhile_imp h

/-- The last of the kept messages is from the assistant. -/
lemma role_getLast_dropTrailing {messages : List (TrajMessage F)}
    (h : dropTrailing messages ≠ []) : ((dropTrailing messages).getLast h).role = .assistant := by
  have hlast := List.rdropWhile_last_not (fun m : TrajMessage F => decide (m.role ≠ .assistant))
    messages h
  exact not_not.mp fun hrole => hlast (decide_eq_true hrole)

/-- A trajectory starts with messages of other roles, up to its first assistant message. -/
lemma Trajectory.exists_before {messages : List (TrajMessage F)} (h : Trajectory messages) :
    ∃ before msg after, messages = before ++ msg :: after ∧ before ≠ [] ∧
      (∀ m ∈ before, m.role ≠ .assistant) ∧ msg.role = .assistant := by
  obtain ⟨first, hfirst, hfirstRole⟩ := h.starts
  obtain ⟨answer, hanswer, hanswerRole⟩ := h.answers
  have hsome : (messages.find? fun m => decide (m.role = .assistant)).isSome := by
    rw [List.find?_isSome]
    exact ⟨answer, hanswer, by simpa using hanswerRole⟩
  obtain ⟨msg, hfind⟩ := Option.isSome_iff_exists.mp hsome
  obtain ⟨hrole, before, after, heq, hbefore⟩ := List.find?_eq_some_iff_append.mp hfind
  have hmsg : msg.role = .assistant := by simpa using hrole
  refine ⟨before, msg, after, heq, ?_, fun m hm => by simpa using hbefore m hm, hmsg⟩
  rintro rfl
  obtain rfl : msg = first := by simpa [heq] using hfirst
  exact hfirstRole hmsg

/-- **The split**: the parts that the encoding uses are those of the trajectory. -/
theorem turnSplit_parts {messages : List (TrajMessage F)} (h : Trajectory messages) :
    TurnSplit messages (promptPart messages) (responsePart messages) (restPart messages) := by
  obtain ⟨before, msg, after, heq, hne, hbefore, hmsg⟩ := h.exists_before
  have hstart : startingIndex messages = before.length := by
    rw [heq, startingIndex_append hne hbefore hmsg]
  have hparts := dropTrailing_append_restPart messages
  have hkeeps : msg ∉ restPart messages := fun hmem => role_of_mem_restPart hmem hmsg
  -- The first assistant message is kept, with everything before it.
  obtain ⟨middle, hkept, hmiddle⟩ : ∃ middle, dropTrailing messages = before ++ middle ∧
      msg :: after = middle ++ restPart messages := by
    rcases List.append_eq_append_iff.mp (hparts.trans heq) with ⟨as, -, hrest⟩ | hmiddle
    · exact absurd (hrest ▸ by simp) hkeeps
    · exact hmiddle
  obtain ⟨tail, rfl⟩ : ∃ tail, middle = msg :: tail := by
    cases middle with
    | nil =>
      rw [List.nil_append] at hmiddle
      exact absurd (hmiddle ▸ List.mem_cons_self) hkeeps
    | cons m tail => exact ⟨tail, by rw [(List.cons.inj hmiddle).1]⟩
  have hprompt : promptPart messages = before := by simp [promptPart, hkept, hstart]
  have hresponse : responsePart messages = msg :: tail := by simp [responsePart, hkept, hstart]
  refine ⟨?_, ?_, ?_, ?_, fun m hm => role_of_mem_restPart hm⟩
  · rw [hprompt, hresponse, ← hkept, hparts]
  · rw [hprompt]
    exact hbefore
  · exact ⟨msg, by rw [hresponse, List.head?_cons], hmsg⟩
  · have hkeptNe : dropTrailing messages ≠ [] := by simp [hkept]
    refine ⟨_, ?_, role_getLast_dropTrailing hkeptNe⟩
    rw [hresponse, ← List.getLast?_append_of_ne_nil before (List.cons_ne_nil _ _), ← hkept,
      List.getLast?_eq_some_getLast hkeptNe]

/-! ## Encoding a trajectory, as a function of its parts -/

/-- The message has token ids. -/
def TrajMessage.HasIds (msg : TrajMessage F) : Prop := msg.tokenIds = some (some msg.ids)

/-- Reading the ids of a message and their length. -/
lemma getTokenIds_bind_withLength {msg : TrajMessage F} {ids : List Token} :
    (∃ entry, msg.getTokenIds = .ok entry ∧ withLength entry = .ok ids) ↔
      msg.HasIds ∧ ids = msg.ids := by
  rcases hmsg : msg.tokenIds with _ | _ | tokenIds <;>
    simp [TrajMessage.getTokenIds, TrajMessage.HasIds, TrajMessage.ids, withLength, hmsg, eq_comm]

/-- **Reading the ids** of the messages returns exactly if each message has them. -/
lemma mapM_getTokenIds_iff {messages : List (TrajMessage F)} {allIds : List (List Token)} :
    (∃ entries, messages.mapM TrajMessage.getTokenIds = .ok entries ∧
        entries.mapM withLength = .ok allIds) ↔
      (∀ msg ∈ messages, msg.HasIds) ∧ allIds = messages.map TrajMessage.ids := by
  simp only [Except.mapM_eq_ok_iff]
  induction messages generalizing allIds with
  | nil => simp
  | cons msg messages ih =>
    cases allIds with
    | nil => simp
    | cons ids allIds =>
      have hhead := @getTokenIds_bind_withLength _ msg ids
      have htail := @ih allIds
      constructor
      · rintro ⟨entries, hentries, hids⟩
        obtain _ | ⟨hentry, hentries⟩ := hentries
        obtain _ | ⟨hlen, hids⟩ := hids
        obtain ⟨hmsg, rfl⟩ := hhead.mp ⟨_, hentry, hlen⟩
        obtain ⟨hmessages, rfl⟩ := htail.mp ⟨_, hentries, hids⟩
        exact ⟨List.forall_mem_cons.mpr ⟨hmsg, hmessages⟩, rfl⟩
      · rintro ⟨hall, heq⟩
        obtain ⟨hmsg, hmessages⟩ := List.forall_mem_cons.mp hall
        obtain ⟨rfl, rfl⟩ := List.cons.inj heq
        obtain ⟨entry, hentry, hlen⟩ := hhead.mpr ⟨hmsg, rfl⟩
        obtain ⟨entries, hentries, hids⟩ := htail.mpr ⟨hmessages, rfl⟩
        exact ⟨entry :: entries, .cons hentry hentries, .cons hlen hids⟩

/-- The mask of a sequence of messages is the sequence of their masks. -/
lemma ones_flatMap_ids (messages : List (TrajMessage F)) :
    ones (messages.flatMap TrajMessage.ids)
      = messages.flatMap fun msg => List.replicate msg.ids.length 1 := by
  induction messages with
  | nil => rfl
  | cons msg messages ih =>
    rw [List.flatMap_cons, List.flatMap_cons, ← ih, ones, ones, List.length_append,
      List.replicate_add]

section Encode

variable [Zero F]

/-- Each log-probability of the message belongs to one of its tokens. -/
def TrajMessage.Aligned (msg : TrajMessage F) : Prop := msg.probs.length = msg.ids.length

lemma map_token_tagged {msg : TrajMessage F} (h : msg.Aligned) :
    msg.tagged.map TaggedToken.token = msg.ids := by
  rw [TrajMessage.tagged, List.map_map]
  exact List.map_fst_zip (le_of_eq h.symm)

lemma map_logprob_tagged {msg : TrajMessage F} (h : msg.Aligned) :
    msg.tagged.map TaggedToken.logprob = msg.probs := by
  rw [TrajMessage.tagged, List.map_map]
  exact List.map_snd_zip (le_of_eq h)

lemma map_fromAssistant_tagged {msg : TrajMessage F} (h : msg.Aligned) :
    msg.tagged.map (fun t => if t.fromAssistant then 1 else 0)
      = List.replicate msg.ids.length (if msg.role = .assistant then 1 else 0) := by
  have hlen : (msg.ids.zip msg.probs).length = msg.ids.length := by
    rw [List.length_zip, h, Nat.min_self]
  simp only [TrajMessage.tagged, List.map_map, Function.comp_def, decide_eq_true_eq]
  rw [List.map_const', hlen]

/-- A map over aligned messages, message by message. -/
lemma map_flatMap_tagged {β : Type} {f : TaggedToken F → β} {g : TrajMessage F → List β}
    {messages : List (TrajMessage F)} (h : ∀ msg ∈ messages, msg.tagged.map f = g msg) :
    (messages.flatMap TrajMessage.tagged).map f = messages.flatMap g := by
  rw [List.map_flatMap]
  exact List.flatMap_congr h

/-- The encoding of a prompt and a response. -/
def encodingOf (prompt response : List (TrajMessage F)) : Encoding F where
  promptIds := prompt.flatMap TrajMessage.ids
  promptAttentionMask := ones (prompt.flatMap TrajMessage.ids)
  response := {
    inputIds := response.flatMap TrajMessage.ids
    attentionMask := ones (response.flatMap TrajMessage.ids)
    assistantMasks := response.flatMap fun msg =>
      List.replicate msg.ids.length (if msg.role = .assistant then 1 else 0)
    logProbs := response.flatMap TrajMessage.probs }

/-- **The encoding of a trajectory**: what the loop body returns is a function of the prompt and
the response part, and every kept message has token ids. -/
theorem encodeResult_eq {result : TrajResult F} {encoding : Encoding F}
    (h : encodeResult result = .ok encoding) :
    encoding = encodingOf (promptPart result.messages) (responsePart result.messages) ∧
      ∀ msg ∈ dropTrailing result.messages, msg.HasIds := by
  simp only [encodeResult, Except.ite_throw_eq_ok] at h
  obtain ⟨entries, hentries, h⟩ := Except.bind_eq_ok.mp h.2
  obtain ⟨allIds, hallIds, h⟩ := Except.bind_eq_ok.mp h
  obtain ⟨hids, rfl⟩ := mapM_getTokenIds_iff.1 ⟨entries, hentries, hallIds⟩
  obtain rfl := Except.ok.inj h
  set kept := dropTrailing result.messages with hkept
  set start := startingIndex result.messages with hstart
  have hsplit : ∀ f : TrajMessage F → List ℕ, (kept.map f).flatten
      = (kept.take start).flatMap f ++ (kept.drop start).flatMap f := by
    intro f
    rw [← List.flatMap_def, ← List.flatMap_append, List.take_append_drop]
  have hprompt : ((kept.map TrajMessage.ids).take start).flatten
      = (kept.take start).flatMap TrajMessage.ids := by
    rw [← List.map_take, List.flatMap_def]
  have hresponse : ((kept.map TrajMessage.ids).drop start).flatten
      = (kept.drop start).flatMap TrajMessage.ids := by
    rw [← List.map_drop, List.flatMap_def]
  have hmask : ((kept.map TrajMessage.ids).map fun ids => List.replicate ids.length 1).flatten
      = ones ((kept.take start).flatMap TrajMessage.ids)
        ++ ones ((kept.drop start).flatMap TrajMessage.ids) := by
    rw [List.map_map, ones_flatMap_ids, ones_flatMap_ids]
    exact hsplit _
  have hloss : (List.zipWith (fun (msg : TrajMessage F) ids =>
        List.replicate ids.length (if msg.role = .assistant then 1 else 0))
        kept (kept.map TrajMessage.ids)).flatten
      = (kept.take start).flatMap (fun msg =>
          List.replicate msg.ids.length (if msg.role = .assistant then 1 else 0))
        ++ (kept.drop start).flatMap (fun msg =>
          List.replicate msg.ids.length (if msg.role = .assistant then 1 else 0)) := by
    rw [List.zipWith_map_right, List.zipWith_self]
    exact hsplit _
  have hlossLen : ((kept.take start).flatMap fun msg =>
        List.replicate msg.ids.length (if msg.role = .assistant then 1 else 0)).length
      = ((kept.take start).flatMap TrajMessage.ids).length := by
    simp [List.length_flatMap]
  have hprobs : ((List.zipWith (fun (msg : TrajMessage F) ids =>
        msg.logprobs.getD (List.replicate ids.length 0)) kept
        (kept.map TrajMessage.ids)).drop start).flatten
      = (kept.drop start).flatMap TrajMessage.probs := by
    rw [List.zipWith_map_right, List.zipWith_self, ← List.map_drop, List.flatMap_def]
    rfl
  refine ⟨?_, hids⟩
  rw [hprompt, hresponse, hmask, hloss, hprobs, List.take_left' (length_ones _),
    List.drop_left' (length_ones _), List.drop_left' hlossLen]
  rfl

end Encode

/-! ## Padding the batch -/

/-- The maximum bounds every length, and the batch is not empty. -/
lemma maxLength_eq_ok {lengths : List ℕ} {n : ℕ} (h : maxLength lengths = .ok n) :
    lengths ≠ [] ∧ ∀ length ∈ lengths, length ≤ n := by
  simp only [maxLength] at h
  split at h
  · next m hm =>
    obtain rfl : m = n := by simpa using h
    obtain ⟨hmem, hle⟩ := List.max?_eq_some_iff.mp hm
    exact ⟨List.ne_nil_of_mem hmem, hle⟩
  · simp at h

/-- A row of at most `width` entries has `width` entries after padding. -/
lemma length_rightPadded {α : Type} {pad : α} {width : ℕ} {row : List α} (h : row.length ≤ width) :
    (rightPadded pad width row).length = width := by
  rw [rightPadded, List.length_append, List.length_replicate]
  omega

/-- Rows of at most `n` entries, padded to `n`, become a tensor of width `n`. -/
lemma exists_ofLists_rightPadded {α : Type} (pad : α) {n : ℕ} (rows : List (List α))
    (hne : rows ≠ []) (hle : ∀ row ∈ rows, row.length ≤ n) :
    ∃ t, Tensor.ofLists (rows.map (rightPadded pad n)) = .ok t ∧
      t.toLists = rows.map (rightPadded pad t.width) ∧ t.width = n := by
  obtain ⟨t, ht, hrows, hwidth⟩ := Tensor.exists_ofLists (n := n) (rows.map (rightPadded pad n)) (by
    intro row hrow
    obtain ⟨r, hr, rfl⟩ := List.mem_map.mp hrow
    exact length_rightPadded (hle r hr))
  have hn : t.width = n := hwidth (by simpa using hne)
  exact ⟨t, ht, by rw [hrows, hn], hn⟩

/-- **The prompt tensors**: every prompt, cut and padded on the left, with its mask. They are
returned unless all prompts are empty. -/
lemma exists_padPrompts (config : RolloutConfig) {encodings : List (Encoding F)} {n : ℕ}
    (hn : maxLength (encodings.map fun e => e.promptIds.length) = .ok n)
    (hmask : ∀ e ∈ encodings, e.promptAttentionMask = ones e.promptIds) :
    ∃ out : Tensor Token × Tensor ℕ,
      (∀ out', padPrompts config encodings = .ok out' ↔ n ≠ 0 ∧ out' = out) ∧
      out.1.toLists = encodings.map (fun e => leftPadded config.padTokenId
        config.maxStartingMessageLength (e.promptIds.take config.maxStartingMessageLength)) ∧
      out.2.toLists = encodings.map (fun e => leftPadded 0 config.maxStartingMessageLength
        (ones (e.promptIds.take config.maxStartingMessageLength))) ∧
      out.1.width = config.maxStartingMessageLength ∧
      out.2.width = config.maxStartingMessageLength := by
  obtain ⟨hne, hle⟩ := maxLength_eq_ok hn
  set prompts := encodings.map Encoding.promptIds with hprompts
  have hpromptsNe : prompts ≠ [] := by simpa [hprompts] using hne
  have hpromptsLe : ∀ row ∈ prompts, row.length ≤ n := by
    intro row hrow
    obtain ⟨e, he, rfl⟩ := List.mem_map.mp hrow
    exact hle _ (List.mem_map_of_mem he)
  have hidRows : encodings.map (fun e => e.promptIds ++
        List.replicate (n - e.promptIds.length) config.padTokenId)
      = prompts.map (rightPadded config.padTokenId n) := by
    rw [hprompts, List.map_map]
    rfl
  have hmaskRows : encodings.map (fun e => e.promptAttentionMask ++
        List.replicate (n - e.promptIds.length) 0)
      = (prompts.map ones).map (rightPadded 0 n) := by
    rw [hprompts, List.map_map, List.map_map]
    refine List.map_congr_left fun e he => ?_
    simp only [Function.comp_apply, hmask e he, rightPadded, length_ones]
  obtain ⟨ids, hids, hidsRows, -⟩ := exists_ofLists_rightPadded config.padTokenId prompts
    hpromptsNe hpromptsLe
  obtain ⟨mask, hmasks, hmasksRows, hwidth⟩ := exists_ofLists_rightPadded 0 (prompts.map ones)
    (by simpa using hpromptsNe) (by simpa using hpromptsLe)
  obtain ⟨out, hout, hout₁, hout₂, hwidth₁, hwidth₂⟩ := exists_convertRightPaddingToLeft prompts
    config.maxStartingMessageLength hidsRows (hmasksRows.trans List.map_map)
  refine ⟨out, fun out' => ?_, ?_, ?_, hwidth₁, hwidth₂⟩
  · simp only [padPrompts, hn, hidRows, hids, hmaskRows, hmasks, hout, Except.ok_bind,
      Except.ite_throw_eq_ok, hwidth, Except.ok.injEq, ne_eq]
    rw [eq_comm (a := out)]
  · rw [hout₁, hprompts, List.map_map]
    rfl
  · rw [hout₂, hprompts, List.map_map]
    rfl

/-- The prompt tensors of a conversion that returns. -/
lemma padPrompts_eq {config : RolloutConfig} {encodings : List (Encoding F)}
    {out : Tensor Token × Tensor ℕ} (h : padPrompts config encodings = .ok out)
    (hmask : ∀ e ∈ encodings, e.promptAttentionMask = ones e.promptIds) :
    out.1.toLists = encodings.map (fun e => leftPadded config.padTokenId
        config.maxStartingMessageLength (e.promptIds.take config.maxStartingMessageLength)) ∧
      out.2.toLists = encodings.map (fun e => leftPadded 0 config.maxStartingMessageLength
        (ones (e.promptIds.take config.maxStartingMessageLength))) := by
  obtain ⟨n, hn, -⟩ := Except.bind_eq_ok.mp (by simpa only [padPrompts] using h)
  obtain ⟨_, hout, hout₁, hout₂, -⟩ := exists_padPrompts config hn hmask
  obtain ⟨-, rfl⟩ := (hout _).mp h
  exact ⟨hout₁, hout₂⟩

/-- The four lists of a response are parallel, and its mask is on throughout. -/
structure ResponseEncoding.Parallel (response : ResponseEncoding F) : Prop where
  attentionMask : response.attentionMask = ones response.inputIds
  assistantMasks : response.assistantMasks.length = response.inputIds.length
  logProbs : response.logProbs.length = response.inputIds.length

section Extend

variable [Zero F] {padTokenId : Token} {n width : ℕ} {response : ResponseEncoding F}

/-- The mask of an extended response counts its ids. -/
lemma sum_extendResponse (h : response.Parallel) :
    (extendResponse padTokenId n response).attentionMask.sum = response.inputIds.length := by
  simp [extendResponse, h.attentionMask, ones]

/-- An extended response reaches as far as its mask counts. -/
lemma covers_extendResponse (h : response.Parallel) :
    (extendResponse padTokenId n response).Covers := by
  constructor <;> rw [sum_extendResponse h] <;> simp only [extendResponse, List.length_append]
  · exact Nat.le_add_right _ _
  · rw [h.attentionMask, length_ones]
    exact Nat.le_add_right _ _
  · rw [h.assistantMasks]
    exact Nat.le_add_right _ _
  · rw [h.logProbs]
    exact Nat.le_add_right _ _

/-- A cut inside a parallel list does not see its extension. -/
lemma take_extend {α : Type} {pad : α} {k : ℕ} {ids : List Token} {row : List α}
    (h : row.length = ids.length) :
    (row ++ List.replicate k pad).take (min ids.length width) = row.take width := by
  rw [List.take_append_of_le_length (by rw [h]; exact Nat.min_le_left _ _)]
  by_cases hle : ids.length ≤ width
  · rw [Nat.min_eq_left hle, List.take_of_length_le (by omega), List.take_of_length_le (by omega)]
  · rw [Nat.min_eq_right (by omega)]

/-- A padded row of an extended response is the response, cut and padded. -/
lemma pads_extendResponse {row : PaddedRow F width} (h : response.Parallel)
    (hrow : row.Pads padTokenId (extendResponse padTokenId n response)) :
    row.inputIds.toList = rightPadded padTokenId width (response.inputIds.take width) ∧
      row.attentionMask.toList = rightPadded 0 width (ones (response.inputIds.take width)) ∧
      row.assistantMask.toList = rightPadded 0 width (response.assistantMasks.take width) ∧
      row.logProbs.toList = rightPadded 0 width (response.logProbs.take width) := by
  obtain ⟨hids, hmask, hloss, hprobs⟩ := hrow
  rw [sum_extendResponse h] at hids hmask hloss hprobs
  refine ⟨?_, ?_, ?_, ?_⟩
  · rw [hids, extendResponse, take_extend rfl]
  · rw [hmask, extendResponse, take_extend (by rw [h.attentionMask, length_ones]),
      h.attentionMask, take_ones]
  · rw [hloss, extendResponse, take_extend h.assistantMasks]
  · rw [hprobs, extendResponse, take_extend h.logProbs]

end Extend

/-- Rows related to encodings field by field. -/
lemma map_eq_map_of_forall₂ {α β γ : Type} {f : α → γ} {g : β → γ} {as : List α} {bs : List β}
    (h : List.Forall₂ (fun a b => g b = f a) as bs) : bs.map g = as.map f := by
  induction h with
  | nil => rfl
  | cons hab _ ih => rw [List.map_cons, List.map_cons, hab, ih]

/-- **The response tensors**: every response, cut and padded on the right, with its mask, loss
mask and log-probabilities. -/
lemma padResponses_eq [Zero F] {config : RolloutConfig} {encodings : List (Encoding F)}
    {out : PaddedResponses F} (h : padResponses config encodings = .ok out)
    (hparallel : ∀ e ∈ encodings, e.response.Parallel) :
    out.inputIds.toLists = encodings.map (fun e =>
        rightPadded config.padTokenId config.totalLen (e.response.inputIds.take config.totalLen)) ∧
      out.attentionMask.toLists = encodings.map (fun e =>
        rightPadded 0 config.totalLen (ones (e.response.inputIds.take config.totalLen))) ∧
      out.assistantMask.toLists = encodings.map (fun e =>
        rightPadded 0 config.totalLen (e.response.assistantMasks.take config.totalLen)) ∧
      out.logProbs.toLists = encodings.map (fun e =>
        rightPadded 0 config.totalLen (e.response.logProbs.take config.totalLen)) := by
  simp only [padResponses] at h
  obtain ⟨n, -, h⟩ := Except.bind_eq_ok.mp h
  obtain ⟨rows, hrows, hpads⟩ := exists_padToMaxLengthRight config.padTokenId config.totalLen
    (encodings.map fun e => extendResponse config.padTokenId n e.response) (by
      intro encoding hmem
      obtain ⟨e, he, rfl⟩ := List.mem_map.mp hmem
      exact covers_extendResponse (hparallel e he))
  obtain rfl := Except.ok.inj (hrows.symm.trans h)
  rw [List.forall₂_map_left_iff] at hpads
  have hall := ((List.forall₂_and_left _ _).mpr ⟨hparallel, hpads⟩).imp
    fun _ _ hrow => pads_extendResponse hrow.1 hrow.2
  simp only [Tensor.toLists, List.map_map]
  exact ⟨map_eq_map_of_forall₂ (hall.imp fun _ _ hrow => hrow.1),
    map_eq_map_of_forall₂ (hall.imp fun _ _ hrow => hrow.2.1),
    map_eq_map_of_forall₂ (hall.imp fun _ _ hrow => hrow.2.2.1),
    map_eq_map_of_forall₂ (hall.imp fun _ _ hrow => hrow.2.2.2)⟩

/-! ## The rows of a converted batch -/

/-- The ids at the positions of the mask are the ids between the paddings. -/
lemma attended_eq {pad : Token} {n m : ℕ} {p r : List Token} {row : BatchRow F}
    (hids : row.inputIds = leftPadded pad n p ++ rightPadded pad m r)
    (hmask : row.attentionMask = leftPadded 0 n (ones p) ++ rightPadded 0 m (ones r)) :
    row.attended = p ++ r := by
  have hpads : ∀ k : ℕ, ((List.replicate k pad).zip (List.replicate k 0)).filter
      (fun x => decide (x.2 = 1)) = [] := by
    intro k
    simp
  have hkept : ∀ l : List Token, ((l.zip (ones l)).filter fun x => decide (x.2 = 1)).map Prod.fst
      = l := by
    intro l
    rw [List.filter_eq_self.mpr, List.map_fst_zip (by rw [length_ones])]
    rintro ⟨a, b⟩ hab
    simpa using List.eq_of_mem_replicate (List.of_mem_zip hab).2
  rw [BatchRow.attended, hids, hmask]
  simp only [leftPadded, rightPadded, length_ones, List.append_assoc]
  rw [List.zip_append (by simp), List.zip_append (by simp), List.zip_append (by simp)]
  simp only [List.filter_append, List.map_append, hpads, hkept, List.nil_append, List.append_nil]

section Rows

variable [Zero F]

/-- The kept messages of a trajectory with token ids are aligned. -/
lemma Trajectory.aligned {messages : List (TrajMessage F)} (h : Trajectory messages)
    {msg : TrajMessage F} (hmem : msg ∈ responsePart messages)
    (hids : msg.HasIds) : msg.Aligned := by
  have hmem' : msg ∈ messages := by
    rw [(turnSplit_parts h).parts]
    simp [hmem]
  cases hprobs : msg.logprobs with
  | none => simp [TrajMessage.Aligned, TrajMessage.probs, hprobs]
  | some logprobs =>
    rw [TrajMessage.Aligned, TrajMessage.probs, hprobs]
    exact h.logprobs msg hmem' _ _ hids hprobs

/-- The encoding of aligned messages is parallel. -/
lemma parallel_encodingOf {prompt response : List (TrajMessage F)}
    (h : ∀ msg ∈ response, msg.Aligned) : (encodingOf prompt response).response.Parallel := by
  refine ⟨rfl, ?_, ?_⟩
  · simp [encodingOf, List.length_flatMap]
  · simp only [encodingOf, List.length_flatMap]
    rw [List.map_congr_left h]

/-- The encodings of a batch of trajectories. -/
lemma mapM_encodeResult {rows : List (TrajResult F)} {encodings : List (Encoding F)}
    (h : rows.mapM encodeResult = .ok encodings) :
    encodings = rows.map (fun r => encodingOf (promptPart r.messages) (responsePart r.messages)) ∧
      ∀ r ∈ rows, ∀ msg ∈ dropTrailing r.messages, msg.HasIds := by
  have hall := (Except.mapM_eq_ok_iff.mp h).imp fun _ _ hr => encodeResult_eq hr
  clear h
  induction hall with
  | nil => simp
  | cons hr _ ih =>
    refine ⟨by rw [List.map_cons, hr.1, ih.1], ?_⟩
    rintro r (_ | ⟨_, hmem⟩)
    · exact hr.2
    · exact ih.2 r hmem

/-- The row of an encoding. -/
def rowOf (config : RolloutConfig) (e : Encoding F) : BatchRow F where
  inputIds :=
    leftPadded config.padTokenId config.maxStartingMessageLength
        (e.promptIds.take config.maxStartingMessageLength) ++
      rightPadded config.padTokenId config.totalLen (e.response.inputIds.take config.totalLen)
  responses :=
    rightPadded config.padTokenId config.totalLen (e.response.inputIds.take config.totalLen)
  attentionMask :=
    leftPadded 0 config.maxStartingMessageLength
        (ones (e.promptIds.take config.maxStartingMessageLength)) ++
      rightPadded 0 config.totalLen (ones (e.response.inputIds.take config.totalLen))
  lossMask := rightPadded 0 config.totalLen (e.response.assistantMasks.take config.totalLen)
  rolloutLogProbs := rightPadded 0 config.totalLen (e.response.logProbs.take config.totalLen)

/-- The row of aligned messages carries them. -/
lemma rowCarries_rowOf (config : RolloutConfig) {prompt response : List (TrajMessage F)}
    (h : ∀ msg ∈ response, msg.Aligned) :
    RowCarries config prompt response (rowOf config (encodingOf prompt response)) := by
  refine ⟨attended_eq rfl rfl, rfl, rfl, rfl, ?_, ?_, ?_⟩
  · exact map_flatMap_tagged fun msg hmsg => map_token_tagged (h msg hmsg)
  · rw [List.map_take, map_flatMap_tagged fun msg hmsg => map_fromAssistant_tagged (h msg hmsg)]
    rfl
  · rw [List.map_take, map_flatMap_tagged fun msg hmsg => map_logprob_tagged (h msg hmsg)]
    rfl

omit [Zero F] in
/-- The messages of a trajectory are not filled in. -/
lemma fillEmptyMessages_matched {matched : List (Instance × TrajResult F)} {ids : List String}
    (htraj : ∀ m ∈ matched, Trajectory m.2.messages) :
    fillEmptyMessages ids (matched.map Prod.snd) = matched.map Prod.snd := by
  refine fillEmptyMessages_eq_self fun row hrow => ?_
  obtain ⟨m, hm, rfl⟩ := List.mem_map.mp hrow
  obtain ⟨msg, hmsg, -⟩ := (htraj m hm).answers
  exact List.ne_nil_of_mem hmsg

/-- **The tensors of a converted batch**, row by row as functions of the trajectories. -/
lemma toLists_of_convert {config : RolloutConfig} {computePositionIdWithMask : Tensor ℕ → Tensor ℕ}
    {results : Dict String (Dict ℕ (TrajResult F))} {inputBatch : List Instance} {valMode : Bool}
    {batch : DataProto F}
    (h : convertResultsToDataprotoToken config computePositionIdWithMask results inputBatch valMode
      = .ok batch)
    (htraj : ∀ m ∈ matchedResults results inputBatch, Trajectory m.2.messages) :
    ∃ encodings : List (Encoding F),
      encodings = (matchedResults results inputBatch).map (fun m =>
        encodingOf (promptPart m.2.messages) (responsePart m.2.messages)) ∧
      (∀ m ∈ matchedResults results inputBatch, ∀ msg ∈ responsePart m.2.messages, msg.Aligned) ∧
      batch.inputIds.toLists = encodings.map (fun e => (rowOf config e).inputIds) ∧
      batch.attentionMask.toLists = encodings.map (fun e => (rowOf config e).attentionMask) ∧
      batch.responses.toLists = encodings.map (fun e => (rowOf config e).responses) ∧
      batch.lossMask.toLists = encodings.map (fun e => (rowOf config e).lossMask) ∧
      batch.rolloutLogProbs.toLists =
        encodings.map (fun e => (rowOf config e).rolloutLogProbs) := by
  simp only [convertResultsToDataprotoToken, fillEmptyMessages_matched htraj] at h
  obtain ⟨-, h⟩ := Except.ite_throw_eq_ok.mp h
  obtain ⟨encodings, hencodings, h⟩ := Except.bind_eq_ok.mp h
  obtain ⟨prompts, hprompts, h⟩ := Except.bind_eq_ok.mp h
  obtain ⟨responses, hresponses, h⟩ := Except.bind_eq_ok.mp h
  obtain ⟨inputIds, hinputIds, h⟩ := Except.bind_eq_ok.mp h
  obtain ⟨attentionMask, hattentionMask, h⟩ := Except.bind_eq_ok.mp h
  obtain ⟨-, h⟩ := Except.ite_throw_eq_ok.mp h
  obtain ⟨-, h⟩ := Except.ite_throw_eq_ok.mp h
  obtain rfl := Except.ok.inj h
  obtain ⟨heq, htokens⟩ := mapM_encodeResult hencodings
  rw [List.map_map] at heq
  have haligned : ∀ m ∈ matchedResults results inputBatch,
      ∀ msg ∈ responsePart m.2.messages, msg.Aligned := fun m hm msg hmsg =>
    (htraj m hm).aligned hmsg
      (htokens m.2 (List.mem_map_of_mem hm) msg (List.mem_of_mem_drop hmsg))
  have hmask : ∀ e ∈ encodings, e.promptAttentionMask = ones e.promptIds := by
    intro e he
    obtain ⟨m, -, rfl⟩ := List.mem_map.mp (heq ▸ he)
    rfl
  have hparallel : ∀ e ∈ encodings, e.response.Parallel := by
    intro e he
    obtain ⟨m, hm, rfl⟩ := List.mem_map.mp (heq ▸ he)
    exact parallel_encodingOf (haligned m hm)
  obtain ⟨hids₁, hmask₁⟩ := padPrompts_eq hprompts hmask
  obtain ⟨hids₂, hmask₂, hloss, hprobs⟩ := padResponses_eq hresponses hparallel
  obtain ⟨_, hcat, hcatRows, -⟩ := Tensor.exists_cat (s := prompts.1) (t := responses.inputIds)
    (by rw [hids₁, hids₂, List.length_map, List.length_map])
  obtain rfl := Except.ok.inj (hcat.symm.trans hinputIds)
  obtain ⟨_, hcat', hcatRows', -⟩ :=
    Tensor.exists_cat (s := prompts.2) (t := responses.attentionMask)
    (by rw [hmask₁, hmask₂, List.length_map, List.length_map])
  obtain rfl := Except.ok.inj (hcat'.symm.trans hattentionMask)
  refine ⟨encodings, heq, haligned, ?_, ?_, hids₂, hloss, hprobs⟩
  · rw [hcatRows, hids₁, hids₂, List.zipWith_map, List.zipWith_self]
    rfl
  · rw [hcatRows', hmask₁, hmask₂, List.zipWith_map, List.zipWith_self]
    rfl

/-- **The row of a trajectory** in a converted batch, and the alignment of its messages. -/
lemma row?_of_convert {config : RolloutConfig} {computePositionIdWithMask : Tensor ℕ → Tensor ℕ}
    {results : Dict String (Dict ℕ (TrajResult F))} {inputBatch : List Instance} {valMode : Bool}
    {batch : DataProto F}
    (h : convertResultsToDataprotoToken config computePositionIdWithMask results inputBatch valMode
      = .ok batch)
    (htraj : ∀ m ∈ matchedResults results inputBatch, Trajectory m.2.messages)
    {k : ℕ} {item : Instance} {result : TrajResult F}
    (hk : (matchedResults results inputBatch)[k]? = some (item, result)) :
    ∃ row, batch.row? k = some row ∧
      RowCarries config (promptPart result.messages) (responsePart result.messages) row := by
  obtain ⟨encodings, heq, haligned, hids, hmask, hresponses, hloss, hprobs⟩ :=
    toLists_of_convert h htraj
  refine ⟨rowOf config (encodingOf (promptPart result.messages) (responsePart result.messages)),
    ?_, rowCarries_rowOf config (haligned _ (List.mem_of_getElem? hk))⟩
  rw [DataProto.row?, hids, hmask, hresponses, hloss, hprobs, heq]
  simp only [List.getElem?_map, hk, Option.map_some, Option.bind_eq_bind, Option.bind_some]
  rfl

/-- **Batch rows carry exactly the trajectory**: whenever the conversion returns, the batch has
one row for each matched trajectory, and this row carries the tokens, masks and
log-probabilities of the trajectory up to its last assistant message. -/
theorem rowCarries_of_convert {config : RolloutConfig}
    {computePositionIdWithMask : Tensor ℕ → Tensor ℕ}
    {results : Dict String (Dict ℕ (TrajResult F))} {inputBatch : List Instance} {valMode : Bool}
    {batch : DataProto F}
    (h : convertResultsToDataprotoToken config computePositionIdWithMask results inputBatch valMode
      = .ok batch)
    (htraj : ∀ m ∈ matchedResults results inputBatch, Trajectory m.2.messages) :
    batch.inputIds.rows.length = (matchedResults results inputBatch).length ∧
      ∀ k item result, (matchedResults results inputBatch)[k]? = some (item, result) →
        ∃ row prompt response rest, batch.row? k = some row ∧
          TurnSplit result.messages prompt response rest ∧
          RowCarries config prompt response row := by
  refine ⟨?_, ?_⟩
  · obtain ⟨encodings, heq, -, hids, -⟩ := toLists_of_convert h htraj
    have hlen := congrArg List.length hids
    simpa [Tensor.toLists, heq] using hlen
  · intro k item result hk
    obtain ⟨row, hrow, hcarries⟩ := row?_of_convert h htraj hk
    exact ⟨row, promptPart result.messages, responsePart result.messages, restPart result.messages,
      hrow, turnSplit_parts (htraj _ (List.mem_of_getElem? hk)), hcarries⟩

end Rows

/-! ### A batch with two turns -/

/-- The position ids of the trainer library: the number of attended positions before each
position, at least 0. -/
def cumulativePositions (mask : Tensor ℕ) : Tensor ℕ :=
  ⟨mask.width, mask.rows.map fun row => (row.scanl (· + ·) 0).tail.map (· - 1)⟩

/-- A trajectory with two answers, the second without log-probabilities, and a trailing user
message. -/
def twoTurns : TrajResult ℤ where
  messages := [⟨.user, some (some [5, 6]), none⟩,
    ⟨.assistant, some (some [7, 8]), some [-1, -2]⟩, ⟨.tool, some (some [9]), none⟩,
    ⟨.assistant, some (some [10]), none⟩, ⟨.user, some (some [11]), none⟩]
  resolved := true
  success := true
  finish := true
  error := none
  isPadded := false

/-- Its batch. -/
def twoTurnsResults : Dict String (Dict ℕ (TrajResult ℤ)) :=
  (Dict.empty).set "a" ((Dict.empty).set 0 twoTurns)

/-- The conversion accepts the batch of two turns, and its row carries them. -/
theorem rowCarries_twoTurns :
    ∃ batch, convertResultsToDataprotoToken ⟨0, 3, 6, 1, 1⟩ cumulativePositions twoTurnsResults
        [⟨"a"⟩] false = .ok batch ∧
      batch.inputIds.rows.length = 1 ∧
      ∃ row prompt response rest, batch.row? 0 = some row ∧
        TurnSplit twoTurns.messages prompt response rest ∧
        RowCarries ⟨0, 3, 6, 1, 1⟩ prompt response row := by
  obtain ⟨batch, hbatch⟩ : ∃ batch, convertResultsToDataprotoToken ⟨0, 3, 6, 1, 1⟩
      cumulativePositions twoTurnsResults [⟨"a"⟩] false = .ok batch := ⟨_, rfl⟩
  have hmatched : matchedResults twoTurnsResults [⟨"a"⟩] = [(⟨"a"⟩, twoTurns)] := rfl
  have htraj : ∀ m ∈ matchedResults twoTurnsResults [⟨"a"⟩], Trajectory m.2.messages := by
    rw [hmatched, List.forall_mem_singleton]
    refine ⟨⟨_, rfl, by decide⟩,
      ⟨⟨.assistant, some (some [10]), none⟩, by simp [twoTurns], rfl⟩, ?_⟩
    simp [twoTurns]
  obtain ⟨hlen, hrows⟩ := rowCarries_of_convert hbatch htraj
  exact ⟨batch, hbatch, hlen, hrows 0 _ _ (by rw [hmatched]; rfl)⟩

end ProRLAgent.Rollout
