import ProRLAgent.Rollout.BatchRows

set_option relaxedAutoImplicit false
set_option autoImplicit false

/-!
# The single-turn producer

The handler of the single-turn data (`openhands/nvidia/math_coder/prorl_handler.py`) asks for one
generation and returns the messages of its prompt, followed by the generated one. The ids of the
whole prompt are attached to its last message, and the other messages of the prompt get null ids.

The conversion takes the length of the ids of every message. So it accepts exactly the prompts of
one message.

## Main definitions

* `ProRLAgent.Rollout.ProRLHandler.run` — the producer.
* `ProRLAgent.Rollout.Generation` — a prompt with the result of its generation.
* `ProRLAgent.Rollout.Generation.HeldBy` — a row holds the ids of a generation.

## Main results

* `ProRLAgent.Rollout.exists_convert_iff` — the batches that the conversion accepts.
* `ProRLAgent.Rollout.exists_heldBy_iff` — when the batch of a producer is accepted, with the ids
  of each generation in its row.
-/

namespace ProRLAgent.Rollout

variable {F : Type}

/-! ## The producer -/

/-- A message of a chat prompt. -/
structure ChatMessage where
  role : Role
  content : String
  deriving DecidableEq, Repr

/-- The answer of the endpoint `/generate`, with `none` for an absent entry. -/
structure GenerateReply (F : Type) where
  statusCode : ℕ
  text : String
  responseIds : Option (List Token)
  logprobs : Option (List F)

/-- What `run` returns. An exception stands for its text. -/
structure RunResult (F : Type) where
  success : Bool
  error : Option PyError
  finish : Bool
  messages : List (TrajMessage F)
  endProperly : Bool

/-- The handler, with its tokenizer: the ids of a chat with its tools under the chat template. -/
structure ProRLHandler where
  tokenize : List ChatMessage → Option String → List Token
  eosTokenId : Option Token

/-- The messages of the prompt: null entries, and the ids of the whole prompt at the last one. -/
def promptMessages (chat : List ChatMessage) (inputTokenIds : List Token) :
    Except PyError (List (TrajMessage F)) :=
  match chat.getLast? with
  | some last => .ok (chat.dropLast.map (fun message => ⟨message.role, some none, none⟩) ++
      [⟨last.role, some (some inputTokenIds), none⟩])
  | none => .error .indexError

namespace ProRLHandler

/-- The body of `run`. The request is a parameter: it gets the ids and the number of tokens. -/
def generate (handler : ProRLHandler) (maxModelLen : ℤ) (chat : List ChatMessage)
    (tools : Option String) (post : List Token → ℤ → Except PyError (GenerateReply F)) :
    Except PyError (RunResult F) := do
  let inputTokenIds := handler.tokenize chat tools
  let maxTokens := maxModelLen - inputTokenIds.length
  if maxTokens ≤ 0 then
    throw (.valueError ("Input length (" ++ toString inputTokenIds.length ++
      ") exceeds model context limit (" ++ toString maxModelLen ++ ")"))
  let messages ← promptMessages chat inputTokenIds
  let reply ← post inputTokenIds maxTokens
  if reply.statusCode ≠ 200 then
    throw (.other ("LLM server returned status " ++ toString reply.statusCode ++ ": " ++
      reply.text))
  match reply.responseIds with
  | none => throw (.valueError ("Response does not contain response_ids: " ++ reply.text))
  | some outputTokenIds =>
    let truncated := maxTokens ≤ outputTokenIds.length ∧ handler.eosTokenId ≠ none ∧
      outputTokenIds.getLast? ≠ handler.eosTokenId
    return {
      success := true
      error := none
      finish := true
      messages := messages ++ [⟨.assistant, some (some outputTokenIds), reply.logprobs⟩]
      endProperly := !truncated }

/-- The function `run`: every exception becomes an error result without messages. -/
def run (handler : ProRLHandler) (maxModelLen : ℤ) (chat : List ChatMessage)
    (tools : Option String) (post : List Token → ℤ → Except PyError (GenerateReply F)) :
    RunResult F :=
  match handler.generate maxModelLen chat tools post with
  | .ok result => result
  | .error e => ⟨false, some e, false, [], false⟩

end ProRLHandler

/-- **A generation**: a chat prompt without answers, a request that leaves room, and the generated
ids with their log-probabilities. -/
structure Generation (F : Type) where
  handler : ProRLHandler
  maxModelLen : ℤ
  chat : List ChatMessage
  tools : Option String
  outputTokenIds : List Token
  logprobs : List F
  chat_ne_nil : chat ≠ []
  chat_roles : ∀ message ∈ chat, message.role ≠ .assistant
  room : ((handler.tokenize chat tools).length : ℤ) < maxModelLen
  length_logprobs : logprobs.length = outputTokenIds.length

namespace Generation

/-- The ids of the prompt. -/
def inputTokenIds (g : Generation F) : List Token := g.handler.tokenize g.chat g.tools

/-- The messages that `run` returns. -/
def messages (g : Generation F) : List (TrajMessage F) :=
  (g.handler.run g.maxModelLen g.chat g.tools fun _ _ =>
    .ok ⟨200, "", some g.outputTokenIds, some g.logprobs⟩).messages

/-- **The row holds the generation**: the prompt ids, cut to `max_starting_message_length`, and the
generated ids, with the loss mask on all of them. -/
structure HeldBy (config : RolloutConfig) (g : Generation F) (row : BatchRow F) : Prop where
  inputIds : row.inputIds =
    leftPadded config.padTokenId config.maxStartingMessageLength
        (g.inputTokenIds.take config.maxStartingMessageLength) ++
      rightPadded config.padTokenId config.totalLen g.outputTokenIds
  attended : row.attended =
    g.inputTokenIds.take config.maxStartingMessageLength ++ g.outputTokenIds
  responses : row.responses = rightPadded config.padTokenId config.totalLen g.outputTokenIds
  lossMask : row.lossMask = rightPadded 0 config.totalLen (ones g.outputTokenIds)

end Generation

/-! ## The batches that the conversion accepts -/

section Acceptance

variable [Zero F]

/-- A trajectory whose kept messages have ids is encoded. -/
lemma encodeResult_of_hasIds {result : TrajResult F} (hne : dropTrailing result.messages ≠ [])
    (hids : ∀ msg ∈ dropTrailing result.messages, msg.HasIds) :
    encodeResult result =
      .ok (encodingOf (promptPart result.messages) (responsePart result.messages)) := by
  obtain ⟨entries, hentries, hallIds⟩ := mapM_getTokenIds_iff.mpr ⟨hids, rfl⟩
  obtain ⟨encoding, hencoding⟩ : ∃ encoding, encodeResult result = .ok encoding := by
    simp only [encodeResult, Except.ite_throw_eq_ok, hentries, hallIds, Except.ok_bind]
    exact ⟨_, by simpa using hne, rfl⟩
  rw [hencoding, (encodeResult_eq hencoding).1]

/-- The call `max(lengths)` returns on a batch that is not empty. -/
lemma exists_maxLength {lengths : List ℕ} (h : lengths ≠ []) :
    ∃ n, maxLength lengths = .ok n ∧ n ∈ lengths := by
  obtain ⟨n, hn⟩ := Option.ne_none_iff_exists'.mp (mt List.max?_eq_none_iff.mp h)
  refine ⟨n, ?_, (List.max?_eq_some_iff.mp hn).1⟩
  rw [maxLength, hn]

omit [Zero F] in
/-- The largest length of the prompts is 0 exactly if all of them are empty. -/
lemma maxLength_ne_zero_iff {encodings : List (Encoding F)} {n : ℕ}
    (hn : maxLength (encodings.map fun e => e.promptIds.length) = .ok n) :
    n ≠ 0 ↔ ∃ e ∈ encodings, e.promptIds ≠ [] := by
  obtain ⟨hne, hle⟩ := maxLength_eq_ok hn
  obtain ⟨m, hm, hmem⟩ := exists_maxLength hne
  obtain rfl := Except.ok.inj (hm.symm.trans hn)
  constructor
  · intro hpos
    obtain ⟨e, he, hlen⟩ := List.mem_map.mp hmem
    exact ⟨e, he, fun hnil => hpos (by rw [← hlen, hnil, List.length_nil])⟩
  · rintro ⟨e, he, hids⟩ hzero
    have hlen := hle _ (List.mem_map_of_mem he)
    exact hids (List.length_eq_zero_iff.mp (by omega))

/-- The responses are padded if the batch is not empty. -/
lemma exists_padResponses (config : RolloutConfig) {encodings : List (Encoding F)}
    (hne : encodings ≠ []) (hparallel : ∀ e ∈ encodings, e.response.Parallel) :
    ∃ out, padResponses config encodings = .ok out ∧ out.inputIds.width = config.totalLen ∧
      out.attentionMask.width = config.totalLen ∧ out.assistantMask.width = config.totalLen ∧
      out.logProbs.width = config.totalLen := by
  obtain ⟨n, hn, -⟩ := exists_maxLength
    (show (encodings.map fun e => e.response.inputIds.length) ≠ [] by simpa using hne)
  obtain ⟨rows, hrows, -⟩ := exists_padToMaxLengthRight config.padTokenId config.totalLen
    (encodings.map fun e => extendResponse config.padTokenId n e.response) (by
      intro encoding hmem
      obtain ⟨e, he, rfl⟩ := List.mem_map.mp hmem
      exact covers_extendResponse (hparallel e he))
  have hrun : padResponses config encodings = padToMaxLengthRight config.padTokenId
      (encodings.map fun e => extendResponse config.padTokenId n e.response) config.totalLen := by
    simp only [padResponses, hn, Except.ok_bind]
  exact ⟨_, hrun.trans hrows, rfl, rfl, rfl, rfl⟩

/-- The encodings of a batch of trajectories are those of their parts. -/
def partEncodings (matched : List (Instance × TrajResult F)) : List (Encoding F) :=
  matched.map fun m => encodingOf (promptPart m.2.messages) (responsePart m.2.messages)

omit [Zero F] in
/-- A trajectory keeps a message. -/
lemma Trajectory.dropTrailing_ne_nil {messages : List (TrajMessage F)} (h : Trajectory messages) :
    dropTrailing messages ≠ [] := by
  obtain ⟨msg, hmsg, -⟩ := (turnSplit_parts h).response_first
  intro hnil
  simp [responsePart, hnil] at hmsg

/-- **The accepted batches**: the conversion returns exactly if the number of trajectories is the
expected one, every kept message has ids, and some prompt has one. -/
theorem exists_convert_iff {config : RolloutConfig}
    {computePositionIdWithMask : Tensor ℕ → Tensor ℕ}
    {results : Dict String (Dict ℕ (TrajResult F))} {inputBatch : List Instance} {valMode : Bool}
    (hpos : ∀ mask, (computePositionIdWithMask mask).width = mask.width)
    (htraj : ∀ m ∈ matchedResults results inputBatch, Trajectory m.2.messages) :
    (∃ batch, convertResultsToDataprotoToken config computePositionIdWithMask results inputBatch
        valMode = .ok batch) ↔
      (matchedResults results inputBatch).length = expectedCount config inputBatch valMode ∧
      (∀ m ∈ matchedResults results inputBatch, ∀ msg ∈ dropTrailing m.2.messages, msg.HasIds) ∧
      ∃ m ∈ matchedResults results inputBatch,
        (promptPart m.2.messages).flatMap TrajMessage.ids ≠ [] := by
  set matched := matchedResults results inputBatch with hmatched
  have hmask : ∀ e ∈ partEncodings matched, e.promptAttentionMask = ones e.promptIds := by
    intro e he
    obtain ⟨m, -, rfl⟩ := List.mem_map.mp he
    rfl
  have hnonempty : (∃ e ∈ partEncodings matched, e.promptIds ≠ []) ↔
      ∃ m ∈ matched, (promptPart m.2.messages).flatMap TrajMessage.ids ≠ [] := by
    simp [partEncodings, encodingOf]
  rw [← hnonempty]
  simp only [convertResultsToDataprotoToken, ← hmatched, fillEmptyMessages_matched htraj]
  constructor
  · rintro ⟨batch, h⟩
    obtain ⟨hcount, h⟩ := Except.ite_throw_eq_ok.mp h
    obtain ⟨encodings, hencodings, h⟩ := Except.bind_eq_ok.mp h
    obtain ⟨prompts, hprompts, -⟩ := Except.bind_eq_ok.mp h
    obtain ⟨heq, hids⟩ := mapM_encodeResult hencodings
    obtain rfl : encodings = partEncodings matched := by rw [heq, List.map_map]; rfl
    obtain ⟨n, hn, -⟩ := Except.bind_eq_ok.mp (by simpa only [padPrompts] using hprompts)
    obtain ⟨_, hout, -⟩ := exists_padPrompts config hn hmask
    exact ⟨not_not.mp hcount, fun m hm => hids m.2 (List.mem_map_of_mem hm),
      (maxLength_ne_zero_iff hn).mp ((hout _).mp hprompts).1⟩
  · rintro ⟨hcount, hids, hprompt⟩
    have hne : partEncodings matched ≠ [] := by
      obtain ⟨e, he, -⟩ := hprompt
      exact List.ne_nil_of_mem he
    have hencodings : (matched.map Prod.snd).mapM encodeResult = .ok (partEncodings matched) := by
      rw [Except.mapM_eq_ok_iff, partEncodings, List.forall₂_map_left_iff,
        List.forall₂_map_right_iff, List.forall₂_same]
      exact fun m hm => encodeResult_of_hasIds (htraj m hm).dropTrailing_ne_nil (hids m hm)
    have hparallel : ∀ e ∈ partEncodings matched, e.response.Parallel := by
      intro e he
      obtain ⟨m, hm, rfl⟩ := List.mem_map.mp he
      exact parallel_encodingOf fun msg hmsg =>
        (htraj m hm).aligned hmsg (hids m hm msg (List.mem_of_mem_drop hmsg))
    obtain ⟨n, hn, -⟩ := exists_maxLength
      (show (partEncodings matched).map (fun e => e.promptIds.length) ≠ [] by simpa using hne)
    obtain ⟨prompts, hprompts, hids₁, hmask₁, hwidth₁, hwidth₂⟩ :=
      exists_padPrompts config hn hmask
    have hpad := (hprompts prompts).mpr ⟨(maxLength_ne_zero_iff hn).mpr hprompt, rfl⟩
    obtain ⟨responses, hresponses, hwidth₃, hwidth₄, hwidth₅, hwidth₆⟩ :=
      exists_padResponses config hne hparallel
    obtain ⟨hids₂, hmask₂, -⟩ := padResponses_eq hresponses hparallel
    obtain ⟨inputIds, hcat₁, -, hsum₁⟩ := Tensor.exists_cat (s := prompts.1)
      (t := responses.inputIds) (by rw [hids₁, hids₂, List.length_map, List.length_map])
    obtain ⟨attentionMask, hcat₂, -, hsum₂⟩ := Tensor.exists_cat (s := prompts.2)
      (t := responses.attentionMask) (by rw [hmask₁, hmask₂, List.length_map, List.length_map])
    have hwidths : inputIds.width = attentionMask.width ∧
        attentionMask.width = (computePositionIdWithMask attentionMask).width := by
      rw [hpos, hsum₁, hsum₂, hwidth₁, hwidth₂, hwidth₃, hwidth₄]
      exact ⟨rfl, rfl⟩
    have hshapes : responses.inputIds.width = responses.assistantMask.width ∧
        responses.assistantMask.width = responses.logProbs.width := by
      rw [hwidth₃, hwidth₅, hwidth₆]
      exact ⟨rfl, rfl⟩
    rw [if_neg (not_not.mpr hcount)]
    simp only [hencodings, hpad, hresponses, hcat₁, hcat₂, Except.ok_bind]
    rw [if_neg (not_not.mpr hwidths), if_neg (not_not.mpr hshapes)]
    exact ⟨_, rfl⟩

end Acceptance

/-! ## The batches of the producer -/

namespace Generation

variable (g : Generation F)

/-- The messages of the prompt that `run` returns. -/
def prompt : List (TrajMessage F) :=
  g.chat.dropLast.map (fun message => ⟨message.role, some none, none⟩) ++
    [⟨(g.chat.getLast g.chat_ne_nil).role, some (some g.inputTokenIds), none⟩]

/-- The generated message. -/
def answer : TrajMessage F := ⟨.assistant, some (some g.outputTokenIds), some g.logprobs⟩

/-- **The messages of a run**: the prompt and the generated message. -/
lemma messages_eq : g.messages = g.prompt ++ [g.answer] := by
  have hroom : ¬ (g.maxModelLen - ((g.handler.tokenize g.chat g.tools).length : ℤ) ≤ 0) := by
    have := g.room
    omega
  have hprompt : promptMessages g.chat (g.handler.tokenize g.chat g.tools) = .ok g.prompt := by
    rw [promptMessages, List.getLast?_eq_some_getLast g.chat_ne_nil]
    rfl
  simp only [messages, ProRLHandler.run, ProRLHandler.generate, if_neg hroom, hprompt,
    Except.ok_bind, ne_eq, not_true_eq_false, if_false]
  rfl

lemma prompt_ne_nil : g.prompt ≠ [] := by simp [prompt]

/-- No message of the prompt is from the assistant. -/
lemma role_of_mem_prompt : ∀ msg ∈ g.prompt, msg.role ≠ .assistant := by
  intro msg hmsg
  rcases List.mem_append.mp hmsg with hmsg | hmsg
  · obtain ⟨message, hmessage, rfl⟩ := List.mem_map.mp hmsg
    exact g.chat_roles message (List.dropLast_subset _ hmessage)
  · obtain rfl := List.mem_singleton.mp hmsg
    exact g.chat_roles _ (List.getLast_mem g.chat_ne_nil)

/-- The conversion keeps all messages of a run. -/
lemma dropTrailing_messages : dropTrailing g.messages = g.messages := by
  rw [messages_eq, dropTrailing, List.rdropWhile_concat_neg]
  simp [answer]

/-- The first answer of a run comes behind its prompt. -/
lemma startingIndex_messages : startingIndex g.messages = g.prompt.length := by
  rw [messages_eq]
  exact startingIndex_append g.prompt_ne_nil g.role_of_mem_prompt rfl

lemma promptPart_messages : promptPart g.messages = g.prompt := by
  rw [promptPart, dropTrailing_messages, startingIndex_messages, messages_eq, List.take_left]

lemma responsePart_messages : responsePart g.messages = [g.answer] := by
  rw [responsePart, dropTrailing_messages, startingIndex_messages, messages_eq, List.drop_left]

/-- The messages of a run are a trajectory. -/
lemma trajectory_messages : Trajectory g.messages := by
  rw [messages_eq]
  refine ⟨?_, ⟨g.answer, by simp, rfl⟩, ?_⟩
  · obtain ⟨msg, rest, hprompt⟩ := List.exists_cons_of_ne_nil g.prompt_ne_nil
    refine ⟨msg, by rw [hprompt]; rfl, g.role_of_mem_prompt msg ?_⟩
    rw [hprompt]
    exact List.mem_cons_self
  · intro msg hmsg tokenIds logprobs hids hprobs
    rcases List.mem_append.mp hmsg with hmsg | hmsg
    · simp only [prompt, List.mem_append, List.mem_map, List.mem_singleton] at hmsg
      obtain ⟨_, -, rfl⟩ | rfl := hmsg <;> simp at hprobs
    · obtain rfl := List.mem_singleton.mp hmsg
      obtain rfl : g.outputTokenIds = tokenIds := by simpa [answer] using hids
      obtain rfl : g.logprobs = logprobs := by simpa [answer] using hprobs
      exact g.length_logprobs

/-- **Null ids**: all messages of a run have ids exactly if its prompt is one message. -/
lemma hasIds_messages_iff :
    (∀ msg ∈ dropTrailing g.messages, msg.HasIds) ↔ g.chat.length = 1 := by
  have hlen : g.chat.length = g.chat.dropLast.length + 1 := by
    have := List.length_pos_iff.mpr g.chat_ne_nil
    rw [List.length_dropLast]
    omega
  have hnull : ∀ role : Role, ¬ (⟨role, some none, none⟩ : TrajMessage F).HasIds := by
    simp [TrajMessage.HasIds]
  rw [dropTrailing_messages, messages_eq]
  constructor
  · intro h
    cases hdrop : g.chat.dropLast with
    | nil => rw [hlen, hdrop, List.length_nil]
    | cons message rest => exact absurd (h _ (by simp [prompt, hdrop])) (hnull message.role)
  · intro h
    have hdrop : g.chat.dropLast = [] := List.length_eq_zero_iff.mp (by omega)
    simp [prompt, hdrop, answer, TrajMessage.HasIds, TrajMessage.ids]

/-- The ids of the prompt are those at its last message. -/
lemma flatMap_ids_prompt : g.prompt.flatMap TrajMessage.ids = g.inputTokenIds := by
  have hnull : ∀ chat : List ChatMessage, (chat.map fun message =>
      (⟨message.role, some none, none⟩ : TrajMessage F)).flatMap TrajMessage.ids = [] := by
    intro chat
    simp [TrajMessage.ids, List.flatMap_map]
  rw [prompt, List.flatMap_append, hnull]
  simp [TrajMessage.ids]

variable [Zero F]

/-- A row that carries the parts of a run holds the generation exactly if the generated ids fit
into the row. -/
lemma heldBy_iff {config : RolloutConfig} {row : BatchRow F}
    (h : RowCarries config g.prompt [g.answer] row) :
    g.HeldBy config row ↔ g.outputTokenIds.length ≤ config.totalLen := by
  have hanswer : [g.answer].flatMap TrajMessage.ids = g.outputTokenIds := by
    simp [answer, TrajMessage.ids]
  have htagged : ([g.answer].flatMap TrajMessage.tagged).map
      (fun t => if t.fromAssistant then 1 else 0) = ones g.outputTokenIds := by
    have haligned : g.answer.Aligned := g.length_logprobs
    rw [List.flatMap_singleton, map_fromAssistant_tagged haligned]
    rfl
  obtain ⟨hattended, hids, -, hresponses, -, hloss, -⟩ := h
  rw [flatMap_ids_prompt, hanswer] at hattended hids
  rw [hanswer] at hresponses
  rw [List.map_take, htagged, take_ones] at hloss
  constructor
  · intro hheld
    have hlen := congrArg List.length (hheld.attended.symm.trans hattended)
    simp only [List.length_append, List.length_take] at hlen
    omega
  · intro hfits
    rw [List.take_of_length_le hfits] at hattended hids hresponses hloss
    exact ⟨hids, hattended, hresponses, hloss⟩

end Generation

section Agreement

variable [Zero F] {config : RolloutConfig} {computePositionIdWithMask : Tensor ℕ → Tensor ℕ}
  {results : Dict String (Dict ℕ (TrajResult F))} {inputBatch : List Instance} {valMode : Bool}
  {generations : List (Generation F)}

/-- The matched results of a batch are runs of the producer. -/
def ProducedBy (generations : List (Generation F)) (results : Dict String (Dict ℕ (TrajResult F)))
    (inputBatch : List Instance) : Prop :=
  List.Forall₂ (fun g m => m.2.messages = g.messages) generations
    (matchedResults results inputBatch)

omit [Zero F] in
/-- The matched messages are those of the runs. -/
lemma ProducedBy.map_messages (h : ProducedBy generations results inputBatch) :
    (matchedResults results inputBatch).map (fun m => m.2.messages)
      = generations.map Generation.messages :=
  map_eq_map_of_forall₂ h

omit [Zero F] in
/-- A property of the messages of all matched results is one of all runs. -/
lemma ProducedBy.forall_iff (h : ProducedBy generations results inputBatch)
    {P : List (TrajMessage F) → Prop} :
    (∀ m ∈ matchedResults results inputBatch, P m.2.messages) ↔
      ∀ g ∈ generations, P g.messages := by
  calc (∀ m ∈ matchedResults results inputBatch, P m.2.messages)
      ↔ ∀ messages ∈ (matchedResults results inputBatch).map fun m => m.2.messages, P messages :=
        List.forall_mem_map.symm
    _ ↔ ∀ messages ∈ generations.map Generation.messages, P messages := by rw [h.map_messages]
    _ ↔ ∀ g ∈ generations, P g.messages := List.forall_mem_map

/-- **The producer and the conversion agree**: a batch of runs is accepted, with each generation in
its row, exactly if every prompt is one message, the generated ids fit into the rows, and some
prompt has ids. -/
theorem exists_heldBy_iff
    (hpos : ∀ mask, (computePositionIdWithMask mask).width = mask.width)
    (hproduced : ProducedBy generations results inputBatch)
    (hcount : generations.length = expectedCount config inputBatch valMode) :
    (∃ batch, convertResultsToDataprotoToken config computePositionIdWithMask results inputBatch
        valMode = .ok batch ∧
      ∀ k g, generations[k]? = some g → ∃ row, batch.row? k = some row ∧ g.HeldBy config row) ↔
      (∀ g ∈ generations, g.chat.length = 1 ∧ g.outputTokenIds.length ≤ config.totalLen) ∧
      ∃ g ∈ generations, g.inputTokenIds ≠ [] := by
  have htraj : ∀ m ∈ matchedResults results inputBatch, Trajectory m.2.messages :=
    hproduced.forall_iff.mpr fun g _ => g.trajectory_messages
  have hids : (∀ m ∈ matchedResults results inputBatch, ∀ msg ∈ dropTrailing m.2.messages,
      msg.HasIds) ↔ ∀ g ∈ generations, g.chat.length = 1 := by
    rw [hproduced.forall_iff (P := fun messages => ∀ msg ∈ dropTrailing messages, msg.HasIds)]
    exact forall₂_congr fun g _ => g.hasIds_messages_iff
  have hprompt : (∃ m ∈ matchedResults results inputBatch,
      (promptPart m.2.messages).flatMap TrajMessage.ids ≠ []) ↔
      ∃ g ∈ generations, g.inputTokenIds ≠ [] := by
    rw [← not_iff_not]
    push Not
    rw [hproduced.forall_iff (P := fun messages =>
      (promptPart messages).flatMap TrajMessage.ids = [])]
    refine forall₂_congr fun g _ => ?_
    rw [g.promptPart_messages, g.flatMap_ids_prompt]
  have hlen : (matchedResults results inputBatch).length =
      expectedCount config inputBatch valMode :=
    hproduced.length_eq.symm.trans hcount
  have haccepted : (∃ batch, convertResultsToDataprotoToken config computePositionIdWithMask
      results inputBatch valMode = .ok batch) ↔ _ := exists_convert_iff hpos htraj
  rw [hids, hprompt] at haccepted
  -- The row of a run of an accepted batch.
  have hrows : ∀ batch, convertResultsToDataprotoToken config computePositionIdWithMask results
      inputBatch valMode = .ok batch → ∀ k g, generations[k]? = some g →
      ∃ row, batch.row? k = some row ∧
        (g.HeldBy config row ↔ g.outputTokenIds.length ≤ config.totalLen) := by
    intro batch hbatch k g hk
    obtain ⟨m, hm, hmessages⟩ : ∃ m, (matchedResults results inputBatch)[k]? = some m ∧
        m.2.messages = g.messages := by
      have hmap := congrArg (fun l => l[k]?) hproduced.map_messages
      simp only [List.getElem?_map, hk, Option.map_some, Option.map_eq_some_iff] at hmap
      exact hmap
    obtain ⟨row, hrow, hcarries⟩ := row?_of_convert hbatch htraj hm
    rw [hmessages, g.promptPart_messages, g.responsePart_messages] at hcarries
    exact ⟨row, hrow, g.heldBy_iff hcarries⟩
  constructor
  · rintro ⟨batch, hbatch, hheld⟩
    obtain ⟨-, hone, hsome⟩ := haccepted.mp ⟨batch, hbatch⟩
    refine ⟨fun g hg => ⟨hone g hg, ?_⟩, hsome⟩
    obtain ⟨k, hk⟩ := List.mem_iff_getElem?.mp hg
    obtain ⟨row, hrow, hiff⟩ := hrows batch hbatch k g hk
    obtain ⟨row', hrow', hholds⟩ := hheld k g hk
    obtain rfl := Option.some.inj (hrow.symm.trans hrow')
    exact hiff.mp hholds
  · rintro ⟨hall, hsome⟩
    obtain ⟨batch, hbatch⟩ := haccepted.mpr ⟨hlen, fun g hg => (hall g hg).1, hsome⟩
    refine ⟨batch, hbatch, fun k g hk => ?_⟩
    obtain ⟨row, hrow, hiff⟩ := hrows batch hbatch k g hk
    exact ⟨row, hrow, hiff.mpr (hall g (List.mem_of_getElem? hk)).2⟩

end Agreement

/-! ### Two prompts -/

/-- A handler whose template writes one id for each message, and one more. -/
def countingHandler : ProRLHandler := ⟨fun chat _ => List.replicate (chat.length + 1) 7, none⟩

/-- A generation for a prompt of one message. -/
def oneMessage : Generation ℤ where
  handler := countingHandler
  maxModelLen := 8192
  chat := [⟨.user, "What is 2 + 2?"⟩]
  tools := none
  outputTokenIds := [8, 9]
  logprobs := [-1, -2]
  chat_ne_nil := by decide
  chat_roles := by decide
  room := by decide
  length_logprobs := rfl

/-- A generation for a prompt with a system message. -/
def withSystemMessage : Generation ℤ where
  handler := countingHandler
  maxModelLen := 8192
  chat := [⟨.system, "Answer with a number."⟩, ⟨.user, "What is 2 + 2?"⟩]
  tools := none
  outputTokenIds := [8, 9]
  logprobs := [-1, -2]
  chat_ne_nil := by decide
  chat_roles := by decide
  room := by decide
  length_logprobs := rfl

/-- The results of a batch with one run. -/
def singleRun (g : Generation ℤ) : Dict String (Dict ℕ (TrajResult ℤ)) :=
  (Dict.empty).set "a" ((Dict.empty).set 0 ⟨g.messages, true, true, true, none, false⟩)

/-- A batch with one run is produced by it. -/
lemma producedBy_singleRun (g : Generation ℤ) : ProducedBy [g] (singleRun g) [⟨"a"⟩] := by
  have hmatched : matchedResults (singleRun g) [⟨"a"⟩]
      = [(⟨"a"⟩, ⟨g.messages, true, true, true, none, false⟩)] := rfl
  rw [ProducedBy, hmatched]
  exact .cons rfl .nil

/-- The batch of the prompt of one message is accepted, with the generation in its row. -/
theorem exists_heldBy_oneMessage :
    (∀ mask, (cumulativePositions mask).width = mask.width) ∧
    ProducedBy [oneMessage] (singleRun oneMessage) [⟨"a"⟩] ∧
    ∃ batch, convertResultsToDataprotoToken ⟨0, 3, 6, 1, 1⟩ cumulativePositions
        (singleRun oneMessage) [⟨"a"⟩] false = .ok batch ∧
      ∀ k g, [oneMessage][k]? = some g → ∃ row, batch.row? k = some row ∧
        g.HeldBy ⟨0, 3, 6, 1, 1⟩ row := by
  have hpos : ∀ mask, (cumulativePositions mask).width = mask.width := fun _ => rfl
  have hproduced := producedBy_singleRun oneMessage
  refine ⟨hpos, hproduced, (exists_heldBy_iff hpos hproduced rfl).mpr ?_⟩
  simp [oneMessage, Generation.inputTokenIds, countingHandler]

/-- **A system message is refused**: its ids are null, and the conversion takes their length. -/
theorem convert_withSystemMessage :
    ProducedBy [withSystemMessage] (singleRun withSystemMessage) [⟨"a"⟩] ∧
    convertResultsToDataprotoToken ⟨0, 3, 6, 1, 1⟩ cumulativePositions
        (singleRun withSystemMessage) [⟨"a"⟩] false =
      .error (.typeError "object of type 'NoneType' has no len()") :=
  ⟨producedBy_singleRun withSystemMessage, rfl⟩

end ProRLAgent.Rollout
