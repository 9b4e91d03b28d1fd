import GreenCompute.Foundations.Text
import Mathlib.Algebra.Order.Ring.Int

/-!
# What a completion is charged for

The only usage that the gateway sees is what the miner reports. It is clamped to what the request
could have used, by bounds that are read off the request, so a charge is at most the charge for the
bounds: the estimate that was reserved before the request was sent. `within_invokeFromCandidates` and
`within_streamFromCandidates` say so for every way in which the machines may answer.
-/

namespace GreenCompute

/-! ## Requests -/

/-- A block of a message with several. -/
structure ContentBlock where
  text : Option Text
  isImage : Bool
  deriving DecidableEq

/-- The content of a message. -/
inductive MessageContent where
  | text (t : Text)
  | blocks (bs : List ContentBlock)
  deriving DecidableEq

/-- `ChatCompletionRequest`, as far as it is billed; `max_completion_tokens` is an extra field. -/
structure ChatCompletionRequest where
  model : Text
  messages : List MessageContent
  maxTokens : Option ℤ
  maxCompletionTokens : Option ℤ
  deriving DecidableEq

namespace ChatCompletionRequest

/-- `_BILLED_COMPLETION_TOKENS_CEILING` -/
def billedCompletionTokensCeiling : ℤ := 131072

/-- `_BILLED_PROMPT_TOKENS_PER_IMAGE` -/
def billedPromptTokensPerImage : ℤ := 16384

/-- `_BILLED_PROMPT_TOKENS_PER_MESSAGE` -/
def billedPromptTokensPerMessage : ℤ := 32

/-- `_BILLED_PROMPT_TOKENS_BASE` -/
def billedPromptTokensBase : ℤ := 256

/-- The characters of a message. -/
def chars : MessageContent → ℕ
  | .text t => t.length
  | .blocks bs => (bs.map fun b ↦ (b.text.getD []).length).sum

/-- The images of a message. -/
def images : MessageContent → ℕ
  | .text _ => 0
  | .blocks bs => bs.countP fun b ↦ b.isImage

variable (request : ChatCompletionRequest)

/-- `_prompt_token_bound` -/
def promptTokenBound : ℤ :=
  ((request.messages.map chars).sum : ℕ) +
    ((request.messages.map images).sum : ℕ) * billedPromptTokensPerImage +
    request.messages.length * billedPromptTokensPerMessage + billedPromptTokensBase

/-- The larger of the two fields that cap the completion, if either does. -/
def requestedMax : Option ℤ :=
  match request.maxCompletionTokens with
  | some n => if 0 < n then some (max (request.maxTokens.getD 0) n) else request.maxTokens
  | none => request.maxTokens

/-- `_completion_token_bound` -/
def completionTokenBound : ℤ :=
  match request.requestedMax with
  | some n => if n ≠ 0 then min n billedCompletionTokensCeiling else billedCompletionTokensCeiling
  | none => billedCompletionTokensCeiling

/-- `_clamp_reported_usage` -/
def clampReportedUsage (promptTokens completionTokens : ℤ) : ℤ × ℤ :=
  (min (max promptTokens 0) request.promptTokenBound,
    min (max completionTokens 0) request.completionTokenBound)

end ChatCompletionRequest

/-! ## What a machine answers -/

/-- The usage of a response. -/
structure Usage where
  promptTokens : ℤ
  completionTokens : ℤ
  deriving DecidableEq

/-- What becomes of a request sent to a machine. An error of the inference client has the next
machine tried; any other ends the request. -/
inductive Invoked where
  | response (usage : Option Usage)
  | failed
  | raised
  deriving DecidableEq

/-- The usage object of a streamed chunk; false when it is empty. -/
structure UsageChunk where
  promptTokens : Option ℤ
  completionTokens : Option ℤ
  otherKeys : Bool
  deriving DecidableEq

/-- Python truthiness of a usage object. -/
def UsageChunk.truthy (usage : UsageChunk) : Bool :=
  usage.promptTokens.isSome || usage.completionTokens.isSome || usage.otherKeys

/-- A streamed line, as far as it is billed. -/
structure StreamLine where
  hasContent : Bool
  usage : Option UsageChunk
  deriving DecidableEq

/-- How a stream ends: complete, with an error of the inference client, left by the caller, or with
any other exception. -/
inductive StreamEnd where
  | finished
  | failed
  | disconnected
  | raised
  deriving DecidableEq

/-- A stream that a machine serves. -/
structure Streamed where
  lines : List StreamLine
  ending : StreamEnd
  deriving DecidableEq

namespace Streamed

variable (s : Streamed)

/-- The content chunks that were passed on. -/
def chunkCount : ℕ := s.lines.countP fun line ↦ line.hasContent

/-- The last usage object that was reported. -/
def streamUsage : Option UsageChunk := (s.lines.filterMap StreamLine.usage).getLast?

end Streamed

/-! ## The charge -/

/-- The tokens a user is charged for, and whether the machine serves a private model, for which
nobody is charged by the token. -/
structure TokenCharge where
  isPrivateModel : Bool
  promptTokens : ℤ
  completionTokens : ℤ
  deriving DecidableEq

namespace ChatCompletionRequest

variable (request : ChatCompletionRequest)

/-- `_invoke_from_candidates`: each machine with whether it serves a private model, and what it
answers if it is tried. -/
def invokeFromCandidates : List (Bool × Invoked) → Option TokenCharge
  | [] => none
  | (isPrivateModel, .response (some usage)) :: _ =>
    let billed := request.clampReportedUsage usage.promptTokens usage.completionTokens
    some ⟨isPrivateModel, billed.1, billed.2⟩
  | (_, .response none) :: _ => none
  | (_, .failed) :: rest => invokeFromCandidates rest
  | (_, .raised) :: _ => none

/-- The tokens that `_finalize_stream` bills. -/
def streamedTokens (s : Streamed) : ℤ × ℤ :=
  match s.streamUsage.filter UsageChunk.truthy with
  | some usage =>
    request.clampReportedUsage (usage.promptTokens.getD 0) (usage.completionTokens.getD 0)
  | none =>
    if 0 < s.chunkCount then
      (request.promptTokenBound, min (s.chunkCount : ℤ) request.completionTokenBound)
    else (0, 0)

/-- `_finalize_stream` -/
def finalizeStream (isPrivateModel : Bool) (s : Streamed) : Option TokenCharge :=
  let billed := request.streamedTokens s
  if billed.1 ≠ 0 ∨ billed.2 ≠ 0 then some ⟨isPrivateModel, billed.1, billed.2⟩ else none

/-- `_stream_from_candidates` -/
def streamFromCandidates : List (Bool × Streamed) → Option TokenCharge
  | [] => none
  | (isPrivateModel, s) :: rest =>
    match s.ending with
    | .finished => request.finalizeStream isPrivateModel s
    | .disconnected => if s.lines ≠ [] then request.finalizeStream isPrivateModel s else none
    | .failed => if 0 < s.chunkCount then none else streamFromCandidates rest
    | .raised => none

/-! ## Charges are within the bounds -/

/-- A charge that stays within the bounds of its request. -/
def Within (charge : TokenCharge) : Prop :=
  charge.promptTokens ≤ request.promptTokenBound ∧
    charge.completionTokens ≤ request.completionTokenBound

variable {request}

theorem within_clampReportedUsage (isPrivateModel : Bool) (promptTokens completionTokens : ℤ) :
    request.Within ⟨isPrivateModel, (request.clampReportedUsage promptTokens completionTokens).1,
      (request.clampReportedUsage promptTokens completionTokens).2⟩ :=
  ⟨min_le_right _ _, min_le_right _ _⟩

/-- What a response is charged for is within the bounds, whatever usage it reports. -/
theorem within_invokeFromCandidates {candidates : List (Bool × Invoked)} {charge : TokenCharge}
    (h : request.invokeFromCandidates candidates = some charge) :
    request.Within charge ∧ ∃ c ∈ candidates, c.1 = charge.isPrivateModel := by
  induction candidates with
  | nil => cases h
  | cons c rest ih =>
    obtain ⟨isPrivateModel, answer⟩ := c
    match answer with
    | .response (some usage) =>
      obtain rfl := Option.some.inj h
      exact ⟨within_clampReportedUsage .., _, List.mem_cons_self, rfl⟩
    | .failed =>
      obtain ⟨hwithin, c, hc, heq⟩ := ih h
      exact ⟨hwithin, c, List.mem_cons_of_mem _ hc, heq⟩

theorem within_finalizeStream {isPrivateModel : Bool} {s : Streamed} {charge : TokenCharge}
    (h : request.finalizeStream isPrivateModel s = some charge) :
    request.Within charge ∧ isPrivateModel = charge.isPrivateModel := by
  unfold finalizeStream at h
  dsimp only at h
  split_ifs at h with hbilled
  obtain rfl := Option.some.inj h
  refine ⟨?_, rfl⟩
  revert hbilled
  unfold streamedTokens
  split
  · exact fun _ ↦ within_clampReportedUsage isPrivateModel _ _
  · split
    · -- Without a report the whole prompt is billed, and the chunks that were passed on.
      exact fun _ ↦ ⟨le_rfl, min_le_right _ _⟩
    · intro hbilled
      simp at hbilled

/-- What a stream is charged for is within the bounds, whether or not it reports any usage. -/
theorem within_streamFromCandidates {candidates : List (Bool × Streamed)} {charge : TokenCharge}
    (h : request.streamFromCandidates candidates = some charge) :
    request.Within charge ∧ ∃ c ∈ candidates, c.1 = charge.isPrivateModel := by
  induction candidates with
  | nil => cases h
  | cons c rest ih =>
    obtain ⟨isPrivateModel, s⟩ := c
    have hhere : request.finalizeStream isPrivateModel s = some charge →
        request.Within charge ∧ ∃ c ∈ (isPrivateModel, s) :: rest, c.1 = charge.isPrivateModel :=
      fun hfinal ↦ ⟨(within_finalizeStream hfinal).1, _, List.mem_cons_self,
        (within_finalizeStream hfinal).2⟩
    unfold streamFromCandidates at h
    split at h
    · exact hhere h
    · split_ifs at h with hlines
      exact hhere h
    · split_ifs at h with hchunks
      obtain ⟨hwithin, c, hc, heq⟩ := ih h
      exact ⟨hwithin, c, List.mem_cons_of_mem _ hc, heq⟩
    · cases h

end ChatCompletionRequest

end GreenCompute
