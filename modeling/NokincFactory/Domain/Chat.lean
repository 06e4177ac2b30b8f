/-
  File:      NokincFactory/Domain/Chat.lean
  Subject:   What a chat turn is made of: the requests, what the models are asked and answer, and
             what the workflow store keeps of it.

  * `ConversationTurn`, `ChatRequest`, `Principal`: who asks what;
  * `ModelRequest`, `ModelResponse`, `ModelRunTelemetry`: the model port and its telemetry;
  * `ChatTurnReservation`, `ChatTurnAudit`, `GroundedAnalysisAudit`, `WorkflowEvent`,
    `WorkflowItem`: the records;
  * `Failure`: what a turn can raise;
  * `ChatLibraries`: the parsers, the search and the price card, which are parameters.

  The validators of a request are left out: the handler is shown for whatever request it gets.
-/
import NokincFactory.Domain.States

namespace NokincFactory

/-! ## 1. Requests -/

inductive ChatMode where
  | auto | business | architecture | coding
deriving DecidableEq

inductive AgentRole where
  | businessAnalyst | architect | codeAnalyst
deriving DecidableEq

def AgentRole.value : AgentRole → String
  | .businessAnalyst => "business_analyst"
  | .architect => "architect"
  | .codeAnalyst => "code_analyst"

inductive AnalysisProfile where
  | architecture | coding
deriving DecidableEq

def AnalysisProfile.value : AnalysisProfile → String
  | .architecture => "architecture"
  | .coding => "coding"

/-- The mode of the same name. -/
def AnalysisProfile.mode : AnalysisProfile → ChatMode
  | .architecture => .architecture
  | .coding => .coding

/-- `profile or "business"`. -/
def profileText (profile : Option AnalysisProfile) : String :=
  (profile.map AnalysisProfile.value).getD "business"

/-- `MAX_DOER_REVIEW_ROUNDS`. -/
def maxDoerReviewRounds : ℕ := 3

/-- `MAX_MODEL_CALLS_PER_TURN`. -/
def maxModelCallsPerTurn : ℕ := maxDoerReviewRounds * 2

inductive Speaker where
  | user | assistant
deriving DecidableEq

def Speaker.value : Speaker → String
  | .user => "user"
  | .assistant => "assistant"

structure ConversationTurn where
  role : Speaker
  content : String
deriving DecidableEq

def ConversationTurn.json (t : ConversationTurn) : Json :=
  .obj [("role", .text t.role.value), ("content", .text t.content)]

structure ChatRequest where
  message : String
  repository : Option String
  repositories : List String
  mode : Option ChatMode
  analysisProfile : Option AnalysisProfile
  workItemId : Option String
  history : List ConversationTurn
deriving DecidableEq

def ChatRequest.selectedRepositories (r : ChatRequest) : List String :=
  if r.repositories ≠ [] then r.repositories else r.repository.toList

inductive Role where
  | viewer | operator | admin
deriving DecidableEq

/-- An authenticated principal, as far as a chat turn reads it. -/
structure Principal where
  tenantId : Identifier
  subjectId : Identifier
  roles : List Role
deriving DecidableEq

/-! ## 2. Models -/

inductive ModelStatus where
  | completed | unavailable | failed
deriving DecidableEq

structure ModelRequest where
  role : Identifier
  prompt : Text
  contextDigest : Digest
deriving DecidableEq

instance : ReviewModel ModelRequest where
  dump r := [("role", r.role.json), ("prompt", r.prompt.json),
    ("context_digest", r.contextDigest.json)]

structure ModelUsage where
  inputTokens : ℕ
  cachedInputTokens : ℕ
  cacheWriteInputTokens : ℕ
  outputTokens : ℕ
deriving DecidableEq

instance : ReviewModel ModelUsage where
  dump u := [("input_tokens", .ofNat u.inputTokens),
    ("cached_input_tokens", .ofNat u.cachedInputTokens),
    ("cache_write_input_tokens", .ofNat u.cacheWriteInputTokens),
    ("output_tokens", .ofNat u.outputTokens)]

structure ModelResponse where
  status : ModelStatus
  model : Identifier
  family : Identifier
  output : String
  providerExecutionId : Option Identifier
  usage : Option ModelUsage
deriving DecidableEq

inductive ModelStage where
  | architect | independentReview | businessAnalyst | businessReview
deriving DecidableEq

def ModelStage.value : ModelStage → String
  | .architect => "architect"
  | .independentReview => "independent-review"
  | .businessAnalyst => "business-analyst"
  | .businessReview => "business-review"

/-- The telemetry of one model run; the estimated cost is kept as it is dumped. -/
structure ModelRunTelemetry where
  stage : ModelStage
  provider : String
  model : Identifier
  family : Identifier
  providerExecutionId : Option Identifier
  requestDigest : Digest
  responseDigest : Digest
  latencyMs : ℕ
  usage : Option ModelUsage
  listPriceCost : Option Json

section Digests

variable [Sha256]

def ModelRunTelemetry.json (t : ModelRunTelemetry) : Json :=
  .obj [("stage", .text t.stage.value), ("provider", .text t.provider), ("model", t.model.json),
    ("family", t.family.json),
    ("provider_execution_id", .optional Identifier.json t.providerExecutionId),
    ("request_digest", t.requestDigest.json), ("response_digest", t.responseDigest.json),
    ("latency_ms", .ofNat t.latencyMs), ("usage", .optional ReviewModel.json t.usage),
    ("list_price_cost", .optional id t.listPriceCost)]

/-! ## 3. Records -/

/-- The members of an optional field that is left out where it is `None`. -/
def presentStrings (key : String) : Option (List String) → List (String × Json)
  | none => []
  | some values => [(key, .tuple Json.text values)]

structure ChatTurnReservation where
  agentRole : AgentRole
  analysisProfile : Option AnalysisProfile
  repository : Option String
  repositories : Option (List String)
  inputDigest : Digest
  historyDigest : Digest
  modelCallCount : ℕ
deriving DecidableEq

instance : ReviewModel ChatTurnReservation where
  dump r := [("agent_role", .text r.agentRole.value),
    ("analysis_profile", .text (profileText r.analysisProfile)),
    ("repository", .optional Json.text r.repository)] ++
    presentStrings "repositories" r.repositories ++
    [("input_digest", r.inputDigest.json), ("history_digest", r.historyDigest.json),
    ("model_call_count", .ofNat r.modelCallCount)]

inductive TurnStatus where
  | eliciting | answered | needsClarification
deriving DecidableEq

def TurnStatus.value : TurnStatus → String
  | .eliciting => "ELICITING"
  | .answered => "ANSWERED"
  | .needsClarification => "NEEDS_CLARIFICATION"

structure ChatTurnAudit where
  agentRole : AgentRole
  analysisProfile : Option AnalysisProfile
  repository : Option String
  repositories : Option (List String)
  status : TurnStatus
  inputDigest : Digest
  historyDigest : Digest
  responseDigest : Digest
  contextDigest : Digest
  modelRuns : List ModelRunTelemetry
  elapsedMs : ℕ

instance : ReviewModel ChatTurnAudit where
  dump a := [("agent_role", .text a.agentRole.value),
    ("analysis_profile", .text (profileText a.analysisProfile)),
    ("repository", .optional Json.text a.repository)] ++
    presentStrings "repositories" a.repositories ++
    [("status", .text a.status.value), ("input_digest", a.inputDigest.json),
    ("history_digest", a.historyDigest.json), ("response_digest", a.responseDigest.json),
    ("context_digest", a.contextDigest.json),
    ("model_runs", .tuple ModelRunTelemetry.json a.modelRuns), ("elapsed_ms", .ofNat a.elapsedMs)]

/-- What the audit of a grounded analysis keeps; its bounds are those of its class. -/
structure GroundedAnalysisAudit where
  analysisId : Identifier
  analysisProfile : AnalysisProfile
  repository : String
  repositories : Option (List String)
  status : TurnStatus
  defaultBranch : String
  contextDigest : Digest
  modelRuns : List ModelRunTelemetry
  elapsedMs : ℕ
  repositoryLength : 3 ≤ repository.length ∧ repository.length ≤ 200
  repositoriesLength : ∀ values ∈ repositories, values.length ≤ 8
  settled : status ≠ .eliciting
  branchLength : 1 ≤ defaultBranch.length ∧ defaultBranch.length ≤ 255
  runsLength : 2 ≤ modelRuns.length ∧ modelRuns.length ≤ maxModelCallsPerTurn

instance : ReviewModel GroundedAnalysisAudit where
  dump a := [("analysis_id", a.analysisId.json),
    ("analysis_profile", .text a.analysisProfile.value), ("repository", .text a.repository)] ++
    presentStrings "repositories" a.repositories ++
    [("status", .text a.status.value), ("default_branch", .text a.defaultBranch),
    ("context_digest", a.contextDigest.json),
    ("model_runs", .tuple ModelRunTelemetry.json a.modelRuns), ("elapsed_ms", .ofNat a.elapsedMs)]

inductive EventKind where
  | intake | gateRequested | chatTurnReserved | groundedAnalysisRecorded | chatTurnRecorded
deriving DecidableEq

def EventKind.value : EventKind → String
  | .intake => "INTAKE"
  | .gateRequested => "GATE_REQUESTED"
  | .chatTurnReserved => "CHAT_TURN_RESERVED"
  | .groundedAnalysisRecorded => "GROUNDED_ANALYSIS_RECORDED"
  | .chatTurnRecorded => "CHAT_TURN_RECORDED"

/-- What an event carries; its kind says what it must be, so that no other can be built. -/
inductive EventPayload where
  | intake (digest : Digest)
  | gateRequested (digest : Digest)
  | chatTurnReserved (reservation : ChatTurnReservation)
  | groundedAnalysisRecorded (analysis : GroundedAnalysisAudit)
  | chatTurnRecorded (audit : ChatTurnAudit)

def EventPayload.kind : EventPayload → EventKind
  | .intake _ => .intake
  | .gateRequested _ => .gateRequested
  | .chatTurnReserved _ => .chatTurnReserved
  | .groundedAnalysisRecorded _ => .groundedAnalysisRecorded
  | .chatTurnRecorded _ => .chatTurnRecorded

/-- `payload_digest`. -/
def EventPayload.digest : EventPayload → Digest
  | .intake digest => digest
  | .gateRequested digest => digest
  | .chatTurnReserved reservation => contentDigest reservation
  | .groundedAnalysisRecorded analysis => contentDigest analysis
  | .chatTurnRecorded audit => contentDigest audit

def EventPayload.members : EventPayload → List (String × Json)
  | .groundedAnalysisRecorded analysis => [("grounded_analysis", ReviewModel.json analysis)]
  | .chatTurnReserved reservation => [("chat_turn_reservation", ReviewModel.json reservation)]
  | .chatTurnRecorded audit => [("chat_turn_audit", ReviewModel.json audit)]
  | _ => []

structure WorkflowEvent where
  eventId : Identifier
  tenantId : Identifier
  workItemId : Identifier
  actorId : Identifier
  occurredAt : Moment
  payload : EventPayload

def WorkflowEvent.kind (e : WorkflowEvent) : EventKind := e.payload.kind

instance : ReviewModel WorkflowEvent where
  dump e := [("event_id", e.eventId.json), ("tenant_id", e.tenantId.json),
    ("work_item_id", e.workItemId.json), ("actor_id", e.actorId.json),
    ("kind", .text e.kind.value), ("occurred_at", e.occurredAt.json),
    ("payload_digest", e.payload.digest.json)] ++ e.payload.members

structure WorkflowItem where
  workItemId : Identifier
  tenantId : Identifier
  createdBy : Identifier
  state : WorkItemState
  title : String
  createdAt : Moment
deriving DecidableEq

instance : ReviewModel WorkflowItem where
  dump i := [("work_item_id", i.workItemId.json), ("tenant_id", i.tenantId.json),
    ("created_by", i.createdBy.json), ("state", .text i.state.value), ("title", .text i.title),
    ("created_at", i.createdAt.json)]

end Digests

/-! ## 4. Fresh identifiers -/

/-- What `uuid4()` returns. -/
structure Uuid where
  bits : BitVec 128
deriving DecidableEq

/-- `uuid.hex`. -/
def Uuid.hex (u : Uuid) : List Char :=
  (List.range 32).map fun i => Json.hexDigit (u.bits.toNat / 16 ^ (31 - i) % 16)

/-- `str(uuid)`. -/
def Uuid.text (u : Uuid) : String :=
  String.ofList (u.hex.take 8 ++ '-' :: ((u.hex.drop 8).take 4 ++ '-' :: ((u.hex.drop 12).take 4 ++
    '-' :: ((u.hex.drop 16).take 4 ++ '-' :: u.hex.drop 20))))

theorem hexDigit_tail (n : ℕ) (h : n < 16) : identifierTail (Json.hexDigit n) = true := by
  have hall : ∀ m : Fin 16, identifierTail (Json.hexDigit m) = true := by decide
  exact hall ⟨n, h⟩

theorem Uuid.hex_tail (u : Uuid) : u.hex.all identifierTail = true := by
  refine List.all_eq_true.mpr fun c hc => ?_
  obtain ⟨i, -, rfl⟩ := List.mem_map.mp hc
  exact hexDigit_tail _ (Nat.mod_lt _ (by decide))

/-- `f"wi-{uuid4().hex}"`. -/
def Uuid.workItemId (u : Uuid) : Identifier where
  text := String.ofList ('w' :: 'i' :: '-' :: u.hex)
  pattern := by
    have hlen : u.hex.length = 32 := by simp [Uuid.hex]
    rw [String.toList_ofList]
    simp [identifierPattern, u.hex_tail, hlen]
    decide

/-- `f"evt-{uuid4().hex}"`. -/
def Uuid.eventId (u : Uuid) : Identifier where
  text := String.ofList ('e' :: 'v' :: 't' :: '-' :: u.hex)
  pattern := by
    have hlen : u.hex.length = 32 := by simp [Uuid.hex]
    rw [String.toList_ofList]
    simp [identifierPattern, u.hex_tail, hlen]
    decide

/-! ## 5. Failures -/

inductive HttpDetail where
  | text (detail : String)
  | code (code : String) (workItemId : Option String)
  | message (code message : String)
deriving DecidableEq

/-- What a chat turn, or something it calls, can raise. -/
inductive Failure where
  /-- `ChatModelTurnLimitExceeded` -/
  | turnLimit (message : String)
  /-- `WorkflowStoreDenied` -/
  | denied (message : String)
  | value (message : String)
  | assertion
  | http (status : ℕ) (detail : HttpDetail)
  /-- `IntegrityError` -/
  | integrity
  /-- whatever a driver, a reader or a model port raises -/
  | other
deriving DecidableEq

/-- pydantic's `ValidationError` is a `ValueError`. -/
def Failure.validation : Failure := .value "ValidationError"

/-- `utc` of what the clock returned. -/
def failing {α : Type} : Except ValueError α → Except Failure α
  | .ok a => .ok a
  | .error (.message text) => .error (.value text)
  | .error (.violation _) => .error .other

/-! ## 6. Parsed answers, and the libraries -/

/-- `_BusinessDraft`. -/
structure BusinessDraft where
  reply : String
  openQuestions : List String
deriving DecidableEq

def BusinessDraft.json (d : BusinessDraft) : Json :=
  .obj [("reply", .text d.reply), ("open_questions", .tuple Json.text d.openQuestions)]

/-- `_BusinessReview` and `_IndependentReview`, which differ in their bounds only. -/
structure DraftReview where
  supported : Bool
  issues : List String
  openQuestions : List String
deriving DecidableEq

structure SourceCitation where
  repository : Option String
  defaultBranch : Option String
  path : String
  lineStart : ℕ
  lineEnd : ℕ
  quote : String
deriving DecidableEq

/-- A field that is left out where it is `None`. -/
def presentText (key : String) : Option String → List (String × Json)
  | none => []
  | some value => [(key, .text value)]

def SourceCitation.json (c : SourceCitation) : Json :=
  .obj (presentText "repository" c.repository ++ presentText "default_branch" c.defaultBranch ++
    [("path", .text c.path), ("line_start", .ofNat c.lineStart), ("line_end", .ofNat c.lineEnd),
    ("quote", .text c.quote)])

structure GroundedClaim where
  statement : String
  citations : List SourceCitation
deriving DecidableEq

def GroundedClaim.json (c : GroundedClaim) : Json :=
  .obj [("statement", .text c.statement), ("citations", .tuple SourceCitation.json c.citations)]

/-- `_DraftAnswer`. -/
structure DraftAnswer where
  summary : String
  claims : List GroundedClaim
  openQuestions : List String
deriving DecidableEq

def DraftAnswer.json (d : DraftAnswer) : Json :=
  .obj [("summary", .text d.summary), ("claims", .tuple GroundedClaim.json d.claims),
    ("open_questions", .tuple Json.text d.openQuestions)]

/-- The libraries under a chat turn: `re.search` of a pattern, ignoring case; `str.casefold`;
parsing a model's answer with `json` and pydantic (`none` where it raises); the documents of
stored items and events; and the list price of a run on a day in a region. -/
class ChatLibraries where
  search : String → String → Bool
  casefold : String → String
  businessDraft : String → Option BusinessDraft
  businessReview : String → Option DraftReview
  draftAnswer : String → Option DraftAnswer
  independentReview : String → Option DraftReview
  workflowItem : String → Option WorkflowItem
  workflowItemJson : WorkflowItem → String
  workflowEvent : String → Option WorkflowEvent
  workflowEventJson : WorkflowEvent → String
  estimateModelCost : String → String → ModelUsage → ℤ → String → Except Failure (Option Json)

end NokincFactory
