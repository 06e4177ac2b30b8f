/-
  File:      NokincFactory/Application/Chat.lean
  Subject:   `service.py` and `chat_roles.py`: the handler of a chat turn.

  A turn is routed to a role, checked against the policy of the application, bound to a work
  item, reserved, answered and recorded, in this order. What it logs is left out.

  * `routeChatRole`, `requiresRuntimeEvidence`: the signals in a message;
  * `ChatSettings`: what the application is created with;
  * `WorkflowStore`: what the handler uses of a workflow store;
  * `chatAdmission`: the checks before the store is used;
  * `chat`: the handler.
-/
import NokincFactory.Application.Discussion

namespace NokincFactory

section Chat

variable [Sha256] [ChatLibraries]

/-! ## 1. Roles -/

/-- `_ARCHITECTURE_SIGNALS`. -/
def architectureSignals : String :=
  "\\b(architect(?:ure)?|system design|data flow|service boundary|" ++
  "component design|integration design|security design)\\b"

/-- `_CODE_SIGNALS`. -/
def codeSignals : String :=
  "\\b(code|function|method|class|bug|test|error|stack trace|endpoint|" ++
  "login|token|file|module|implementation|source|repository|repo)\\b"

/-- `_RUNTIME_EVIDENCE_SIGNALS`. -/
def runtimeEvidenceSignals : String :=
  "\\b(end[- ]to[- ]end|e2e|runtime|simulate|simulation|" ++
  "run (?:it|this|the (?:app|application|service|tests?))|" ++
  "(?:does|will) it work|works? in practice|when (?:running|deployed))\\b"

/-- A role that needs a selected repository. -/
def withRepository (repository : Option String) (role : AgentRole) (profile : AnalysisProfile)
    (missing : String) : Except Failure (AgentRole × Option AnalysisProfile) := do
  guardThat (repository ≠ none) (.value missing)
  pure (role, some profile)

def architectRole (repository : Option String) : Except Failure (AgentRole × Option AnalysisProfile) :=
  withRepository repository .architect .architecture
    "Architect discussion requires a selected repository"

def codeAnalystRole (repository : Option String) :
    Except Failure (AgentRole × Option AnalysisProfile) :=
  withRepository repository .codeAnalyst .coding "Code analysis requires a selected repository"

def routeChatRole (mode : ChatMode) (message : String) (repository : Option String) :
    Except Failure (AgentRole × Option AnalysisProfile) :=
  match mode with
  | .business => .ok (.businessAnalyst, none)
  | .architecture => architectRole repository
  | .coding => codeAnalystRole repository
  | .auto =>
      if ChatLibraries.search architectureSignals message then architectRole repository
      else if ChatLibraries.search codeSignals message then codeAnalystRole repository
      else .ok (.businessAnalyst, none)

def requiresRuntimeEvidence (message : String) : Bool :=
  ChatLibraries.search runtimeEvidenceSignals message

/-! ## 2. The application -/

/-- What `create_app` is given, as far as a chat turn reads it. -/
structure ChatSettings where
  businessAnalyst : Option BusinessAnalystDiscussion
  groundedDiscussion : Option GroundedRepositoryDiscussionRouter
  /-- `None` is no limit -/
  chatModelTurnLimit : Option ℕ
  chatModelTenantId : Option String
  githubRepositories : List String
  /-- a budget that is enabled names its tenant -/
  tenantNamed : chatModelTurnLimit ≠ some 0 → ∃ tenant, chatModelTenantId = some tenant ∧ tenant ≠ ""

structure IntakeResponse where
  workItemId : Identifier
  /-- `AGENT_REPLIED`, or else `INTAKE_RECORDED` -/
  replied : Bool
  state : WorkItemState
  tenantId : Identifier
  agentRole : Option AgentRole
  analysisProfile : Option String
  reply : Option String
  analysis : Option GroundedDiscussionResult
  businessAnalysis : Option BusinessAnalystResult

variable {S : Type} {A : S → Type}

/-- What the handler uses of a `WorkflowStore`. -/
structure WorkflowStore (A : S → Type) where
  createIntake (tenantId actorId : Identifier) (now : Datetime) (message : String)
    (repository : Option String) (repositories : List String)
    (analysisProfile : Option AnalysisProfile) : ChatProg A WorkflowItem
  get (tenantId : Identifier) (workItemId : String) : ChatProg A (Option WorkflowItem)
  reserveChatTurn (tenantId workItemId actorId : Identifier) (reservation : ChatTurnReservation)
    (limit : Option ℤ) (now : Datetime) : ChatProg A WorkflowEvent
  recordChatTurn (tenantId workItemId actorId : Identifier) (audit : ChatTurnAudit)
    (now : Datetime) : ChatProg A WorkflowEvent

/-- The mode of a request, which `analysis_profile` set before there were modes. -/
def chatMode (request : ChatRequest) (repository : Option String) : Except Failure ChatMode :=
  match request.mode, request.analysisProfile with
  | none, some profile => .ok profile.mode
  | none, none => .ok (if repository = none then .business else .architecture)
  | some mode, none => .ok mode
  | some mode, some legacy => do
      guardThat (mode = .auto ∨ mode = legacy.mode)
        (.http 422 (.text "mode conflicts with analysis_profile"))
      pure legacy.mode

/-- How a turn goes on once it is admitted. -/
structure Admission where
  repository : Option String
  agentRole : AgentRole
  profile : Option AnalysisProfile
  modelConfigured : Bool

/-- The checks of `chat` before the store is used. -/
def chatAdmission (settings : ChatSettings) (current : Principal) (request : ChatRequest) :
    Except Failure Admission := do
  let selected := request.selectedRepositories
  let repository := selected.head?
  let mode ← chatMode request repository
  let (agentRole, profile) ← match routeChatRole mode request.message repository with
    | .ok routed => pure routed
    | .error (.value message) => .error (.http 422 (.text message))
    | .error failure => .error failure
  guardThat (selected.all fun repository => settings.githubRepositories.contains repository)
    (.http 403 (.text (if selected.length = 1 then "repository is outside the pilot allowlist"
      else "one or more repositories are outside the pilot allowlist")))
  let modelConfigured := if agentRole = .businessAnalyst then settings.businessAnalyst.isSome
    else settings.groundedDiscussion.isSome
  guardThat (¬ (modelConfigured = true ∧ settings.chatModelTenantId ≠ none ∧
      settings.chatModelTenantId ≠ some current.tenantId.text))
    (.http 403 (.code "CHAT_MODEL_TENANT_NOT_AUTHORIZED" request.workItemId))
  guardThat (¬ (modelConfigured = true ∧ Role.operator ∉ current.roles ∧
      Role.admin ∉ current.roles)) (.http 403 (.text "operator role required"))
  guardThat (¬ (agentRole ≠ .businessAnalyst ∧ settings.groundedDiscussion = none))
    (.http 503 (.text "grounded repository discussion is unavailable"))
  guardThat (¬ (agentRole = .businessAnalyst ∧ settings.businessAnalyst = none ∧
      request.mode ≠ none)) (.http 503 (.text "Business Analyst is unavailable"))
  guardThat (¬ (modelConfigured = true ∧ settings.chatModelTurnLimit = some 0))
    (.http 503 (.text "Model-backed chat is disabled by budget policy"))
  guardThat (requiresRuntimeEvidence request.message = false)
    (.http 503 (.message "RUNTIME_EVIDENCE_NOT_CONFIGURED"
      ("No isolated local runtime worker is configured; " ++ "no runtime claim was generated.")))
  pure ⟨repository, agentRole, profile, modelConfigured⟩

/-! ## 3. The records of a store -/

/-- The digest of what an intake was asked. -/
def intakeDigest (message : String) (repository : Option String) (repositories : List String)
    (analysisProfile : Option AnalysisProfile) : Digest :=
  let profile : Json := .optional (fun p => .text (AnalysisProfile.value p)) analysisProfile
  Json.contentDigest <|
    if 1 < repositories.length then
      .obj [("message", .text message), ("repositories", .tuple Json.text repositories),
        ("analysis_profile", profile)]
    else match repository with
      | none => .obj [("message", .text message)]
      | some repository =>
          .obj [("message", .text message), ("repository", .text repository),
            ("analysis_profile", profile)]

/-- A new item and the event of its intake. -/
def newIntake (tenantId actorId : Identifier) (now : Datetime) (message : String)
    (repository : Option String) (repositories : List String)
    (analysisProfile : Option AnalysisProfile) : ChatProg A (WorkflowItem × WorkflowEvent) := do
  let current ← .ofExcept (failing (utc now))
  let itemId ← askUuid
  let eventId ← askUuid
  let item : WorkflowItem := {
    workItemId := itemId.workItemId
    tenantId := tenantId
    createdBy := actorId
    state := .refining
    title := "Conversation intake"
    createdAt := current }
  let event : WorkflowEvent := {
    eventId := eventId.eventId
    tenantId := tenantId
    workItemId := item.workItemId
    actorId := actorId
    occurredAt := current
    payload := .intake (intakeDigest message repository repositories analysisProfile) }
  pure (item, event)

/-- A new event of an item. -/
def newEvent (tenantId workItemId actorId : Identifier) (payload : EventPayload) (now : Datetime) :
    ChatProg A WorkflowEvent := do
  let eventId ← askUuid
  let occurredAt ← .ofExcept (failing (utc now))
  pure {
    eventId := eventId.eventId
    tenantId := tenantId
    workItemId := workItemId
    actorId := actorId
    occurredAt := occurredAt
    payload := payload }

inductive GateDecision where
  | approve | reject
deriving DecidableEq

def GateDecision.value : GateDecision → String
  | .approve => "approve"
  | .reject => "reject"

/-- The digest of what a gate was asked. -/
def gateDigest (gate : String) (decision : GateDecision) (decisionDigest : String) : Digest :=
  Json.contentDigest (.obj [("gate", .text gate), ("decision", .text decision.value),
    ("decision_digest", .text decisionDigest)])

/-- The event of a gate request; its time is checked before its identifier is drawn. -/
def newGateRequest (tenantId workItemId actorId : Identifier) (gate : String)
    (decision : GateDecision) (decisionDigest : String) (now : Datetime) :
    ChatProg A WorkflowEvent := do
  let current ← .ofExcept (failing (utc now))
  let eventId ← askUuid
  pure {
    eventId := eventId.eventId
    tenantId := tenantId
    workItemId := workItemId
    actorId := actorId
    occurredAt := current
    payload := .gateRequested (gateDigest gate decision decisionDigest) }

/-! ## 4. The turn -/

/-- `len(selected_repositories) > 1`. -/
def several (selected : List String) : Option (List String) :=
  if 1 < selected.length then some selected else none

/-- The digest of a conversation. -/
def historyDigest (history : List ConversationTurn) : Digest :=
  Json.contentDigest (.tuple (fun turn => .obj [("role", .text turn.role.value),
    ("content_digest", (Json.contentDigest (.text turn.content)).json)]) history)

/-- The bounds of the repositories of a record. -/
def checkRepositories (repository : Option String) (repositories : Option (List String)) :
    Except Failure Unit := do
  guardThat (∀ value ∈ repository, 3 ≤ value.length ∧ value.length ≤ 200) .validation
  guardThat (∀ values ∈ repositories, values.length ≤ 8) .validation

/-- A reservation, as its class validates it, for all calls a turn may make. -/
def ChatTurnReservation.validated (r : ChatTurnReservation) : Except Failure ChatTurnReservation := do
  checkRepositories r.repository r.repositories
  guardThat (2 ≤ r.modelCallCount ∧ r.modelCallCount ≤ maxModelCallsPerTurn) .validation
  pure r

/-- An audit, as its class validates it. -/
def ChatTurnAudit.validated (a : ChatTurnAudit) : Except Failure ChatTurnAudit := do
  checkRepositories a.repository a.repositories
  guardThat (2 ≤ a.modelRuns.length ∧ a.modelRuns.length ≤ maxModelCallsPerTurn) .validation
  pure a

/-- The work item of a turn: a new one, or the principal's own that the request names. -/
def turnItem (store : WorkflowStore A) (current : Principal) (request : ChatRequest)
    (admission : Admission) : ChatProg A WorkflowItem :=
  match request.workItemId with
  | none => do
      let now ← askNow
      store.createIntake current.tenantId current.subjectId now request.message
        admission.repository ((several request.selectedRepositories).getD []) admission.profile
  | some workItemId => do
      let existing ← store.get current.tenantId workItemId
      match existing with
      | none => .raise (.http 404 (.text "conversation not found"))
      | some item => do
          .insist (item.createdBy = current.subjectId)
            (.http 404 (.text "conversation not found"))
          pure item

/-- The reservation of a turn; `ChatModelTurnLimitExceeded` is answered with 429. -/
def reserveTurn (settings : ChatSettings) (store : WorkflowStore A) (current : Principal)
    (request : ChatRequest) (admission : Admission) (item : WorkflowItem) :
    ChatProg A WorkflowEvent := do
  let reservation ← .ofExcept (ChatTurnReservation.validated {
    agentRole := admission.agentRole
    analysisProfile := admission.profile
    repository := admission.repository
    repositories := several request.selectedRepositories
    inputDigest := Json.contentDigest (.text request.message)
    historyDigest := historyDigest request.history
    modelCallCount := maxModelCallsPerTurn })
  let now ← askNow
  let reserved ← (store.reserveChatTurn current.tenantId item.workItemId current.subjectId
    reservation (settings.chatModelTurnLimit.map Int.ofNat) now).attempt
  match reserved with
  | .ok event => pure event
  | .error (.turnLimit _) =>
      .raise (.http 429 (.code "CHAT_MODEL_TURN_LIMIT_REACHED" (some item.workItemId.text)))
  | .error failure => .raise failure

/-- What a role answered. -/
inductive TurnAnswer where
  | business (result : BusinessAnalystResult)
  | grounded (result : GroundedDiscussionResult)

namespace TurnAnswer

def reply : TurnAnswer → String
  | business result => result.reply
  | grounded result => result.summary

def status : TurnAnswer → TurnStatus
  | business result => result.status
  | grounded result => result.status

def contextDigest : TurnAnswer → Digest
  | business result => result.contextDigest
  | grounded result => result.contextDigest

def modelRuns : TurnAnswer → List ModelRunTelemetry
  | business result => result.modelRuns
  | grounded result => result.modelRuns

def elapsedMs : TurnAnswer → ℕ
  | business result => result.elapsedMs
  | grounded result => result.elapsedMs

def json : TurnAnswer → Json
  | business result => result.json
  | grounded result => result.json

end TurnAnswer

/-- The answer of the role that a turn was routed to. -/
def answerTurn (settings : ChatSettings) (request : ChatRequest) (admission : Admission)
    (item : WorkflowItem) : ChatProg A TurnAnswer :=
  if admission.agentRole = .businessAnalyst then
    match settings.businessAnalyst with
    | none => .raise .assertion
    | some analyst => do
        let result ← analyst.answer item.workItemId.text request.message admission.repository
          request.history
        pure (.business result)
  else
    match admission.profile, settings.groundedDiscussion, request.selectedRepositories with
    | some profile, some discussion, [repository] => do
        let result ← discussion.answer (some repository) [] request.message profile request.history
        pure (.grounded result)
    | some profile, some discussion, selected => do
        .insist (selected ≠ []) .assertion
        let result ← discussion.answer none selected request.message profile request.history
        pure (.grounded result)
    | _, _, _ => .raise .assertion

/-- The audit of a turn, and its record in the store. -/
def recordTurn (store : WorkflowStore A) (current : Principal) (request : ChatRequest)
    (admission : Admission) (item : WorkflowItem) (answer : TurnAnswer) :
    ChatProg A WorkflowEvent := do
  let audit ← .ofExcept (ChatTurnAudit.validated {
    agentRole := admission.agentRole
    analysisProfile := admission.profile
    repository := admission.repository
    repositories := several request.selectedRepositories
    status := answer.status
    inputDigest := Json.contentDigest (.text request.message)
    historyDigest := historyDigest request.history
    responseDigest := answer.json.contentDigest
    contextDigest := answer.contextDigest
    modelRuns := answer.modelRuns
    elapsedMs := answer.elapsedMs })
  let now ← askNow
  store.recordChatTurn current.tenantId item.workItemId current.subjectId audit now

/-- Answer and record; whatever is raised on the way is answered with 502. -/
def answerAndRecord (settings : ChatSettings) (store : WorkflowStore A) (current : Principal)
    (request : ChatRequest) (admission : Admission) (item : WorkflowItem) :
    ChatProg A TurnAnswer := do
  let outcome ← Prog.attempt do
    let answer ← answerTurn settings request admission item
    let _ ← recordTurn store current request admission item answer
    pure answer
  match outcome with
  | .ok answer => pure answer
  | .error _ =>
      .raise (.http 502 (.code "AGENT_RESPONSE_UNAVAILABLE" (some item.workItemId.text)))

/-- `POST /v1/chat`. -/
def chat (settings : ChatSettings) (store : WorkflowStore A) (current : Principal)
    (request : ChatRequest) : ChatProg A IntakeResponse := do
  let admission ← .ofExcept (chatAdmission settings current request)
  let item ← turnItem store current request admission
  if admission.modelConfigured = false then
    pure {
      workItemId := item.workItemId
      replied := false
      state := item.state
      tenantId := current.tenantId
      agentRole := none
      analysisProfile := none
      reply := none
      analysis := none
      businessAnalysis := none }
  else do
    let _ ← reserveTurn settings store current request admission item
    let answer ← answerAndRecord settings store current request admission item
    pure {
      workItemId := item.workItemId
      replied := true
      state := item.state
      tenantId := current.tenantId
      agentRole := some admission.agentRole
      analysisProfile := some (profileText admission.profile)
      reply := some answer.reply
      analysis := match answer with
        | .grounded result => some result
        | .business _ => none
      businessAnalysis := match answer with
        | .grounded _ => none
        | .business result => some result }

end Chat

end NokincFactory
