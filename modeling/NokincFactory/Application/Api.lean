/-
  File:      NokincFactory/Application/Api.lean
  Subject:   `service.py`: `create_app` and the handlers under `/v1`.

  A handler is a program over the token verifier, the GitHub ports and all that a chat turn asks.
  What the framework does before a handler (routing, the validation of bodies) is left out.

  * `AppSettings`: what `create_app` accepts;
  * `AppAsk`, `AppProg`: what the handlers ask;
  * `currentPrincipal`, `operator`: the dependencies;
  * `ApiCall`, `handle`: the handlers.
-/
import NokincFactory.Application.Chat
import NokincFactory.Application.HmacTokenIssuer
import NokincFactory.Lib.Layers
import NokincFactory.Workflow.Serial

namespace NokincFactory.Api

/-! ## 1. The application -/

/-- What `create_app` is given, as far as the handlers read it. -/
structure AppSettings extends ChatSettings where
  authenticator : Bool
  browserLogin : Bool
  cookieAuthOrigin : Option PyStr
  githubAppBroker : Bool
  githubRepositoryReader : Bool
  brokered : githubAppBroker = true → githubRepositories ≠ [] ∧ githubRepositories.Nodup

/-- Something asked by a handler: what a chat turn asks, a verification, a token for a repository,
or the metadata of one. -/
inductive AppAsk (S : Type) where
  | turn (request : ChatAsk S)
  | verify (token : PyStr) (now : Datetime)
  | tokenFor (repository : String)
  | readRepository (repository : String)

/-- `GitHubRepositoryInfo`. -/
structure GitHubRepositoryInfo where
  fullName : String
  defaultBranch : String
  visibility : String
  archived : Bool

@[reducible] def AppAsk.Answer {S : Type} (A : S → Type) : AppAsk S → Type
  | .turn request => ChatAsk.Answer A request
  | .verify _ _ => Except TokenError VerifiedPrincipal
  | .tokenFor _ => Except Failure Unit
  | .readRepository _ => Except Failure GitHubRepositoryInfo

/-- A part of a handler. -/
abbrev AppProg {S : Type} (A : S → Type) (α : Type) : Type :=
  Prog (AppAsk S) (AppAsk.Answer A) Failure α

variable {S : Type} {A : S → Type}

/-- What a chat turn does, as a part of a handler. -/
def asTurn {α : Type} (p : ChatProg A α) : AppProg A α :=
  p.over fun request => .send (AppAsk.turn request)

def askVerify (token : PyStr) (now : Datetime) :
    AppProg A (Except TokenError VerifiedPrincipal) := .send (AppAsk.verify token now)

def askTokenFor (repository : String) : AppProg A (Except Failure Unit) :=
  .send (AppAsk.tokenFor repository)

def askRepository (repository : String) : AppProg A GitHubRepositoryInfo :=
  .ask (.readRepository repository) .ofExcept

/-! ## 2. The dependencies -/

/-- A refusal, as the handler raises it. -/
def failureOf : AuthRefusal → Failure
  | .http status detail => .http status (.text detail)
  | .uncaught _ => .other

/-- What a refusal makes of a computation. -/
def refusing {α : Type} : Except AuthRefusal α → Except Failure α
  | .ok value => .ok value
  | .error refusal => .error (failureOf refusal)

/-- The dependency `principal`, with any verifier. -/
def currentPrincipal (settings : AppSettings) (request : AuthRequest) :
    AppProg A VerifiedPrincipal := do
  .insist (settings.authenticator = true) (.http 503 (.text "authentication not configured"))
  let token ← .ofExcept (refusing (presentedToken settings.browserLogin settings.cookieAuthOrigin
    request))
  let now ← asTurn askNow
  let verification ← askVerify token now
  .ofExcept (refusing (authenticated verification))

/-- One of the roles that may operate. -/
def Operates (current : Principal) : Prop :=
  Role.operator ∈ current.roles ∨ Role.admin ∈ current.roles

instance (current : Principal) : Decidable (Operates current) :=
  inferInstanceAs (Decidable (_ ∨ _))

/-- The dependency `operator`. -/
def operator (settings : AppSettings) (request : AuthRequest) : AppProg A VerifiedPrincipal := do
  let current ← currentPrincipal settings request
  .insist (Operates current.toPrincipal) (.http 403 (.text "operator role required"))
  pure current

/-! ## 3. The handlers -/

/-- `GateRequest`. -/
structure GateRequest where
  gate : String
  decision : GateDecision
  decisionDigest : Digest
  gatePattern : gate ∈ ["gate-1", "gate-2", "gate-3", "gate-4"]

inductive ApiCall where
  | healthz
  | githubAccess
  | githubRepositoryList
  | chat (request : ChatRequest)
  | statusView
  | workItem (workItemId : String)
  | trace (workItemId : String)
  | gate (request : GateRequest) (workItemId : String)

structure WorkItemResponse where
  workItemId : Identifier
  state : WorkItemState
  title : String
  createdAt : Moment
deriving DecidableEq

structure GitHubRepositorySummary where
  repository : String
  fullName : String
  defaultBranch : String
  visibility : String
  archived : Bool

/-- What a handler returns. -/
inductive ApiReply where
  | health (configured : Bool)
  /-- each repository, and whether a token was issued for it -/
  | access (repositories : List (String × Bool))
  | repositories (summaries : List GitHubRepositorySummary)
  | intake (response : IntakeResponse)
  | status (items : List WorkItemResponse)
  | item (response : WorkItemResponse)
  | trace (workItemId : String) (events : List WorkflowEvent)
  /-- `NOT_AVAILABLE`: `APPROVAL_PROVIDER_NOT_CONFIGURED` -/
  | gate (workItemId : String)

/-- `_item_response`. -/
def itemResponse (item : WorkflowItem) : WorkItemResponse :=
  ⟨item.workItemId, item.state, item.title, item.createdAt⟩

/-- The loop of `github_access`. -/
def tokenStatuses : List String → AppProg A (List (String × Bool))
  | [] => pure []
  | repository :: rest => do
      let token ← askTokenFor repository
      let statuses ← tokenStatuses rest
      pure ((repository, token.isOk) :: statuses)

def githubAccess (settings : AppSettings) (request : AuthRequest) : AppProg A ApiReply := do
  let _ ← operator settings request
  .insist (settings.githubAppBroker = true)
    (.http 503 (.text "GitHub App integration not configured"))
  let statuses ← tokenStatuses settings.githubRepositories
  pure (.access statuses)

section

variable [ChatLibraries]

/-- One round of the loop of `github_repository_list`. -/
def repositorySummary (repository : String) : AppProg A GitHubRepositorySummary := do
  let metadata ← askRepository repository
  .insist (ChatLibraries.casefold metadata.fullName = ChatLibraries.casefold repository)
    (.value "GitHub repository identity mismatch")
  .insist (metadata.visibility ∈ ["public", "private", "internal"]) .validation
  pure ⟨repository, metadata.fullName, metadata.defaultBranch, metadata.visibility,
    metadata.archived⟩

/-- The loop of `github_repository_list`. -/
def repositorySummaries : List String → AppProg A (List GitHubRepositorySummary)
  | [] => pure []
  | repository :: rest => do
      let summary ← repositorySummary repository
      let summaries ← repositorySummaries rest
      pure (summary :: summaries)

def githubRepositoryList (settings : AppSettings) (request : AuthRequest) :
    AppProg A ApiReply := do
  let _ ← operator settings request
  .insist (settings.githubRepositoryReader = true)
    (.http 503 (.text "GitHub repository reader not configured"))
  let outcome ← (repositorySummaries settings.githubRepositories).attempt
  match outcome with
  | .ok summaries => pure (.repositories summaries)
  | .error _ => .raise (.http 502 (.text "GitHub repository metadata is unavailable"))

variable (settings : AppSettings) (store : WorkItemStore A)

def statusView (request : AuthRequest) : AppProg A ApiReply := do
  let current ← currentPrincipal settings request
  let items ← asTurn (store.list current.tenantId)
  pure (.status (items.map itemResponse))

/-- The item that a request names, or 404. -/
def existingItem (current : VerifiedPrincipal) (workItemId : String) : AppProg A WorkflowItem := do
  let item ← asTurn (store.get current.tenantId workItemId)
  match item with
  | none => .raise (.http 404 (.text "work item not found"))
  | some item => pure item

def workItem (request : AuthRequest) (workItemId : String) : AppProg A ApiReply := do
  let current ← currentPrincipal settings request
  let item ← existingItem store current workItemId
  pure (.item (itemResponse item))

def trace (request : AuthRequest) (workItemId : String) : AppProg A ApiReply := do
  let current ← currentPrincipal settings request
  let _ ← existingItem store current workItemId
  let events ← asTurn (store.trace current.tenantId workItemId)
  pure (.trace workItemId events)

def gate (request : AuthRequest) (body : GateRequest) (workItemId : String) :
    AppProg A ApiReply := do
  let current ← operator settings request
  let _ ← existingItem store current workItemId
  let now ← asTurn askNow
  -- the event of a request has an identifier in this field
  match Identifier.ofText (pyStr workItemId) with
  | none => .raise .validation
  | some id => do
      let _ ← asTurn (store.addGateRequest current.tenantId id current.subjectId body.gate
        body.decision (String.ofList body.decisionDigest.text) now)
      pure (.gate workItemId)

variable [Sha256]

/-- The handler of a call. -/
def handle (request : AuthRequest) : ApiCall → AppProg A ApiReply
  | .healthz => pure (.health settings.authenticator)
  | .githubAccess => githubAccess settings request
  | .githubRepositoryList => githubRepositoryList settings request
  | .chat body => do
      let current ← currentPrincipal settings request
      let response ← asTurn (chat settings.toChatSettings store.toWorkflowStore current.toPrincipal
        body)
      pure (.intake response)
  | .statusView => statusView settings store request
  | .workItem workItemId => workItem settings store request workItemId
  | .trace workItemId => trace settings store request workItemId
  | .gate body workItemId => gate settings store request body workItemId

end

/-! ## 4. A store behind a port -/

/-- One call of a store, answered by the port. -/
def callStore (call : StoreCall) : ChatProg (fun _ : StoreCall => Except Failure StoreResult)
    StoreResult := .ask (.store call) .ofExcept

/-- The result of a call, by its kind. -/
def expect {α : Type} (read : StoreResult → Option α) (result : StoreResult) :
    Except Failure α :=
  match read result with
  | some value => .ok value
  | none => .error .other

def itemOf : StoreResult → Option WorkflowItem
  | .item item => some item
  | _ => none

def eventOf : StoreResult → Option WorkflowEvent
  | .event event => some event
  | _ => none

def foundOf : StoreResult → Option (Option WorkflowItem)
  | .found item => some item
  | _ => none

def itemsOf : StoreResult → Option (List WorkflowItem)
  | .items listed => some listed
  | _ => none

def eventsOf : StoreResult → Option (List WorkflowEvent)
  | .events traced => some traced
  | _ => none

/-- A call whose result is of one kind. -/
def callFor {α : Type} (call : StoreCall) (read : StoreResult → Option α) :
    ChatProg (fun _ : StoreCall => Except Failure StoreResult) α := do
  let result ← callStore call
  .ofExcept (expect read result)

/-- The store whose methods are single calls. -/
def portStore : WorkItemStore (fun _ : StoreCall => Except Failure StoreResult) where
  createIntake tenantId actorId now message repository repositories analysisProfile :=
    callFor (.createIntake tenantId actorId now message repository repositories analysisProfile)
      itemOf
  get tenantId workItemId := callFor (.get tenantId workItemId) foundOf
  reserveChatTurn tenantId workItemId actorId reservation limit now :=
    callFor (.reserveChatTurn tenantId workItemId actorId reservation limit now) eventOf
  recordChatTurn tenantId workItemId actorId audit now :=
    callFor (.recordChatTurn tenantId workItemId actorId audit now) eventOf
  recordGroundedAnalysis tenantId workItemId actorId analysis now :=
    callFor (.recordGroundedAnalysis tenantId workItemId actorId analysis now) eventOf
  list tenantId := callFor (.list tenantId) itemsOf
  addGateRequest tenantId workItemId actorId gate decision decisionDigest now :=
    callFor (.addGateRequest tenantId workItemId actorId gate decision decisionDigest now)
      eventOf
  trace tenantId workItemId := callFor (.trace tenantId workItemId) eventsOf

end NokincFactory.Api
