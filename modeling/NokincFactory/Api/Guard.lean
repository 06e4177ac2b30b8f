/-
  File:      NokincFactory/Api/Guard.lean
  Subject:   What the handlers of the application may ask, and for whom.

  What the framework does with a request before its handler runs is not covered.

  * `only_answerTurn`: a discussion asks models, and reads the repositories of its request;
  * `TurnPermits`, `turnGuard`: what a chat turn may ask for a principal;
  * `chat_guarded`: the chat handler asks nothing else;
  * `Permits`, `guard`: what a handler may ask, before and after it knows its principal;
  * `api_guarded`: every handler asks only what its principal may.
-/
import NokincFactory.Application.Api
import NokincFactory.Workflow.Isolation

namespace NokincFactory.Api

open Protocol Prog

/-! ## 1. Discussions -/

section Discussions

variable {S : Type} {A : S → Type} [Sha256] [ChatLibraries]

/-- What a discussion asks: models, times and identifiers, and the files of some repositories. -/
def Discusses (S : Type) (selected : List String) : ChatAsk S → Prop
  | .store _ => False
  | .complete _ _ => True
  | .readCodebaseContext repository _ => repository ∈ selected
  | .now => True
  | .timer => True
  | .uuid => True

variable {selected : List String}

omit [Sha256] [ChatLibraries] in
theorem only_askTimer : (askTimer : ChatProg A ℚ).Only (Discusses S selected) := only_send trivial

omit [Sha256] [ChatLibraries] in
theorem only_askUuid : (askUuid : ChatProg A Uuid).Only (Discusses S selected) := only_send trivial

omit [Sha256] [ChatLibraries] in
theorem only_askNow : (askNow : ChatProg A Datetime).Only (Discusses S selected) :=
  only_send trivial

theorem only_invoke (region : String) (v : Invocations) (prompt : String) (contextDigest : Digest) :
    (invoke region v prompt contextDigest : ChatProg A (ModelResponse × ModelRunTelemetry)).Only
      (Discusses S selected) := by
  unfold invoke
  refine (only_insist _ _).bind fun _ => (only_ofExcept _).bind fun text => ?_
  refine only_askTimer.bind fun started => ?_
  refine Only.bind ⟨trivial, fun _ => only_ofExcept _⟩ fun response => ?_
  refine only_askTimer.bind fun ended => (only_insist _ _).bind fun _ => ?_
  cases response.usage with
  | none => exact (only_pure _).bind fun cost => only_pure _
  | some usage =>
      exact only_askNow.bind fun today => (only_ofExcept _).bind fun cost => only_pure _

theorem only_rounds {D : Type} (r : DoerReview D) (left : ℕ) :
    ∀ (previous : Option (D × DraftReview)) (modelRuns : List ModelRunTelemetry),
      (doerReviewRounds r left previous modelRuns : ChatProg A (RoundsEnd D)).Only
        (Discusses S selected) := by
  induction left with
  | zero => exact fun _ _ => only_pure _
  | succ left ih =>
      intro previous modelRuns
      unfold doerReviewRounds
      refine (only_invoke _ _ _ _).bind fun answered => (only_ofExcept _).bind fun draft => ?_
      refine (only_invoke _ _ _ _).bind fun judged => (only_ofExcept _).bind fun review => ?_
      split
      · exact only_pure _
      · exact ih _ _

omit [Sha256] [ChatLibraries] in
theorem only_checkQuestion (question : String) (history : List ConversationTurn)
    (unbounded : String) :
    (checkQuestion question history unbounded : ChatProg A Unit).Only (Discusses S selected) :=
  (only_insist _ _).bind fun _ => only_insist _ _

theorem only_businessAnswer (d : BusinessAnalystDiscussion) (workItemId question : String)
    (repository : Option String) (history : List ConversationTurn) :
    (d.answer workItemId question repository history : ChatProg A BusinessAnalystResult).Only
      (Discusses S selected) := by
  unfold BusinessAnalystDiscussion.answer
  refine (only_checkQuestion _ _ _).bind fun _ => only_askTimer.bind fun started => ?_
  refine (only_rounds _ _ _ _).bind fun last => only_askTimer.bind fun ended => ?_
  split
  · exact only_askUuid.bind fun id => only_ofExcept _
  · exact only_askUuid.bind fun id => only_ofExcept _
  · exact only_raise _

omit [Sha256] [ChatLibraries] in
theorem only_readContexts (question : String) :
    ∀ named : List String, (∀ repository ∈ named, repository ∈ selected) →
      (GroundedRepositoryDiscussion.readContexts question named :
        ChatProg A (List RepositoryCodeContext)).Only (Discusses S selected)
  | [], _ => only_pure _
  | repository :: rest, h => by
      have hask : (askReader repository question : ChatProg A RepositoryCodeContext).Only
          (Discusses S selected) :=
        ⟨h repository List.mem_cons_self, fun _ => only_ofExcept _⟩
      unfold GroundedRepositoryDiscussion.readContexts
      refine hask.bind fun context => Only.bind ?_ fun contexts => only_pure _
      exact only_readContexts question rest fun r hr => h r (List.mem_cons_of_mem _ hr)

omit [Sha256] in
/-- What is selected is what was named. -/
theorem selectedRepositories_named {repository : Option String} {repositories named : List String}
    (h : selectedRepositories repository repositories = .ok named) :
    ∀ r ∈ named, r ∈ repositories ∨ repository = some r := by
  unfold selectedRepositories at h
  obtain ⟨-, h⟩ := Except.seq_ok.mp h
  obtain ⟨-, h⟩ := Except.seq_ok.mp h
  obtain ⟨-, h⟩ := Except.seq_ok.mp h
  obtain ⟨-, h⟩ := Except.seq_ok.mp h
  obtain ⟨-, h⟩ := Except.seq_ok.mp h
  cases h
  intro r hr
  split at hr
  · exact Or.inl hr
  · exact Or.inr (Option.mem_toList.mp hr)

theorem only_groundedAnswer (d : GroundedRepositoryDiscussion) (repository : Option String)
    (repositories : List String) (question : String) (history : List ConversationTurn)
    (h : ∀ r, r ∈ repositories ∨ repository = some r → r ∈ selected) :
    (d.answer repository repositories question history :
      ChatProg A GroundedDiscussionResult).Only (Discusses S selected) := by
  unfold GroundedRepositoryDiscussion.answer
  refine (only_checkQuestion _ _ _).bind fun _ => only_computed fun named hnamed => ?_
  refine only_askTimer.bind fun started => Only.bind ?_ fun contexts => ?_
  · exact only_readContexts _ _ fun r hr => h r (selectedRepositories_named hnamed r hr)
  · refine (only_insist _ _).bind fun _ => (only_insist _ _).bind fun _ => ?_
    refine (only_rounds _ _ _ _).bind fun last => only_askTimer.bind fun ended => ?_
    split
    · exact only_askUuid.bind fun id => only_ofExcept _
    · exact only_askUuid.bind fun id => only_ofExcept _
    · exact only_raise _

theorem only_routerAnswer (r : GroundedRepositoryDiscussionRouter) (repository : Option String)
    (repositories : List String) (question : String) (profile : AnalysisProfile)
    (history : List ConversationTurn)
    (h : ∀ r, r ∈ repositories ∨ repository = some r → r ∈ selected) :
    (r.answer repository repositories question profile history :
      ChatProg A GroundedDiscussionResult).Only (Discusses S selected) := by
  unfold GroundedRepositoryDiscussionRouter.answer
  refine only_computed fun named hnamed => ?_
  have hmem := selectedRepositories_named hnamed
  split
  · refine only_groundedAnswer _ _ _ _ _ fun r hr => h r ?_
    rcases hr with hr | hr
    · cases hr
    · exact hmem r (Option.some.inj hr ▸ List.mem_singleton_self _)
  · refine only_groundedAnswer _ _ _ _ _ fun r hr => h r ?_
    rcases hr with hr | hr
    · exact hmem r hr
    · cases hr

/-- The answer of a turn: it reads only repositories that its request selects. -/
theorem only_answerTurn (settings : ChatSettings) (request : ChatRequest) (admission : Admission)
    (item : WorkflowItem) :
    (answerTurn settings request admission item : ChatProg A TurnAnswer).Only
      (Discusses S request.selectedRepositories) := by
  unfold answerTurn
  split
  · split
    · exact only_raise _
    · exact (only_businessAnswer _ _ _ _ _).bind fun result => only_pure _
  · split
    · rename_i profile discussion repository hprofile hdiscussion hselected
      refine Only.bind (only_routerAnswer _ _ _ _ _ _ fun r hr => ?_) fun result => only_pure _
      rcases hr with hr | hr
      · cases hr
      · rw [hselected, ← Option.some.inj hr]
        exact List.mem_singleton_self _
    · refine (only_insist _ _).bind fun _ => ?_
      refine Only.bind (only_routerAnswer _ _ _ _ _ _ fun r hr => ?_) fun result => only_pure _
      rcases hr with hr | hr
      · exact hr
      · cases hr
    · exact only_raise _

end Discussions

/-! ## 2. A chat turn -/

/-- The principal may have models called: it operates, for the tenant that the budget names. -/
def MayUseModels (settings : ChatSettings) (current : Principal) : Prop :=
  Operates current ∧ settings.chatModelTurnLimit ≠ some 0 ∧
    settings.chatModelTenantId = some current.tenantId.text

/-- The port of a store. -/
abbrev Port : StoreCall → Type := fun _ => Except Failure StoreResult

section Turns

variable (settings : ChatSettings) (current : Principal) (body : ChatRequest)

/-- What a turn may call, once the item that it works on is known. -/
def TurnCalls (owned : Option Identifier) : StoreCall → Prop
  | .createIntake _ actorId _ message _ _ _ =>
      body.workItemId = none ∧ actorId = current.subjectId ∧ message = body.message
  | .get _ workItemId => body.workItemId = some workItemId
  | .reserveChatTurn _ workItemId actorId _ limit _ => MayUseModels settings current ∧
      owned = some workItemId ∧ actorId = current.subjectId ∧
        limit = settings.chatModelTurnLimit.map Int.ofNat
  | .recordChatTurn _ workItemId actorId _ _ => MayUseModels settings current ∧
      owned = some workItemId ∧ actorId = current.subjectId
  | _ => False

/-- What a chat turn may ask for a principal. -/
def TurnPermits (owned : Option Identifier) : ChatAsk StoreCall → Prop
  | .store call => call.tenantId = current.tenantId ∧ TurnCalls settings current body owned call
  | .complete _ _ => MayUseModels settings current
  | .readCodebaseContext repository _ => MayUseModels settings current ∧
      repository ∈ body.selectedRepositories ∧ repository ∈ settings.githubRepositories
  | .now => True
  | .timer => True
  | .uuid => True

/-- The item that is the principal's after an answer: a new one, or one that it created. -/
def ownedAfter (owned : Option Identifier) : StoreCall → Except Failure StoreResult →
    Option Identifier
  | .createIntake .., .ok (.item item) => some item.workItemId
  | .get .., .ok (.found (some item)) =>
      if item.createdBy = current.subjectId then some item.workItemId else owned
  | _, _ => owned

def ownedNext (owned : Option Identifier) :
    (request : ChatAsk StoreCall) → ChatAsk.Answer Port request → Option Identifier
  | .store call, answer => ownedAfter current owned call answer
  | .complete _ _, _ => owned
  | .readCodebaseContext _ _, _ => owned
  | .now, _ => owned
  | .timer, _ => owned
  | .uuid, _ => owned

/-- The protocol of a turn; its stage is the item that it works on. -/
def turnGuard : Protocol (ChatAsk StoreCall) (ChatAsk.Answer Port) (Option Identifier) where
  allows owned request := TurnPermits settings current body owned request
  next owned request answer := ownedNext current owned request answer

end Turns

section Chat

variable [Sha256] [ChatLibraries] {settings : ChatSettings} {current : Principal}
  {body : ChatRequest} {admission : Admission} {owned : Option Identifier}

omit [Sha256] in
/-- What is admitted is on the allowlist, and may have models called where there are some. -/
theorem chatAdmission_ok (h : chatAdmission settings current body = .ok admission) :
    (∀ repository ∈ body.selectedRepositories, repository ∈ settings.githubRepositories) ∧
      (admission.modelConfigured = true → MayUseModels settings current) := by
  unfold chatAdmission at h
  obtain ⟨mode, -, h⟩ := Except.bind_ok.mp h
  have hrouted : ∃ agentRole profile, routeChatRole mode body.message
      body.selectedRepositories.head? = .ok (agentRole, profile) := by
    cases hroute : routeChatRole mode body.message body.selectedRepositories.head? with
    | ok routed => exact ⟨routed.1, routed.2, rfl⟩
    | error failure =>
        rw [hroute] at h
        cases failure with
        | _ => cases h
  obtain ⟨agentRole, profile, hroute⟩ := hrouted
  rw [hroute] at h
  dsimp only [pure_bind] at h
  obtain ⟨hlisted, h⟩ := Except.seq_ok.mp h
  obtain ⟨htenant, h⟩ := Except.seq_ok.mp h
  obtain ⟨hrole, h⟩ := Except.seq_ok.mp h
  obtain ⟨-, h⟩ := Except.seq_ok.mp h
  obtain ⟨-, h⟩ := Except.seq_ok.mp h
  obtain ⟨hbudget, h⟩ := Except.seq_ok.mp h
  obtain ⟨-, h⟩ := Except.seq_ok.mp h
  cases h
  refine ⟨fun repository hmem => ?_, fun hmodels => ?_⟩
  · exact List.contains_iff_mem.mp (List.all_eq_true.mp (guardThat_ok.mp hlisted) _ hmem)
  · have hlimit : settings.chatModelTurnLimit ≠ some 0 :=
      fun hzero => guardThat_ok.mp hbudget ⟨hmodels, hzero⟩
    obtain ⟨tenant, hnamed, -⟩ := settings.tenantNamed hlimit
    refine ⟨?_, hlimit, ?_⟩
    · by_contra hnone
      unfold Operates at hnone
      rw [not_or] at hnone
      exact guardThat_ok.mp hrole ⟨hmodels, hnone⟩
    · by_contra hother
      exact guardThat_ok.mp htenant ⟨hmodels, by rw [hnamed]; exact Option.some_ne_none _, hother⟩

omit [Sha256] [ChatLibraries] in
/-- One call through the port. -/
theorem follows_callFor {α : Type} {call : StoreCall} {read : StoreResult → Option α}
    {Q : Except Failure α → Option Identifier → Prop} :
    (turnGuard settings current body).Follows owned (callFor call read) Q ↔
      TurnPermits settings current body owned (.store call) ∧
        ∀ answer, Q (answer >>= expect read) (ownedAfter current owned call answer) := by
  refine and_congr_right fun _ => forall_congr' fun answer => ?_
  cases answer with
  | error failure => exact Iff.rfl
  | ok result => exact follows_ofExcept

omit [Sha256] [ChatLibraries] in
theorem turnItem_guarded :
    (turnGuard settings current body).Follows none
      (turnItem portStore.toWorkflowStore current body admission)
      fun r owned => ∀ item, r = .ok item → owned = some item.workItemId := by
  unfold turnItem
  cases hid : body.workItemId with
  | none =>
      refine ⟨trivial, fun now => ?_⟩
      refine follows_callFor.mpr ⟨⟨rfl, hid, rfl, rfl⟩, fun answer item hitem => ?_⟩
      cases answer with
      | error failure => cases hitem
      | ok result =>
          cases result with
          | item created =>
              cases hitem
              rfl
          | _ => cases hitem
  | some workItemId =>
      refine follows_bind.mpr (follows_callFor.mpr ⟨⟨rfl, hid⟩, fun answer => ?_⟩)
      cases answer with
      | error failure => exact fun _ h => by cases h
      | ok result =>
          cases result with
          | found existing =>
              cases existing with
              | none => exact fun _ h => by cases h
              | some item =>
                  refine follows_checked (fun _ h => by cases h) fun hown => ?_
                  intro value hvalue
                  cases hvalue
                  exact if_pos hown
          | _ => exact fun _ h => by cases h

omit [ChatLibraries] in
theorem reserveTurn_guarded {item : WorkflowItem} (hmodels : MayUseModels settings current) :
    (turnGuard settings current body).Stays (some item.workItemId)
      (reserveTurn settings portStore.toWorkflowStore current body admission item) := by
  unfold reserveTurn
  refine (stays_ofExcept _).bind fun reservation => Stays.bind ⟨trivial, fun _ => rfl⟩ fun now => ?_
  refine Stays.bind ?_ fun reserved => ?_
  · refine follows_attempt.mpr (follows_callFor.mpr ⟨⟨rfl, hmodels, rfl, rfl, rfl⟩, ?_⟩)
    exact fun answer => rfl
  · split
    · exact stays_pure _
    · exact stays_raise _
    · exact stays_raise _

omit [ChatLibraries] in
theorem recordTurn_guarded {item : WorkflowItem} {answer : TurnAnswer}
    (hmodels : MayUseModels settings current) :
    (turnGuard settings current body).Stays (some item.workItemId)
      (recordTurn portStore.toWorkflowStore current body admission item answer) := by
  unfold recordTurn
  refine (stays_ofExcept _).bind fun audit => Stays.bind ⟨trivial, fun _ => rfl⟩ fun now => ?_
  exact follows_callFor.mpr ⟨⟨rfl, hmodels, rfl, rfl⟩, fun answer => rfl⟩

/-- The chat handler asks only what its principal may. -/
theorem chat_guarded :
    (turnGuard settings current body).Follows none
      (chat settings portStore.toWorkflowStore current body) fun _ _ => True := by
  unfold chat
  refine follows_computed (fun _ => trivial) fun admission hadmission => ?_
  obtain ⟨hlisted, hmodels⟩ := chatAdmission_ok hadmission
  refine Follows.seq turnItem_guarded (fun _ _ _ => trivial) fun item owned hitem => ?_
  rw [hitem item rfl]
  split
  · trivial
  · rename_i hconfigured
    have hmay := hmodels (Bool.not_eq_false _ ▸ hconfigured)
    refine (reserveTurn_guarded hmay).then (fun _ => trivial) fun reserved => ?_
    refine Stays.then (Q := fun _ _ => True) (Stays.bind ?_ fun outcome => ?_) (fun _ => trivial)
      fun answer => trivial
    · refine follows_attempt.mpr ?_
      refine Stays.bind (Only.stays (only_answerTurn settings body admission item)
        fun request hrequest => ?_) fun answer => ?_
      · cases request with
        | store call => exact hrequest.elim
        | complete seat request => exact ⟨hmay, fun _ => rfl⟩
        | readCodebaseContext repository question =>
            exact ⟨⟨hmay, hrequest, hlisted _ hrequest⟩, fun _ => rfl⟩
        | now => exact ⟨trivial, fun _ => rfl⟩
        | timer => exact ⟨trivial, fun _ => rfl⟩
        | uuid => exact ⟨trivial, fun _ => rfl⟩
      · exact (recordTurn_guarded hmay).bind fun recorded => stays_pure _
    · split
      · exact stays_pure _
      · exact stays_raise _

end Chat

/-! ## 3. The handlers -/

/-- What is known of a call: its principal, and the item that it works on. -/
structure Known where
  current : Option VerifiedPrincipal
  owned : Option Identifier

/-- What a handler other than the chat may call, by its endpoint. -/
def EndpointCalls (current : Principal) : ApiCall → StoreCall → Prop
  | .statusView, .list _ => True
  | .workItem workItemId, .get _ id => id = workItemId
  | .trace workItemId, .get _ id => id = workItemId
  | .trace workItemId, .trace _ id => id = workItemId
  | .gate _ workItemId, .get _ id => Operates current ∧ id = workItemId
  | .gate body workItemId, .addGateRequest _ id actorId gate decision decisionDigest _ =>
      Operates current ∧ pyStr id.text = pyStr workItemId ∧ actorId = current.subjectId ∧
        gate = body.gate ∧ decision = body.decision ∧
          decisionDigest = String.ofList body.decisionDigest.text
  | _, _ => False

/-- What a part of a handler may ask once its principal is known. -/
def PartPermits (settings : AppSettings) (call : ApiCall) (current : Principal)
    (owned : Option Identifier) (request : ChatAsk StoreCall) : Prop :=
  match call with
  | .chat body => TurnPermits settings.toChatSettings current body owned request
  | call => match request with
    | .store stored => stored.tenantId = current.tenantId ∧ EndpointCalls current call stored
    | .now => True
    | _ => False

/-- What a handler may ask. -/
def Permits (settings : AppSettings) (request : AuthRequest) (call : ApiCall) (known : Known) :
    AppAsk StoreCall → Prop
  | .verify token _ => known.current = none ∧ call ≠ .healthz ∧ settings.authenticator = true ∧
      presentedToken settings.browserLogin settings.cookieAuthOrigin request = .ok token
  | .turn asked => match known.current with
      | none => call ≠ .healthz ∧ asked = .now
      | some current => PartPermits settings call current.toPrincipal known.owned asked
  | .tokenFor repository => call = .githubAccess ∧ repository ∈ settings.githubRepositories ∧
      ∃ current ∈ known.current, Operates current.toPrincipal
  | .readRepository repository => call = .githubRepositoryList ∧
      repository ∈ settings.githubRepositories ∧
        ∃ current ∈ known.current, Operates current.toPrincipal

/-- What is known after a handler was answered. -/
def Known.after (known : Known) :
    (asked : AppAsk StoreCall) → AppAsk.Answer Port asked → Known
  | .verify _ _, answer => { known with current := answer.toOption }
  | .turn asked, answer => match known.current with
      | none => known
      | some current => ⟨some current, ownedNext current.toPrincipal known.owned asked answer⟩
  | .tokenFor _, _ => known
  | .readRepository _, _ => known

/-- The protocol of a handler. -/
def guard (settings : AppSettings) (request : AuthRequest) (call : ApiCall) :
    Protocol (AppAsk StoreCall) (AppAsk.Answer Port) Known where
  allows := Permits settings request call
  next := Known.after

section Handlers

variable {settings : AppSettings} {request : AuthRequest} {call : ApiCall}
  {current : VerifiedPrincipal} {owned : Option Identifier}

/-- The principal of a call, which is known from then on. -/
theorem currentPrincipal_guarded (hcall : call ≠ .healthz) :
    (guard settings request call).Follows ⟨none, none⟩ (currentPrincipal settings request)
      fun r known => ∀ current, r = .ok current → known = ⟨some current, none⟩ := by
  unfold currentPrincipal
  refine follows_checked (fun _ h => by cases h) fun hconfigured => ?_
  refine follows_computed (fun _ _ h => by cases h) fun token htoken => ?_
  have hpresented : presentedToken settings.browserLogin settings.cookieAuthOrigin request =
      .ok token := by
    unfold refusing at htoken
    split at htoken
    · rename_i value hvalue
      rw [hvalue, Except.ok.inj htoken]
    · cases htoken
  refine ⟨⟨hcall, rfl⟩, fun now => ⟨⟨rfl, hcall, hconfigured, hpresented⟩, fun answer => ?_⟩⟩
  refine follows_ofExcept.mpr fun current hcurrent => ?_
  cases answer with
  | ok verified =>
      cases hcurrent
      rfl
  | error error =>
      unfold authenticated at hcurrent
      split at hcurrent
      · rename_i hsame
        cases hsame
      · split at hcurrent
        · cases hcurrent
        · cases hcurrent

theorem operator_guarded (hcall : call ≠ .healthz) :
    (guard settings request call).Follows ⟨none, none⟩ (operator settings request)
      fun r known => ∀ current, r = .ok current →
        known = ⟨some current, none⟩ ∧ Operates current.toPrincipal := by
  unfold operator
  refine Follows.seq (currentPrincipal_guarded hcall) (fun _ _ _ _ h => by cases h)
    fun current known hknown => ?_
  refine follows_checked (fun _ h => by cases h) fun hoperates => ?_
  intro value hvalue
  cases hvalue
  exact ⟨hknown current rfl, hoperates⟩

/-- One call through the port. -/
theorem follows_asTurn {α : Type} {stored : StoreCall} {read : StoreResult → Option α}
    {Q : Except Failure α → Known → Prop} :
    (guard settings request call).Follows ⟨some current, owned⟩ (asTurn (callFor stored read)) Q ↔
      PartPermits settings call current.toPrincipal owned (.store stored) ∧
        ∀ answer, Q (answer >>= expect read)
          ⟨some current, ownedAfter current.toPrincipal owned stored answer⟩ := by
  refine and_congr_right fun _ => forall_congr' fun answer => ?_
  cases answer with
  | error failure => exact Iff.rfl
  | ok result =>
      show Follows _ _ (asTurn (.ofExcept (expect read result))) Q ↔ Q (expect read result) _
      cases expect read result with
      | ok value => exact Iff.rfl
      | error failure => exact Iff.rfl

/-- The item that a request names, for the principal that is known. -/
theorem existingItem_guarded {workItemId : String}
    (hpermits : PartPermits settings call current.toPrincipal owned
      (.store (.get current.tenantId workItemId))) :
    (guard settings request call).Follows ⟨some current, owned⟩
      (existingItem portStore current workItemId)
      fun r known => ∀ item, r = .ok item → known.current = some current := by
  unfold existingItem
  refine follows_bind.mpr (follows_asTurn.mpr ⟨hpermits, fun answer => ?_⟩)
  split
  · split
    · exact fun _ h => by cases h
    · exact fun _ _ => rfl
  · exact fun _ h => by cases h

theorem tokenStatuses_guarded (hcurrent : Operates current.toPrincipal) :
    ∀ repositories : List String,
      (∀ repository ∈ repositories, repository ∈ settings.githubRepositories) →
      (guard settings request .githubAccess).Stays ⟨some current, owned⟩
        (tokenStatuses repositories : AppProg Port _)
  | [], _ => stays_pure _
  | repository :: rest, h => by
      unfold tokenStatuses
      refine Stays.bind ⟨⟨rfl, h _ List.mem_cons_self, current, rfl, hcurrent⟩, fun _ => rfl⟩
        fun token => ?_
      exact (tokenStatuses_guarded hcurrent rest fun r hr => h r (List.mem_cons_of_mem _ hr)).bind
        fun statuses => stays_pure _

/-- The text of an identifier that was read. -/
theorem ofText_text {s : PyStr} {id : Identifier} (h : Identifier.ofText s = some id) :
    pyStr id.text = s := by
  unfold Identifier.ofText at h
  dsimp only at h
  split at h
  · rename_i hread
    rw [← Option.some.inj h]
    exact hread.1
  · cases h

variable [ChatLibraries]

theorem repositorySummaries_guarded (hcurrent : Operates current.toPrincipal) :
    ∀ repositories : List String,
      (∀ repository ∈ repositories, repository ∈ settings.githubRepositories) →
      (guard settings request .githubRepositoryList).Stays ⟨some current, owned⟩
        (repositorySummaries repositories : AppProg Port _)
  | [], _ => stays_pure _
  | repository :: rest, h => by
      unfold repositorySummaries
      refine Stays.bind ?_ fun summary => ?_
      · unfold repositorySummary
        refine Stays.bind ⟨⟨rfl, h _ List.mem_cons_self, current, rfl, hcurrent⟩,
          fun _ => stays_ofExcept _⟩ fun metadata => ?_
        exact (stays_insist _ _).bind fun _ => (stays_insist _ _).bind fun _ => stays_pure _
      · exact (repositorySummaries_guarded hcurrent rest
          fun r hr => h r (List.mem_cons_of_mem _ hr)).bind fun summaries => stays_pure _

/-- A chat turn, as a part of its handler. -/
theorem asTurn_chat_guarded [Sha256] (body : ChatRequest) :
    (guard settings request (.chat body)).Follows ⟨some current, none⟩
      (asTurn (chat settings.toChatSettings portStore.toWorkflowStore current.toPrincipal body))
      fun _ known => known.current = some current := by
  have hchat : (turnGuard settings.toChatSettings current.toPrincipal body).Follows none
      (chat settings.toChatSettings portStore.toWorkflowStore current.toPrincipal body)
      fun _ _ => True := chat_guarded
  have hlifted : (guard settings request (.chat body)).Follows ⟨some current, none⟩
      (asTurn (chat settings.toChatSettings portStore.toWorkflowStore current.toPrincipal body))
      fun _ known => ∃ owned, known = ⟨some current, owned⟩ ∧ True := by
    refine hchat.over rfl fun owned known asked hknown hallowed => ?_
    rw [hknown]
    exact ⟨hallowed, fun answer => ⟨answer, rfl, rfl⟩⟩
  refine hlifted.weaken fun r known h => ?_
  obtain ⟨owned, hknown, -⟩ := h
  rw [hknown]

end Handlers

/-- Every handler follows its protocol, and replies to a principal that is known. -/
theorem handle_guarded [Sha256] [ChatLibraries] (settings : AppSettings) (request : AuthRequest)
    (call : ApiCall) :
    (guard settings request call).Follows ⟨none, none⟩ (handle settings portStore request call)
      fun r known => ∀ reply, r = .ok reply → call = .healthz ∨ known.current ≠ none := by
  have hsome : ∀ {r : Except Failure ApiReply} {known : Known} {current : VerifiedPrincipal},
      known.current = some current →
        ∀ reply, r = .ok reply → call = .healthz ∨ known.current ≠ none :=
    fun hknown _ _ => Or.inr (hknown ▸ Option.some_ne_none _)
  have hraised : ∀ {known : Known} (failure : Failure) (reply : ApiReply),
      (Except.error failure : Except Failure ApiReply) = .ok reply →
        call = .healthz ∨ known.current ≠ none := fun _ _ h => by cases h
  cases call with
  | healthz => exact fun _ _ => Or.inl rfl
  | githubAccess =>
      refine Follows.seq (operator_guarded (by simp)) (fun failure known _ => hraised failure)
        fun current known hknown => ?_
      obtain ⟨rfl, hoperates⟩ := hknown current rfl
      refine follows_checked (hraised _) fun _ => ?_
      exact (tokenStatuses_guarded hoperates _ fun _ h => h).then hraised fun _ => hsome rfl
  | githubRepositoryList =>
      refine Follows.seq (operator_guarded (by simp)) (fun failure known _ => hraised failure)
        fun current known hknown => ?_
      obtain ⟨rfl, hoperates⟩ := hknown current rfl
      refine follows_checked (hraised _) fun _ => ?_
      refine Stays.then (follows_attempt.mpr (repositorySummaries_guarded hoperates _ fun _ h => h))
        hraised fun outcome => ?_
      split
      · exact hsome rfl
      · exact hraised _
  | chat body =>
      refine Follows.seq (currentPrincipal_guarded (by simp))
        (fun failure known _ => hraised failure) fun current known hknown => ?_
      rw [hknown current rfl]
      refine Follows.seq (asTurn_chat_guarded body) (fun failure known _ => hraised failure)
        fun response known hafter => hsome hafter
  | statusView =>
      refine Follows.seq (currentPrincipal_guarded (by simp))
        (fun failure known _ => hraised failure) fun current known hknown => ?_
      rw [hknown current rfl]
      refine follows_bind.mpr (follows_asTurn.mpr ⟨⟨rfl, trivial⟩, fun answer => ?_⟩)
      split
      · exact hsome rfl
      · exact hraised _
  | workItem workItemId =>
      refine Follows.seq (currentPrincipal_guarded (by simp))
        (fun failure known _ => hraised failure) fun current known hknown => ?_
      rw [hknown current rfl]
      refine Follows.seq (existingItem_guarded ⟨rfl, rfl⟩) (fun failure known _ => hraised failure)
        fun item known hitem => hsome (hitem item rfl)
  | trace workItemId =>
      refine Follows.seq (currentPrincipal_guarded (by simp))
        (fun failure known _ => hraised failure) fun current known hknown => ?_
      rw [hknown current rfl]
      refine Follows.seq (existingItem_guarded ⟨rfl, rfl⟩) (fun failure known _ => hraised failure)
        fun item known hitem => ?_
      obtain ⟨known, owned⟩ := known
      obtain rfl := hitem item rfl
      refine follows_bind.mpr (follows_asTurn.mpr ⟨⟨rfl, rfl⟩, fun answer => ?_⟩)
      split
      · exact hsome rfl
      · exact hraised _
  | gate body workItemId =>
      refine Follows.seq (operator_guarded (by simp)) (fun failure known _ => hraised failure)
        fun current known hknown => ?_
      obtain ⟨rfl, hoperates⟩ := hknown current rfl
      refine Follows.seq (existingItem_guarded ⟨rfl, hoperates, rfl⟩)
        (fun failure known _ => hraised failure) fun item known hitem => ?_
      obtain ⟨known, owned⟩ := known
      obtain rfl := hitem item rfl
      refine ⟨trivial, fun now => ?_⟩
      cases hid : Identifier.ofText (pyStr workItemId) with
      | none => exact hraised _
      | some id =>
          show Follows _ _ (asTurn (portStore.addGateRequest current.tenantId id current.subjectId
            body.gate body.decision (String.ofList body.decisionDigest.text) now) >>= _) _
          refine follows_bind.mpr (follows_asTurn.mpr
            ⟨⟨rfl, hoperates, ofText_text hid, rfl, rfl, rfl, rfl⟩, fun answer => ?_⟩)
          split
          · exact hsome rfl
          · exact hraised _

/-! ## 4. Many requests -/

section Runs

variable {ι W : Type} [DecidableEq ι]

/-- What a deed shows of a handler. -/
def shown (i : ι) (known : Known) : Deed ι (AppAsk StoreCall) (AppAsk.Answer Port) → Known
  | .asked j asked answer => if j = i then known.after asked answer else known
  | .changed => known

/-- What a run has shown of a handler. -/
def knownIn (run : List (Deed ι (AppAsk StoreCall) (AppAsk.Answer Port))) (i : ι) : Known :=
  run.foldl (shown i) ⟨none, none⟩

variable {run : List (Deed ι (AppAsk StoreCall) (AppAsk.Answer Port))}

theorem knownIn_snoc (deed : Deed ι (AppAsk StoreCall) (AppAsk.Answer Port)) (i : ι) :
    knownIn (run ++ [deed]) i = shown i (knownIn run i) deed := by
  unfold knownIn
  rw [List.foldl_append]
  rfl

theorem knownIn_asked (i : ι) (asked : AppAsk StoreCall) (answer : AppAsk.Answer Port asked) :
    knownIn (run ++ [.asked i asked answer]) =
      Function.update (knownIn run) i ((knownIn run i).after asked answer) := by
  funext j
  rw [knownIn_snoc]
  by_cases hj : j = i
  · rw [hj, Function.update_self]
    exact if_pos rfl
  · rw [Function.update_of_ne hj]
    exact if_neg (Ne.symm hj)

theorem knownIn_changed : knownIn (run ++ [.changed]) = knownIn run :=
  funext fun i => knownIn_snoc _ i

/-- The handlers of some requests. -/
def handlers [Sha256] [ChatLibraries] (settings : AppSettings) (requests : ι → AuthRequest)
    (calls : ι → ApiCall) (i : ι) : AppProg Port ApiReply :=
  handle settings portStore (requests i) (calls i)

/-- What was asked was permitted by what was known then. -/
def AllPermitted (settings : AppSettings) (requests : ι → AuthRequest) (calls : ι → ApiCall)
    (run : List (Deed ι (AppAsk StoreCall) (AppAsk.Answer Port))) : Prop :=
  ∀ earlier i asked answer, earlier ++ [.asked i asked answer] <+: run →
    Permits settings (requests i) (calls i) (knownIn earlier i) asked

theorem AllPermitted.snoc {settings : AppSettings} {requests : ι → AuthRequest}
    {calls : ι → ApiCall} {deed : Deed ι (AppAsk StoreCall) (AppAsk.Answer Port)}
    (h : AllPermitted settings requests calls run)
    (hlast : ∀ i asked answer, deed = .asked i asked answer →
      Permits settings (requests i) (calls i) (knownIn run i) asked) :
    AllPermitted settings requests calls (run ++ [deed]) := by
  intro earlier i asked answer hprefix
  rcases List.prefix_concat_iff.mp hprefix with hsame | hbefore
  · obtain ⟨rfl, hdeed⟩ := List.append_inj' hsame rfl
    exact hlast i asked answer (List.singleton_inj.mp hdeed).symm
  · exact h earlier i asked answer hbefore

end Runs

/-- **The API**: in every run of handlers side by side, over ports that answer anything, a handler
asks for nothing before the token that its request presents was verified, except the time; and
then every call of the store is for the tenant of that principal, and in its name, models are
called only for a principal who operates for the tenant of the budget, turns are reserved and
recorded on an item that was made for it or found to be its own, files are read only of selected
repositories on the allowlist, and gates and tokens are asked for only by those who operate. A
reply other than the health of the service has such a principal. -/
theorem api_guarded {ι W : Type} [DecidableEq ι] [Sha256] [ChatLibraries]
    (ports : Surroundings ι (AppAsk StoreCall) (AppAsk.Answer Port) W) (settings : AppSettings)
    (requests : ι → AuthRequest) (calls : ι → ApiCall) :
    ∀ run s, (ports.crew (handlers settings requests calls)).Trace run s →
      AllPermitted settings requests calls run ∧
      ∀ i reply, s.2 i = .ret reply → calls i = .healthz ∨ (knownIn run i).current ≠ none := by
  intro run s h
  obtain ⟨stage, ⟨rfl, hpermitted⟩, hfollows⟩ := Surroundings.crew_invariant_to
    (P := fun i => guard settings (requests i) (calls i))
    (I := fun run _ stage => stage = knownIn run ∧ AllPermitted settings requests calls run)
    ⟨none, none⟩ (fun i => handle_guarded settings (requests i) (calls i))
    (fun _ _ => ⟨rfl, fun _ _ _ _ hprefix => absurd (List.prefix_nil.mp hprefix) (by simp)⟩)
    (fun run w stage i asked answer w' hI hallowed _ => by
      obtain ⟨rfl, hpermitted⟩ := hI
      refine ⟨(knownIn_asked i asked answer).symm, hpermitted.snoc fun j other reply hdeed => ?_⟩
      cases hdeed
      exact hallowed)
    (fun run w stage w' hI _ => by
      obtain ⟨rfl, hpermitted⟩ := hI
      exact ⟨knownIn_changed.symm, hpermitted.snoc fun _ _ _ hdeed => by cases hdeed⟩) h
  refine ⟨hpermitted, fun i reply hreply => ?_⟩
  have hended := hfollows i
  rw [hreply] at hended
  exact hended reply rfl

namespace ApiFixture

open IntakeFixture IsolationFixture

def settings : AppSettings where
  businessAnalyst := none
  groundedDiscussion := none
  chatModelTurnLimit := some 0
  chatModelTenantId := none
  githubRepositories := []
  tenantNamed h := absurd rfl h
  authenticator := true
  browserLogin := false
  cookieAuthOrigin := none
  githubAppBroker := false
  githubRepositoryReader := false
  brokered h := absurd h Bool.false_ne_true

def request : AuthRequest := ⟨"GET", none, some (pyStr "Bearer t"), none⟩

theorem issuer_bounded : boundedName (pyStr "i") = true := rfl

theorem one_role : 1 ≤ [Role.viewer].length ∧ [Role.viewer].length ≤ 3 := by decide

def verified (tenantId : Identifier) : VerifiedPrincipal :=
  ⟨⟨tenantId, actor, [.viewer]⟩, pyStr "i", pyStr "i", item.createdAt, item.createdAt,
    issuer_bounded, issuer_bounded, one_role, List.nodup_singleton _⟩

/-- Two requests for the list of items, of two tenants; one is not answered. -/
def twoTenants : List (Deed Bool (AppAsk StoreCall) (AppAsk.Answer Port)) :=
  [.asked true (.turn .now) now, .asked false (.turn .now) now,
    .asked false (.verify (pyStr "t") now) (.ok (verified other)),
    .asked true (.verify (pyStr "t") now) (.ok (verified tenant)),
    .asked true (.turn (.store (.list tenant))) (.ok (.items []))]

/-- A run goes on with an answer. -/
theorem answered {W : Type} {ports : Surroundings Bool (AppAsk StoreCall) (AppAsk.Answer Port) W}
    {programs ps : Bool → AppProg Port ApiReply} {w w' : W}
    {run : List (Deed Bool (AppAsk StoreCall) (AppAsk.Answer Port))} (request : AppAsk StoreCall)
    (answer : AppAsk.Answer Port request) (h : (ports.crew programs).Trace run (w, ps)) (i : Bool)
    {next : AppAsk.Answer Port request → AppProg Port ApiReply} (hi : ps i = .ask request next)
    (ha : ports.answers w i request answer w') :
    (ports.crew programs).Trace (run ++ [.asked i request answer])
      (w', Function.update ps i (next answer)) :=
  .step _ h (.asked w w' ps i request answer next hi ha)

theorem twoTenants_trace {W : Type}
    (ports : Surroundings Bool (AppAsk StoreCall) (AppAsk.Answer Port) W) (w w' : W)
    (hstart : ports.start w) (hnow : ∀ i, ports.answers w i (.turn .now) now w)
    (hverify : ∀ i verification, ports.answers w i (.verify (pyStr "t") now) verification w)
    (hlist : ports.answers w true (.turn (.store (.list tenant))) (.ok (.items [])) w') :
    ∃ ps, (ports.crew (handlers settings (fun _ => request) fun _ => .statusView)).Trace twoTenants
      (w', ps) ∧ ps true = .ret (.status []) := by
  have h0 : (ports.crew (handlers settings (fun _ : Bool => request) fun _ => .statusView)).Trace []
      (w, _) := .start _ ⟨hstart, rfl⟩
  have h1 := answered (.turn .now) now h0 true rfl (hnow true)
  have h2 := answered (.turn .now) now h1 false rfl (hnow false)
  have h3 := answered (.verify (pyStr "t") now) (.ok (verified other)) h2 false rfl
    (hverify false _)
  have h4 := answered (.verify (pyStr "t") now) (.ok (verified tenant)) h3 true rfl
    (hverify true _)
  exact ⟨_, answered (.turn (.store (.list tenant))) (.ok (.items [])) h4 true rfl hlist, rfl⟩

/-- Ports that answer anything. -/
def anyPorts : Surroundings Bool (AppAsk StoreCall) (AppAsk.Answer Port) Unit where
  start _ := True
  answers _ _ _ _ _ := True
  changes _ _ := True

end ApiFixture

open ApiFixture IntakeFixture in
theorem api_guarded_twoTenants :
    AllPermitted settings (fun _ => request) (fun _ => .statusView) twoTenants := by
  obtain ⟨ps, h, -⟩ := twoTenants_trace anyPorts () () trivial
    (fun _ => trivial) (fun _ _ => trivial) trivial
  exact (api_guarded anyPorts settings (fun _ => request) (fun _ => .statusView) _ _ h).1

end NokincFactory.Api
