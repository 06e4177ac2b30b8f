/-
  File:      NokincFactory/Chat/Metering.lean
  Subject:   Where a chat turn stands with its reservation, and that the handler calls a model
             only on one.

  * `TurnStage`: from the lock on the budget to the calls that are left;
  * `turnProtocol`: a model is called only where a call is left; the rest is the store's;
  * `StoreFollows`: what the handler needs of a store;
  * `chat_follows`: the handler follows the protocol, in both of its loops and on every failure;
  * `Metered`: what the events of a tenant and the model calls of its turns have in common with
    an allowance.
-/
import NokincFactory.Application.Chat
import NokincFactory.Lib.Allowance

namespace NokincFactory

/-! ## 1. Stages -/

/-- Where a turn stands: before its reservation, or with so many calls left on it. -/
inductive TurnStage where
  | idle
  /-- it holds the lock on the budget -/
  | locked
  /-- it has counted the reservations under the lock -/
  | counted (used : ℕ)
  /-- its reservation is written and not committed yet -/
  | inserted
  | granted (left : ℕ)
deriving DecidableEq

namespace TurnStage

/-- The model calls that are left. -/
def left : TurnStage → ℕ
  | granted n => n
  | _ => 0

/-- After a model call. -/
def spend : TurnStage → TurnStage
  | granted n => granted (n - 1)
  | s => s

/-- Back before a reservation, unless there is one. -/
def settle : TurnStage → TurnStage
  | granted n => granted n
  | _ => idle

@[simp] theorem left_granted (n : ℕ) : (granted n).left = n := rfl
@[simp] theorem spend_granted (n : ℕ) : (granted n).spend = granted (n - 1) := rfl
@[simp] theorem settle_granted (n : ℕ) : (granted n).settle = granted n := rfl

@[simp] theorem left_settle (s : TurnStage) : s.settle.left = s.left := by
  cases s <;> rfl

theorem left_spend {s : TurnStage} (h : 0 < s.left) : s.spend.left + 1 = s.left := by
  cases s with
  | granted n => exact Nat.succ_pred_eq_of_pos h
  | idle => exact absurd h (Nat.lt_irrefl 0)
  | locked => exact absurd h (Nat.lt_irrefl 0)
  | counted used => exact absurd h (Nat.lt_irrefl 0)
  | inserted => exact absurd h (Nat.lt_irrefl 0)

end TurnStage

variable {S : Type} {A : S → Type}

/-- The protocol of a turn over the protocol of its store. -/
def turnProtocol (P : Protocol S A TurnStage) :
    Protocol (ChatAsk S) (ChatAsk.Answer A) TurnStage where
  allows s
    | .store request => P.allows s request
    | .complete _ _ => 0 < s.left
    | _ => True
  next s
    | .store request, answer => P.next s request answer
    | .complete _ _, _ => s.spend
    | .readCodebaseContext _ _, _ => s
    | .now, _ => s
    | .timer, _ => s
    | .uuid, _ => s

section Asks

variable {P : Protocol S A TurnStage} {s : TurnStage}

@[simp] theorem follows_askModel {seat : ModelSeat} {request : ModelRequest}
    {Q : Except Failure ModelResponse → TurnStage → Prop} :
    (turnProtocol P).Follows s (askModel seat request : ChatProg A ModelResponse) Q ↔
      0 < s.left ∧ ∀ r, Q r s.spend :=
  and_congr_right fun _ => forall_congr' fun _ => Protocol.follows_ofExcept

@[simp] theorem follows_askReader {repository question : String}
    {Q : Except Failure RepositoryCodeContext → TurnStage → Prop} :
    (turnProtocol P).Follows s (askReader repository question : ChatProg A RepositoryCodeContext) Q ↔
      ∀ r, Q r s :=
  (and_iff_right trivial).trans (forall_congr' fun _ => Protocol.follows_ofExcept)

@[simp] theorem follows_askNow {Q : Except Failure Datetime → TurnStage → Prop} :
    (turnProtocol P).Follows s (askNow : ChatProg A Datetime) Q ↔ ∀ t, Q (.ok t) s :=
  and_iff_right trivial

@[simp] theorem follows_askTimer {Q : Except Failure ℚ → TurnStage → Prop} :
    (turnProtocol P).Follows s (askTimer : ChatProg A ℚ) Q ↔ ∀ t, Q (.ok t) s :=
  and_iff_right trivial

@[simp] theorem follows_askUuid {Q : Except Failure Uuid → TurnStage → Prop} :
    (turnProtocol P).Follows s (askUuid : ChatProg A Uuid) Q ↔ ∀ u, Q (.ok u) s :=
  and_iff_right trivial

end Asks

/-! ## 2. The parts that leave the stage -/

section Quiet

variable {P : Protocol S A TurnStage} {s : TurnStage} {α β : Type}

/-- Whatever it returns or raises, the program leaves the stage. -/
def Quiet (P : Protocol S A TurnStage) (s : TurnStage) (p : ChatProg A α) : Prop :=
  (turnProtocol P).Follows s p fun _ s' => s' = s

/-- A part that leaves the stage, and what comes after it. -/
theorem Quiet.then {p : ChatProg A α} {f : α → ChatProg A β}
    {Q : Except Failure β → TurnStage → Prop} (hp : Quiet P s p) (he : ∀ e, Q (.error e) s)
    (hf : ∀ a, (turnProtocol P).Follows s (f a) Q) : (turnProtocol P).Follows s (p >>= f) Q := by
  refine Protocol.Follows.seq hp (fun e s' h => ?_) fun a s' h => ?_
  · rw [h]
    exact he e
  · rw [h]
    exact hf a

theorem Quiet.bind {p : ChatProg A α} {f : α → ChatProg A β} (hp : Quiet P s p)
    (hf : ∀ a, Quiet P s (f a)) : Quiet P s (p >>= f) :=
  Quiet.then hp (fun _ => rfl) hf

theorem Quiet.attempt {p : ChatProg A α} (hp : Quiet P s p) : Quiet P s p.attempt :=
  Protocol.follows_attempt.mpr hp

theorem quiet_pure (a : α) : Quiet P s (pure a : ChatProg A α) := Protocol.follows_pure.mpr rfl

theorem quiet_raise (e : Failure) : Quiet P s (.raise e : ChatProg A α) :=
  Protocol.follows_raise.mpr rfl

theorem quiet_ofExcept (r : Except Failure α) : Quiet P s (.ofExcept r : ChatProg A α) :=
  Protocol.follows_ofExcept.mpr rfl

theorem quiet_insist (p : Prop) [Decidable p] (e : Failure) :
    Quiet P s (.insist p e : ChatProg A Unit) :=
  Protocol.follows_insist.mpr ⟨fun _ => rfl, fun _ => rfl⟩

theorem quiet_askReader (repository question : String) :
    Quiet P s (askReader repository question : ChatProg A RepositoryCodeContext) :=
  follows_askReader.mpr fun _ => rfl

theorem quiet_askNow : Quiet P s (askNow : ChatProg A Datetime) := follows_askNow.mpr fun _ => rfl

theorem quiet_askTimer : Quiet P s (askTimer : ChatProg A ℚ) := follows_askTimer.mpr fun _ => rfl

theorem quiet_askUuid : Quiet P s (askUuid : ChatProg A Uuid) := follows_askUuid.mpr fun _ => rfl

/-- A new event, with its kind and its tenant. -/
theorem newEvent_follows [Sha256] {tenantId : Identifier} (workItemId actorId : Identifier)
    (payload : EventPayload) (now : Datetime) :
    (turnProtocol P).Follows s
      (newEvent tenantId workItemId actorId payload now : ChatProg A WorkflowEvent)
      fun r s' => (∀ e, r = .ok e → e.kind = payload.kind ∧ e.tenantId = tenantId) ∧ s' = s := by
  unfold newEvent
  refine quiet_askUuid.then (fun _ => ⟨fun _ h => (nomatch h), rfl⟩) fun eventId => ?_
  refine (quiet_ofExcept _).then (fun _ => ⟨fun _ h => (nomatch h), rfl⟩) fun occurredAt => ?_
  refine Protocol.follows_pure.mpr ⟨fun e he => ?_, rfl⟩
  cases he
  exact ⟨rfl, rfl⟩

/-- A new item, with the event of its intake. -/
theorem newIntake_follows [Sha256] {tenantId : Identifier} (actorId : Identifier) (now : Datetime)
    (message : String) (repository : Option String) (repositories : List String)
    (analysisProfile : Option AnalysisProfile) :
    (turnProtocol P).Follows s
      (newIntake tenantId actorId now message repository repositories analysisProfile :
        ChatProg A (WorkflowItem × WorkflowEvent))
      fun r s' => (∀ x, r = .ok x → x.2.kind = .intake) ∧ s' = s := by
  unfold newIntake
  refine (quiet_ofExcept _).then (fun _ => ⟨fun _ h => (nomatch h), rfl⟩) fun current => ?_
  refine quiet_askUuid.then (fun _ => ⟨fun _ h => (nomatch h), rfl⟩) fun itemId => ?_
  refine quiet_askUuid.then (fun _ => ⟨fun _ h => (nomatch h), rfl⟩) fun eventId => ?_
  refine Protocol.follows_pure.mpr ⟨fun x hx => ?_, rfl⟩
  cases hx
  rfl

theorem quiet_checkQuestion (question : String) (history : List ConversationTurn)
    (unbounded : String) :
    Quiet P s (checkQuestion question history unbounded : ChatProg A Unit) :=
  (quiet_insist _ _).bind fun _ => quiet_insist _ _

theorem quiet_readContexts (question : String) (selected : List String) :
    Quiet P s (GroundedRepositoryDiscussion.readContexts question selected :
      ChatProg A (List RepositoryCodeContext)) := by
  induction selected with
  | nil => exact quiet_pure _
  | cons repository rest ih =>
      exact (quiet_askReader repository question).bind fun _ => ih.bind fun _ => quiet_pure _

end Quiet

/-! ## 3. The discussions -/

section Discussions

variable [Sha256] [ChatLibraries] {P : Protocol S A TurnStage}

/-- The turn has its reservation. -/
def TurnStage.Granted (s : TurnStage) : Prop := ∃ n, s = .granted n

/-- One model call, where one is left. -/
theorem invoke_follows (region : String) (v : Invocations) (prompt : String)
    (contextDigest : Digest) (n : ℕ) :
    (turnProtocol P).Follows (.granted (n + 1))
      (invoke region v prompt contextDigest : ChatProg A (ModelResponse × ModelRunTelemetry))
      fun r s => (∀ a, r = .ok a → s = .granted n) ∧ s.Granted := by
  unfold invoke
  refine (quiet_insist _ _).then (fun _ => ⟨nofun, _, rfl⟩) fun _ => ?_
  refine (quiet_ofExcept _).then (fun _ => ⟨nofun, _, rfl⟩) fun text => ?_
  refine quiet_askTimer.then (fun _ => ⟨nofun, _, rfl⟩) fun started => ?_
  have hcall : (turnProtocol P).Follows (.granted (n + 1))
      (askModel v.seat ⟨v.role, text, contextDigest⟩ : ChatProg A ModelResponse)
      fun _ s => s = .granted n := follows_askModel.mpr ⟨Nat.succ_pos n, fun _ => rfl⟩
  refine hcall.seq (fun _ s hs => ⟨nofun, n, hs⟩) fun response s hs => ?_
  rw [hs]
  refine Protocol.Follows.weaken (Q := fun _ s => s = .granted n) ?_ fun r s h =>
    ⟨fun _ _ => h, n, h⟩
  refine quiet_askTimer.bind fun ended => (quiet_insist _ _).bind fun _ => ?_
  cases response.usage with
  | none => exact quiet_pure _
  | some usage =>
      exact quiet_askNow.bind fun today => (quiet_ofExcept _).bind fun cost => quiet_pure _

/-- The loop: two calls for each round that is left. -/
theorem rounds_follow {D : Type} (r : DoerReview D) (rounds : ℕ)
    (previous : Option (D × DraftReview)) (modelRuns : List ModelRunTelemetry) :
    (turnProtocol P).Follows (.granted (rounds * 2))
      (doerReviewRounds r rounds previous modelRuns : ChatProg A (RoundsEnd D))
      fun _ s => s.Granted := by
  induction rounds generalizing previous modelRuns with
  | zero => exact ⟨0, rfl⟩
  | succ left ih =>
      unfold doerReviewRounds
      rw [Nat.succ_mul]
      refine (invoke_follows _ _ _ _ (left * 2 + 1)).seq (fun _ _ h => h.2) ?_
      intro ⟨answer, draftRun⟩ s hdraft
      rw [hdraft.1 _ rfl]
      refine (quiet_ofExcept _).then (fun _ => ⟨_, rfl⟩) fun draft => ?_
      refine (invoke_follows _ _ _ _ (left * 2)).seq (fun _ _ h => h.2) ?_
      intro ⟨verdict, reviewRun⟩ s hverdict
      rw [hverdict.1 _ rfl]
      refine (quiet_ofExcept _).then (fun _ => ⟨_, rfl⟩) fun review => ?_
      by_cases hreview : review.supported = true ∧ review.issues = []
      · rw [if_pos hreview]
        exact ⟨_, rfl⟩
      · rw [if_neg hreview]
        exact ih _ _

omit [Sha256] [ChatLibraries] in
/-- A part that leaves the stage keeps the reservation. -/
theorem granted_of_quiet {α : Type} {p : ChatProg A α} {s : TurnStage} (hs : s.Granted)
    (h : Quiet P s p) : (turnProtocol P).Follows s p fun _ s => s.Granted :=
  h.weaken fun _ s' hs' => by
    rw [hs']
    exact hs

theorem business_answer_follows (d : BusinessAnalystDiscussion) (workItemId question : String)
    (repository : Option String) (history : List ConversationTurn) :
    (turnProtocol P).Follows (.granted maxModelCallsPerTurn)
      (d.answer workItemId question repository history : ChatProg A BusinessAnalystResult)
      fun _ s => s.Granted := by
  unfold BusinessAnalystDiscussion.answer
  refine (quiet_checkQuestion _ _ _).then (fun _ => ⟨_, rfl⟩) fun _ => ?_
  refine quiet_askTimer.then (fun _ => ⟨_, rfl⟩) fun started => ?_
  refine (rounds_follow _ maxDoerReviewRounds none []).seq (fun _ _ h => h) ?_
  intro ⟨accepted, previous, modelRuns⟩ s hs
  refine granted_of_quiet hs (quiet_askTimer.bind fun ended => ?_)
  rcases accepted with _ | draft
  · rcases previous with _ | ⟨draft, review⟩
    · exact quiet_raise _
    · exact quiet_askUuid.bind fun id => quiet_ofExcept _
  · exact quiet_askUuid.bind fun id => quiet_ofExcept _

theorem grounded_answer_follows (d : GroundedRepositoryDiscussion) (repository : Option String)
    (repositories : List String) (question : String) (history : List ConversationTurn) :
    (turnProtocol P).Follows (.granted maxModelCallsPerTurn)
      (d.answer repository repositories question history : ChatProg A GroundedDiscussionResult)
      fun _ s => s.Granted := by
  unfold GroundedRepositoryDiscussion.answer
  refine (quiet_checkQuestion _ _ _).then (fun _ => ⟨_, rfl⟩) fun _ => ?_
  refine (quiet_ofExcept _).then (fun _ => ⟨_, rfl⟩) fun selected => ?_
  refine quiet_askTimer.then (fun _ => ⟨_, rfl⟩) fun started => ?_
  refine (quiet_readContexts _ _).then (fun _ => ⟨_, rfl⟩) fun contexts => ?_
  refine (quiet_insist _ _).then (fun _ => ⟨_, rfl⟩) fun _ => ?_
  refine (quiet_insist _ _).then (fun _ => ⟨_, rfl⟩) fun _ => ?_
  refine (rounds_follow _ maxDoerReviewRounds none []).seq (fun _ _ h => h) ?_
  intro ⟨accepted, previous, modelRuns⟩ s hs
  refine granted_of_quiet hs (quiet_askTimer.bind fun ended => ?_)
  rcases selected.head? with _ | name
  · exact quiet_raise _
  · rcases contexts.head? with _ | context
    · exact quiet_raise _
    · rcases accepted with _ | draft
      · rcases previous with _ | ⟨draft, review⟩
        · exact quiet_raise _
        · exact quiet_askUuid.bind fun id => quiet_ofExcept _
      · exact quiet_askUuid.bind fun id => quiet_ofExcept _

theorem router_answer_follows (r : GroundedRepositoryDiscussionRouter) (repository : Option String)
    (repositories : List String) (question : String) (profile : AnalysisProfile)
    (history : List ConversationTurn) :
    (turnProtocol P).Follows (.granted maxModelCallsPerTurn)
      (r.answer repository repositories question profile history :
        ChatProg A GroundedDiscussionResult) fun _ s => s.Granted := by
  unfold GroundedRepositoryDiscussionRouter.answer
  refine (quiet_ofExcept _).then (fun _ => ⟨_, rfl⟩) fun selected => ?_
  rcases selected with _ | ⟨only, _ | ⟨second, rest⟩⟩
  · exact grounded_answer_follows _ _ _ _ _
  · exact grounded_answer_follows _ _ _ _ _
  · exact grounded_answer_follows _ _ _ _ _

/-! ## 4. The handler -/

/-- What has returned has its reservation, with all its calls. -/
def Reserves (r : Except Failure WorkflowEvent) (s : TurnStage) : Prop :=
  ∀ e, r = .ok e → s = .granted maxModelCallsPerTurn

omit [Sha256] [ChatLibraries] in
theorem reserves_error (e : Failure) (s : TurnStage) : Reserves (.error e) s :=
  fun _ h => nomatch h

/-- What the handler needs of a store, for a tenant with a limit. -/
structure StoreFollows (P : Protocol S A TurnStage) (store : WorkflowStore A)
    (tenantId : Identifier) (limit : ℕ) : Prop where
  createIntake : ∀ actorId now message repository repositories analysisProfile,
    Quiet P .idle (store.createIntake tenantId actorId now message repository repositories
      analysisProfile)
  get : ∀ workItemId, Quiet P .idle (store.get tenantId workItemId)
  reserveChatTurn : ∀ workItemId actorId reservation now,
    (turnProtocol P).Follows .idle
      (store.reserveChatTurn tenantId workItemId actorId reservation (some limit) now) Reserves
  recordChatTurn : ∀ n workItemId actorId audit now,
    (turnProtocol P).Follows (.granted n)
      (store.recordChatTurn tenantId workItemId actorId audit now) fun _ _ => True

variable {store : WorkflowStore A} {settings : ChatSettings} {current : Principal} {limit : ℕ}

theorem answerTurn_follows (request : ChatRequest) (admission : Admission) (item : WorkflowItem) :
    (turnProtocol P).Follows (.granted maxModelCallsPerTurn)
      (answerTurn settings request admission item : ChatProg A TurnAnswer) fun _ s => s.Granted := by
  unfold answerTurn
  by_cases hrole : admission.agentRole = .businessAnalyst
  · rw [if_pos hrole]
    cases settings.businessAnalyst with
    | none => exact ⟨_, rfl⟩
    | some analyst =>
        exact (business_answer_follows _ _ _ _ _).seq (fun _ _ hs => hs) fun _ _ hs => hs
  · rw [if_neg hrole]
    rcases admission.profile with _ | profile
    · exact ⟨_, rfl⟩
    · rcases settings.groundedDiscussion with _ | discussion
      · exact ⟨_, rfl⟩
      · have hanswer : ∀ repository repositories, (turnProtocol P).Follows
            (.granted maxModelCallsPerTurn) (do
              let result ← discussion.answer repository repositories request.message profile
                request.history
              pure (.grounded result) : ChatProg A TurnAnswer) fun _ s => s.Granted := by
          intro repository repositories
          exact (router_answer_follows _ _ _ _ _ _).seq (fun _ _ hs => hs) fun _ _ hs => hs
        rcases request.selectedRepositories with _ | ⟨only, _ | ⟨second, rest⟩⟩
        · exact (quiet_insist _ _).then (fun _ => ⟨_, rfl⟩) fun _ => hanswer _ _
        · exact hanswer _ _
        · exact (quiet_insist _ _).then (fun _ => ⟨_, rfl⟩) fun _ => hanswer _ _

omit [Sha256] [ChatLibraries] in
theorem turnItem_quiet (hstore : StoreFollows P store current.tenantId limit)
    (request : ChatRequest) (admission : Admission) :
    Quiet P .idle (turnItem store current request admission) := by
  unfold turnItem
  cases request.workItemId with
  | none => exact quiet_askNow.bind fun now => hstore.createIntake _ _ _ _ _ _
  | some workItemId =>
      refine (hstore.get workItemId).bind fun existing => ?_
      cases existing with
      | none => exact quiet_raise _
      | some item => exact (quiet_insist _ _).bind fun _ => quiet_pure _

omit [ChatLibraries] in
theorem reserveTurn_follows (hstore : StoreFollows P store current.tenantId limit)
    (hlimit : settings.chatModelTurnLimit = some limit) (request : ChatRequest)
    (admission : Admission) (item : WorkflowItem) :
    (turnProtocol P).Follows .idle (reserveTurn settings store current request admission item)
      Reserves := by
  unfold reserveTurn
  rw [hlimit]
  refine (quiet_ofExcept _).then (fun e => reserves_error e _) fun reservation => ?_
  refine quiet_askNow.then (fun e => reserves_error e _) fun now => ?_
  refine Protocol.follows_bind.mpr (Protocol.follows_attempt.mpr
    ((hstore.reserveChatTurn _ _ _ _).weaken fun r s h => ?_))
  cases r with
  | ok event => exact fun _ _ => h event rfl
  | error failure =>
      cases failure with
      | turnLimit message => exact reserves_error _ s
      | denied message => exact reserves_error _ s
      | value message => exact reserves_error _ s
      | assertion => exact reserves_error _ s
      | http status detail => exact reserves_error _ s
      | integrity => exact reserves_error _ s
      | other => exact reserves_error _ s

theorem answerAndRecord_follows (hstore : StoreFollows P store current.tenantId limit)
    (request : ChatRequest) (admission : Admission) (item : WorkflowItem) :
    (turnProtocol P).Follows (.granted maxModelCallsPerTurn)
      (answerAndRecord settings store current request admission item) fun _ _ => True := by
  unfold answerAndRecord
  refine Protocol.follows_bind.mpr (Protocol.follows_attempt.mpr ?_)
  refine (answerTurn_follows request admission item).seq (fun _ _ _ => trivial) ?_
  intro answer s ⟨n, hs⟩
  rw [hs]
  unfold recordTurn
  refine Protocol.Follows.seq (M := fun _ _ => True) ?_ (fun _ _ _ => trivial) fun _ _ _ => trivial
  refine (quiet_ofExcept _).then (fun _ => trivial) fun audit => ?_
  exact quiet_askNow.then (fun _ => trivial) fun now => hstore.recordChatTurn n _ _ _ _

/-- The handler calls a model only on its reservation, and no more often than it covers. -/
theorem chat_follows (hstore : StoreFollows P store current.tenantId limit)
    (hlimit : settings.chatModelTurnLimit = some limit) (request : ChatRequest) :
    (turnProtocol P).Follows .idle (chat settings store current request) fun _ _ => True := by
  unfold chat
  refine (quiet_ofExcept _).then (fun _ => trivial) fun admission => ?_
  refine (turnItem_quiet hstore request admission).then (fun _ => trivial) fun item => ?_
  by_cases hmodel : admission.modelConfigured = false
  · rw [if_pos hmodel]
    trivial
  · rw [if_neg hmodel]
    refine (reserveTurn_follows hstore hlimit request admission item).seq (fun _ _ _ => trivial) ?_
    intro event s hs
    rw [hs event rfl]
    exact (answerAndRecord_follows hstore request admission item).seq (fun _ _ _ => trivial)
      fun _ _ _ => trivial

end Discussions

/-! ## 5. The turns of a tenant -/

/-- One chat request at one application. -/
structure ChatTurn where
  settings : ChatSettings
  current : Principal
  request : ChatRequest

variable {ι W : Type}

/-- A world that answers a store answers a turn: models, readers and clocks as they like. -/
def chatSurroundings (T : Surroundings ι S A W) :
    Surroundings ι (ChatAsk S) (ChatAsk.Answer A) W where
  start := T.start
  answers w i
    | .store request, answer, w' => T.answers w i request answer w'
    | _, _, w' => w' = w
  changes := T.changes

/-- The model calls in a run by the turns of a tenant. -/
def modelCalls (turns : ι → ChatTurn) (tenantId : Identifier)
    (run : List (Deed ι (ChatAsk S) (ChatAsk.Answer A))) : List ι :=
  run.filterMap fun
    | .asked i (.complete _ _) _ =>
        if (turns i).current.tenantId = tenantId then some i else none
    | _ => none

/-- The turns over the store of a world. -/
def chatting [Sha256] [ChatLibraries] [DecidableEq ι] (T : Surroundings ι S A W)
    (store : WorkflowStore A) (turns : ι → ChatTurn) :
    Labelled (Deed ι (ChatAsk S) (ChatAsk.Answer A))
      (W × (ι → Prog (ChatAsk S) (ChatAsk.Answer A) Failure IntakeResponse)) :=
  (chatSurroundings T).crew fun i =>
    chat (turns i).settings store (turns i).current (turns i).request

/-! ## 6. Metering -/

section Metering

variable [DecidableEq ι] {turns : ι → ChatTurn} {tenantId : Identifier} {limit : ℕ}
  {run : List (Deed ι (ChatAsk S) (ChatAsk.Answer A))} {stage : ι → TurnStage}
  {reservers reservers' : List (Option ι)}

/-- The reservations of a tenant and the model calls of its turns, as an allowance. -/
def allowanceOf (reservers : List (Option ι)) (calls : List ι) : Allowance (Option ι) where
  granted := reservers
  used := (calls : Multiset ι).map some

theorem allowanceOf_used (i : ι) (calls : List ι) :
    (allowanceOf reservers calls).used.count (some i) = calls.count i := by
  unfold allowanceOf
  rw [Multiset.count_map_eq_count' _ _ (Option.some_injective ι), Multiset.coe_count]

omit [DecidableEq ι] in
theorem allowanceOf_reserve (requester : Option ι) (calls : List ι) :
    allowanceOf (reservers ++ [requester]) calls =
      { allowanceOf reservers calls with
        granted := requester ::ₘ (allowanceOf reservers calls).granted } := by
  refine Allowance.ext ?_ rfl
  show ((reservers ++ [requester] : List (Option ι)) : Multiset (Option ι)) = _
  rw [← Multiset.coe_add, add_comm]
  rfl

omit [DecidableEq ι] in
theorem allowanceOf_call (i : ι) (calls : List ι) :
    allowanceOf reservers (calls ++ [i]) =
      { allowanceOf reservers calls with
        used := some i ::ₘ (allowanceOf reservers calls).used } := by
  refine Allowance.ext rfl ?_
  show (((calls ++ [i] : List ι) : Multiset ι)).map some = _
  rw [← Multiset.coe_add, add_comm, Multiset.map_add]
  rfl

/-- The allowance is reached in its own system, and the calls that are left to the turns of the
tenant are within it. -/
structure Metered (turns : ι → ChatTurn) (tenantId : Identifier) (limit : ℕ)
    (reservers : List (Option ι)) (run : List (Deed ι (ChatAsk S) (ChatAsk.Answer A)))
    (stage : ι → TurnStage) : Prop where
  reachable : (Allowance.system limit maxModelCallsPerTurn).Reachable
    (allowanceOf reservers (modelCalls turns tenantId run))
  covered : ∀ i, (turns i).current.tenantId = tenantId →
    (modelCalls turns tenantId run).count i + (stage i).left ≤ maxModelCallsPerTurn *
      (allowanceOf reservers (modelCalls turns tenantId run)).granted.count (some i)

theorem metered_start (h : reservers.length ≤ limit) :
    Metered (S := S) (A := A) turns tenantId limit reservers [] fun _ => .idle := by
  refine ⟨.start _ ⟨?_, rfl⟩, fun i _ => Nat.zero_le _⟩
  show (reservers : Multiset (Option ι)).card ≤ limit
  rwa [Multiset.coe_card]

omit [DecidableEq ι] in
theorem modelCalls_append (run deeds : List (Deed ι (ChatAsk S) (ChatAsk.Answer A))) :
    modelCalls turns tenantId (run ++ deeds) =
      modelCalls turns tenantId run ++ modelCalls turns tenantId deeds :=
  List.filterMap_append

/-- A step that reserves nothing and is no model call. -/
theorem Metered.keeps {deed : Deed ι (ChatAsk S) (ChatAsk.Answer A)} {stage' : ι → TurnStage}
    (h : Metered turns tenantId limit reservers run stage)
    (hdeed : modelCalls turns tenantId [deed] = [])
    (hstage : ∀ i, (turns i).current.tenantId = tenantId → (stage' i).left ≤ (stage i).left) :
    Metered turns tenantId limit reservers (run ++ [deed]) stage' := by
  have hcalls : modelCalls turns tenantId (run ++ [deed]) = modelCalls turns tenantId run := by
    rw [modelCalls_append, hdeed, List.append_nil]
  refine ⟨by rw [hcalls]; exact h.reachable, fun i hi => ?_⟩
  rw [hcalls]
  exact (Nat.add_le_add_left (hstage i hi) _).trans (h.covered i hi)

/-- A model call of a turn that has one left. -/
theorem Metered.calls {i : ι} {seat : ModelSeat} {request : ModelRequest}
    {answer : Except Failure ModelResponse}
    (h : Metered turns tenantId limit reservers run stage) (hi : 0 < (stage i).left) :
    Metered turns tenantId limit reservers (run ++ [.asked i (.complete seat request) answer])
      (Function.update stage i (stage i).spend) := by
  have hspend := TurnStage.left_spend hi
  by_cases hown : (turns i).current.tenantId = tenantId
  · have hcalls : modelCalls turns tenantId (run ++ [.asked i (.complete seat request) answer]) =
        modelCalls turns tenantId run ++ [i] := by
      rw [modelCalls_append]
      simp [modelCalls, hown]
    have hi' := h.covered i hown
    refine ⟨?_, fun j hj => ?_⟩
    · rw [hcalls, allowanceOf_call]
      refine .step _ _ h.reachable (.use _ _ ?_)
      rw [allowanceOf_used]
      omega
    · rw [hcalls, List.count_append, allowanceOf_call]
      dsimp only
      by_cases hji : j = i
      · rw [hji, Function.update_self, List.count_singleton_self]
        omega
      · have hj' := h.covered j hj
        rw [Function.update_of_ne hji, List.count_singleton, if_neg (by simpa using Ne.symm hji)]
        exact hj'
  · refine h.keeps ?_ fun j hj => ?_
    · simp [modelCalls, hown]
    · have hji : j ≠ i := fun e => hown (e ▸ hj)
      rw [Function.update_of_ne hji]

/-- A step that reserves a turn of the tenant below the limit, and gives it at most the calls of
one turn. -/
theorem Metered.grants {deed : Deed ι (ChatAsk S) (ChatAsk.Answer A)} {i : ι} {s : TurnStage}
    (h : Metered turns tenantId limit reservers run stage)
    (hdeed : modelCalls turns tenantId [deed] = []) (hlimit : reservers.length < limit)
    (hi : s.left ≤ (stage i).left + maxModelCallsPerTurn) :
    Metered turns tenantId limit (reservers ++ [some i]) (run ++ [deed])
      (Function.update stage i s) := by
  have hcalls : modelCalls turns tenantId (run ++ [deed]) = modelCalls turns tenantId run := by
    rw [modelCalls_append, hdeed, List.append_nil]
  refine ⟨?_, fun j hj => ?_⟩
  · rw [hcalls, allowanceOf_reserve]
    refine .step _ _ h.reachable (.grant _ _ ?_)
    show (reservers : Multiset (Option ι)).card < limit
    rwa [Multiset.coe_card]
  · rw [hcalls, allowanceOf_reserve]
    dsimp only
    have hj' := h.covered j hj
    by_cases hji : j = i
    · rw [hji] at hj'
      rw [hji, Function.update_self, Multiset.count_cons_self, Nat.mul_succ]
      omega
    · rw [Function.update_of_ne hji,
        Multiset.count_cons_of_ne fun e => hji (Option.some_injective ι e)]
      exact hj'

/-- The bounds of a metered run. -/
theorem Metered.within
    (h : Metered turns tenantId limit reservers run stage) :
    reservers.length ≤ limit ∧
      (modelCalls turns tenantId run).length ≤ maxModelCallsPerTurn * limit := by
  have hwithin := Allowance.within_of_reachable h.reachable
  have hgranted : (reservers : Multiset (Option ι)).card ≤ limit := hwithin.granted
  have hused : (((modelCalls turns tenantId run : List ι) : Multiset ι).map some).card ≤
      maxModelCallsPerTurn * limit := hwithin.used_le
  rw [Multiset.card_map, Multiset.coe_card] at hused
  rw [Multiset.coe_card] at hgranted
  exact ⟨hgranted, hused⟩

/-- A turn of the tenant with a call left has a reservation. -/
theorem Metered.reserved {i : ι}
    (h : Metered turns tenantId limit reservers run stage)
    (hi : (turns i).current.tenantId = tenantId) (hleft : 0 < (stage i).left) :
    some i ∈ reservers := by
  have hcovered := h.covered i hi
  have hlt : (allowanceOf reservers (modelCalls turns tenantId run)).used.count (some i) <
      maxModelCallsPerTurn *
        (allowanceOf reservers (modelCalls turns tenantId run)).granted.count (some i) := by
    rw [allowanceOf_used]
    omega
  exact Allowance.mem_granted_of_lt hlt

/-- What a request to the store does to the reservations of the tenant: nothing, or one
reservation below the limit, with at most the calls of one turn. -/
def StoreEffect (own : Prop) (limit : ℕ) (i : ι) (before after : List (Option ι))
    (s s' : TurnStage) : Prop :=
  (after = before ∧ (own → s'.left ≤ s.left)) ∨
    (after = before ++ [some i] ∧ before.length < limit ∧
      s'.left ≤ s.left + maxModelCallsPerTurn)

omit [DecidableEq ι] in
/-- A step that leaves the reservations of the tenant, and gives no turn more calls. -/
theorem effect_same {own : Prop} {i : ι} {before after : List (Option ι)} {s s' : TurnStage}
    (h : after = before) (hleft : s'.left ≤ s.left) : StoreEffect own limit i before after s s' :=
  .inl ⟨h, fun _ => hleft⟩

variable [Sha256] [ChatLibraries] {T : Surroundings ι S A W} {store : WorkflowStore A}
  {P : ι → Protocol S A TurnStage} {J : W → (ι → TurnStage) → Prop}

/-- The turns of a tenant over a store are metered, where the store keeps its own invariant and
each of its requests has such an effect. -/
theorem metered_turns (reservers : W → List (Option ι))
    (hlimit : ∀ i, (turns i).settings.chatModelTurnLimit = some limit)
    (hstore : ∀ i, StoreFollows (P i) store (turns i).current.tenantId limit)
    (hstart : ∀ w, T.start w → J w (fun _ => .idle) ∧ (reservers w).length ≤ limit)
    (hspend : ∀ w stage i, J w stage → 0 < (stage i).left →
      J w (Function.update stage i (stage i).spend))
    (hask : ∀ w stage i request answer w', J w stage → (P i).allows (stage i) request →
      T.answers w i request answer w' →
      J w' (Function.update stage i ((P i).next (stage i) request answer)) ∧
        StoreEffect ((turns i).current.tenantId = tenantId) limit i (reservers w) (reservers w')
          (stage i) ((P i).next (stage i) request answer))
    (hchange : ∀ w stage w', J w stage → T.changes w w' → J w' stage ∧ reservers w' = reservers w)
    {s : W × (ι → Prog (ChatAsk S) (ChatAsk.Answer A) Failure IntakeResponse)}
    (h : (chatting T store turns).Trace run s) :
    Surroundings.Orderly (fun i => turnProtocol (P i))
      (fun run w stage => J w stage ∧ Metered turns tenantId limit (reservers w) run stage)
      run s := by
  refine Surroundings.crew_invariant .idle (fun i => chat_follows (hstore i) (hlimit i) _)
    ?_ ?_ ?_ h
  · intro w hw
    exact ⟨(hstart w hw).1, metered_start (hstart w hw).2⟩
  · intro run w stage i request answer w' ⟨hJ, hmetered⟩ hallows hanswers
    -- what is neither asked of the store nor a model call leaves the world and the stage
    have hstay : ∀ deed, modelCalls turns tenantId [deed] = [] →
        J w (Function.update stage i (stage i)) ∧ Metered turns tenantId limit (reservers w)
          (run ++ [deed]) (Function.update stage i (stage i)) := by
      intro deed hdeed
      rw [Function.update_eq_self]
      exact ⟨hJ, hmetered.keeps hdeed fun _ _ => le_rfl⟩
    cases request with
    | store request =>
        obtain ⟨hJ', heffect⟩ := hask w stage i request answer w' hJ hallows hanswers
        refine ⟨hJ', ?_⟩
        rcases heffect with ⟨hsame, hleft⟩ | ⟨hafter, hbelow, hleft⟩
        · rw [hsame]
          refine hmetered.keeps rfl fun j hj => ?_
          by_cases hji : j = i
          · rw [hji, Function.update_self]
            exact hleft (hji ▸ hj)
          · rw [Function.update_of_ne hji]
        · rw [hafter]
          exact hmetered.grants rfl hbelow hleft
    | complete seat request =>
        obtain rfl : w' = w := hanswers
        exact ⟨hspend w' stage i hJ hallows, hmetered.calls hallows⟩
    | readCodebaseContext repository question =>
        obtain rfl : w' = w := hanswers
        exact hstay _ rfl
    | now =>
        obtain rfl : w' = w := hanswers
        exact hstay _ rfl
    | timer =>
        obtain rfl : w' = w := hanswers
        exact hstay _ rfl
    | uuid =>
        obtain rfl : w' = w := hanswers
        exact hstay _ rfl
  · intro run w stage w' ⟨hJ, hmetered⟩ hchanges
    obtain ⟨hJ', hsame⟩ := hchange w stage w' hJ hchanges
    rw [hsame]
    exact ⟨hJ', hmetered.keeps rfl fun _ _ => le_rfl⟩

end Metering

end NokincFactory
