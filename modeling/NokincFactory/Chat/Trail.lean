/-
  File:      NokincFactory/Chat/Trail.lean
  Subject:   What a chat turn leaves in its store, whatever happens to it on the way.

  A turn writes at most an intake, a reservation and an audit, in this order, and its audit is of
  the model calls it made. The stage of a turn is what the store has of it.

  * `Trail`: the events that a turn may have left;
  * `TrailStage`, `trailProtocol`: what is written so far, and what may be written or asked next;
  * `StoreTrails`: what the handler needs of a store;
  * `chat_trails`: the handler writes a trail, and replies only at the end of one;
  * `Accountable`, `TurnTrails`: what holds of a turn at every stage, and in every run.
-/
import NokincFactory.Chat.Metering
import NokincFactory.Chat.Grounding

namespace NokincFactory

open Grounding (ModelCall)

/-! ## 1. Trails -/

/-- The event is of the item, by the principal and for its tenant. -/
structure WorkflowEvent.By (e : WorkflowEvent) (current : Principal) (item : Identifier) :
    Prop where
  tenantId : e.tenantId = current.tenantId
  actorId : e.actorId = current.subjectId
  workItemId : e.workItemId = item

section Trails

variable [Sha256]

/-- The telemetry of a call: of which model what was asked, and what it answered. -/
structure Records (call : ModelCall) (run : ModelRunTelemetry) : Prop where
  provider : run.provider = call.seat.provider
  model : run.model.text = call.seat.model ∧ run.family.text = call.seat.family
  request : run.requestDigest = contentDigest call.request
  answer : ∃ reply, call.answer = .ok reply ∧ reply.status = .completed ∧
    run.responseDigest = textDigest reply.output ∧ run.usage = reply.usage ∧
      run.providerExecutionId = reply.providerExecutionId

/-- The reservation is of the request, for all calls a turn may make. -/
structure ChatTurnReservation.Of (r : ChatTurnReservation) (request : ChatRequest) : Prop where
  repositories : r.repositories = several request.selectedRepositories
  inputDigest : r.inputDigest = Json.contentDigest (.text request.message)
  historyDigest : r.historyDigest = NokincFactory.historyDigest request.history
  modelCallCount : r.modelCallCount = maxModelCallsPerTurn

/-- The audit is of what was reserved, and of the calls. -/
structure ChatTurnAudit.Of (a : ChatTurnAudit) (r : ChatTurnReservation) (calls : List ModelCall) :
    Prop where
  role : a.agentRole = r.agentRole ∧ a.analysisProfile = r.analysisProfile
  repository : a.repository = r.repository ∧ a.repositories = r.repositories
  digests : a.inputDigest = r.inputDigest ∧ a.historyDigest = r.historyDigest
  modelRuns : List.Forall₂ Records calls a.modelRuns

variable (turn : ChatTurn) (item : Identifier)

/-- What stands before a reservation: the intake of the item, if the turn made it. -/
def Opening (events : List WorkflowEvent) : Prop :=
  events = [] ∨ ∃ e, events = [e] ∧ e.By turn.current item ∧ e.kind = .intake

/-- The turn's own reservation of a request. -/
def ReservedBy (r : ChatTurnReservation) (e : WorkflowEvent) : Prop :=
  e.By turn.current item ∧ e.payload = .chatTurnReserved r ∧ r.Of turn.request

/-- The turn's own audit, after a reservation and some calls. -/
def RecordedBy (r : ChatTurnReservation) (a : ChatTurnAudit) (calls : List ModelCall)
    (e : WorkflowEvent) : Prop :=
  e.By turn.current item ∧ e.payload = .chatTurnRecorded a ∧ a.Of r calls

/-- What a turn may have left of an item, when it has made some calls. -/
inductive Trail (calls : List ModelCall) : List WorkflowEvent → Prop where
  | opening (opening : List WorkflowEvent) (ho : Opening turn item opening) : Trail calls opening
  | reserved (opening : List WorkflowEvent) (e : WorkflowEvent) (r : ChatTurnReservation)
      (ho : Opening turn item opening) (he : ReservedBy turn item r e) :
      Trail calls (opening ++ [e])
  | recorded (opening : List WorkflowEvent) (e e' : WorkflowEvent) (r : ChatTurnReservation)
      (a : ChatTurnAudit) (ho : Opening turn item opening) (he : ReservedBy turn item r e)
      (he' : RecordedBy turn item r a calls e') : Trail calls (opening ++ [e] ++ [e'])

/-- What a reply stands on: all of a trail, with the digest of the answer that is given. -/
def Replied (calls : List ModelCall) (events : List WorkflowEvent) (answer : TurnAnswer) : Prop :=
  ∃ opening e e' r a, events = opening ++ [e] ++ [e'] ∧ Opening turn item opening ∧
    ReservedBy turn item r e ∧ RecordedBy turn item r a calls e' ∧
      a.responseDigest = answer.json.contentDigest ∧ a.status = answer.status ∧
        a.modelRuns = answer.modelRuns

variable {turn item} {calls : List ModelCall} {events : List WorkflowEvent} {e : WorkflowEvent}

omit [Sha256] in
theorem Opening.init (h : Opening turn item (events ++ [e])) : events = [] := by
  rcases h with h | ⟨only, h, -⟩
  · exact absurd h (List.concat_ne_nil e events)
  · rcases List.append_eq_singleton_iff.mp h with ⟨hnil, -⟩ | ⟨-, hcons⟩
    · exact hnil
    · exact absurd hcons (List.cons_ne_nil _ _)

/-- A trail without its last event is one. -/
theorem Trail.init (h : Trail turn item calls (events ++ [e])) : Trail turn item calls events := by
  generalize hall : events ++ [e] = all at h
  cases h with
  | opening _ ho =>
      rw [← hall] at ho
      rw [ho.init]
      exact .opening [] (.inl rfl)
  | reserved opening e' r ho he =>
      rw [(List.append_inj' hall rfl).1]
      exact .opening opening ho
  | recorded opening e' e'' r a ho he he' =>
      rw [(List.append_inj' hall rfl).1]
      exact .reserved opening e' r ho he

theorem Trail.of_append {later : List WorkflowEvent}
    (h : Trail turn item calls (events ++ later)) : Trail turn item calls events := by
  induction later using List.reverseRecOn with
  | nil => rwa [List.append_nil] at h
  | append_singleton later e ih =>
      rw [← List.append_assoc] at h
      exact ih h.init

theorem Replied.trail {answer : TurnAnswer} (h : Replied turn item calls events answer) :
    Trail turn item calls events := by
  obtain ⟨opening, e, e', r, a, rfl, ho, he, he', -⟩ := h
  exact .recorded opening e e' r a ho he he'

theorem ReservedBy.kind {r : ChatTurnReservation} (h : ReservedBy turn item r e) :
    e.kind = .chatTurnReserved := by
  unfold WorkflowEvent.kind
  rw [h.2.1]
  rfl

theorem Replied.covered {answer : TurnAnswer} (h : Replied turn item calls events answer) :
    ∃ e ∈ events, e.kind = .chatTurnReserved := by
  obtain ⟨opening, e, e', r, a, rfl, -, he, -⟩ := h
  exact ⟨e, by simp, he.kind⟩

end Trails

/-! ## 2. Stages -/

/-- What a store has of a turn: the entries that are in it, those of a transaction that is open,
those of a commit that failed and may have been made, and the calls of the turn. -/
structure TrailStage (X : Type) where
  kept : List X
  pending : List X
  unheard : Option (List X)
  calls : List ModelCall

namespace TrailStage

variable {X : Type}

def start : TrailStage X := ⟨[], [], none, []⟩

def keep (s : TrailStage X) (x : X) : TrailStage X := { s with kept := s.kept ++ [x] }

def called (s : TrailStage X) (calls : List ModelCall) : TrailStage X :=
  { s with calls := s.calls ++ calls }

/-- One more entry in the transaction that is open. -/
def pend (s : TrailStage X) (x : X) : TrailStage X := { s with pending := s.pending ++ [x] }

/-- The transaction ends without a trace, or begins. -/
def drop (s : TrailStage X) : TrailStage X := { s with pending := [] }

def commit (s : TrailStage X) : TrailStage X :=
  { s with kept := s.kept ++ s.pending, pending := [] }

/-- The transaction may have been committed. -/
def doubt (s : TrailStage X) : TrailStage X :=
  { s with pending := [], unheard := some s.pending }

/-- Between two transactions, with all commits heard. -/
def Settled (s : TrailStage X) : Prop := s.pending = [] ∧ s.unheard = none

@[simp] theorem called_calls (s : TrailStage X) (calls : List ModelCall) :
    (s.called calls).calls = s.calls ++ calls := rfl
@[simp] theorem called_kept (s : TrailStage X) (calls : List ModelCall) :
    (s.called calls).kept = s.kept := rfl
@[simp] theorem keep_calls (s : TrailStage X) (x : X) : (s.keep x).calls = s.calls := rfl
@[simp] theorem keep_kept (s : TrailStage X) (x : X) : (s.keep x).kept = s.kept ++ [x] := rfl

theorem called_nil (s : TrailStage X) : s.called [] = s := by
  unfold called
  rw [List.append_nil]

theorem called_called (s : TrailStage X) (calls more : List ModelCall) :
    (s.called calls).called more = s.called (calls ++ more) := by
  unfold called
  rw [← List.append_assoc]

theorem Settled.drop {s : TrailStage X} (h : s.Settled) : s.drop = s := by
  unfold TrailStage.drop
  rw [← h.1]

/-- An entry that is committed alone. -/
theorem Settled.commit_pend {s : TrailStage X} (h : s.Settled) (x : X) :
    (s.pend x).commit = s.keep x := by
  unfold pend commit keep
  dsimp only
  rw [h.1, List.nil_append]

theorem Settled.commit {s : TrailStage X} (h : s.Settled) : s.commit = s := by
  unfold TrailStage.commit
  rw [h.1, List.append_nil, ← h.1]

theorem Settled.called {s : TrailStage X} (h : s.Settled) (calls : List ModelCall) :
    (s.called calls).Settled := h

theorem Settled.keep {s : TrailStage X} (h : s.Settled) (x : X) : (s.keep x).Settled := h

end TrailStage

section Stages

variable [Sha256] {X : Type} (Shows : X → WorkflowEvent → Prop) (turn : ChatTurn)

/-- The entry may be written next: what there is would still be a trail. -/
def Permitted (s : TrailStage X) (x : X) : Prop :=
  s.unheard = none ∧ ∃ events item, List.Forall₂ Shows (s.kept ++ s.pending ++ [x]) events ∧
    Trail turn item s.calls events

/-- The turn has its reservation, and no audit yet. -/
def HasReservation (item : Identifier) (r : ChatTurnReservation) (s : TrailStage X) : Prop :=
  s.Settled ∧ ∃ opening e, List.Forall₂ Shows s.kept (opening ++ [e]) ∧ Opening turn item opening ∧
    ReservedBy turn item r e

variable {S : Type} {A : S → Type}

/-- The protocol of a turn over the protocol of its store: a model is called only after the
reservation and before the audit, and at most so often. -/
def trailProtocol (P : Protocol S A (TrailStage X)) :
    Protocol (ChatAsk S) (ChatAsk.Answer A) (TrailStage X) where
  allows s
    | .store request => P.allows s request
    | .complete _ _ => (∃ item r, HasReservation Shows turn item r s) ∧
        s.calls.length < maxModelCallsPerTurn
    | _ => True
  next s
    | .store request, answer => P.next s request answer
    | .complete seat request, answer => s.called [⟨seat, request, answer⟩]
    | .readCodebaseContext _ _, _ => s
    | .now, _ => s
    | .timer, _ => s
    | .uuid, _ => s

end Stages

/-! ## 3. Model calls -/

section Calls

variable [Sha256] {X S : Type} {A : S → Type} {Shows : X → WorkflowEvent → Prop} {turn : ChatTurn}
  {P : Protocol S A (TrailStage X)} {s : TrailStage X}

theorem stays_askReader (repository question : String) : (trailProtocol Shows turn P).Stays s
    (askReader repository question : ChatProg A RepositoryCodeContext) :=
  ⟨trivial, fun _ => Protocol.follows_ofExcept.mpr rfl⟩

theorem stays_askNow : (trailProtocol Shows turn P).Stays s (askNow : ChatProg A Datetime) :=
  ⟨trivial, fun _ => rfl⟩

theorem stays_askTimer : (trailProtocol Shows turn P).Stays s (askTimer : ChatProg A ℚ) :=
  ⟨trivial, fun _ => rfl⟩

theorem stays_askUuid : (trailProtocol Shows turn P).Stays s (askUuid : ChatProg A Uuid) :=
  ⟨trivial, fun _ => rfl⟩

/-- A model may be called so many times more. -/
def MayCall (Shows : X → WorkflowEvent → Prop) (turn : ChatTurn) (s : TrailStage X) (n : ℕ) :
    Prop :=
  (∃ item r, HasReservation Shows turn item r s) ∧ s.calls.length + n ≤ maxModelCallsPerTurn

omit [Sha256] in
theorem TrailStage.length_called (s : TrailStage X) (calls : List ModelCall) :
    (s.called calls).calls.length = s.calls.length + calls.length := List.length_append

theorem MayCall.less {m n : ℕ} (h : MayCall Shows turn s n) (hm : m ≤ n) : MayCall Shows turn s m :=
  ⟨h.1, (Nat.add_le_add_left hm _).trans h.2⟩

/-- After some of the calls, the others may be made. -/
theorem MayCall.after {n : ℕ} (calls : List ModelCall)
    (h : MayCall Shows turn s (calls.length + n)) : MayCall Shows turn (s.called calls) n := by
  refine ⟨h.1, ?_⟩
  rw [TrailStage.length_called, Nat.add_assoc]
  exact h.2

/-- What a part has called, the telemetry that it returns records. -/
def Called {α : Type} (s : TrailStage X) (runs : α → List ModelRunTelemetry)
    (r : Except Failure α) (s' : TrailStage X) : Prop :=
  ∀ value, r = .ok value → ∃ calls, s' = s.called calls ∧ List.Forall₂ Records calls (runs value)

theorem called_error {α : Type} {runs : α → List ModelRunTelemetry} (e : Failure)
    (s' : TrailStage X) : Called s runs (.error e) s' := by
  intro value h
  cases h

/-- The telemetry of one call that was made. -/
def Invoked (s : TrailStage X) (r : Except Failure (ModelResponse × ModelRunTelemetry))
    (s' : TrailStage X) : Prop :=
  ∀ value, r = .ok value → ∃ call, s' = s.called [call] ∧ Records call value.2

theorem invoked_error (e : Failure) (s' : TrailStage X) : Invoked s (.error e) s' := by
  intro value h
  cases h

/-- The telemetry of the calls that were made, after that of earlier ones. -/
def RoundsMade {D : Type} (s : TrailStage X) (modelRuns : List ModelRunTelemetry)
    (r : Except Failure (RoundsEnd D)) (s' : TrailStage X) : Prop :=
  ∀ value, r = .ok value → ∃ calls runs, s' = s.called calls ∧
    value.modelRuns = modelRuns ++ runs ∧ List.Forall₂ Records calls runs

theorem roundsMade_error {D : Type} {modelRuns : List ModelRunTelemetry} (e : Failure)
    (s' : TrailStage X) : RoundsMade (D := D) s modelRuns (.error e) s' := by
  intro value h
  cases h

variable [ChatLibraries]

/-- One call, and its telemetry. -/
theorem invoke_trails (region : String) (v : Invocations) (prompt : String)
    (contextDigest : Digest) (h : MayCall Shows turn s 1) :
    (trailProtocol Shows turn P).Follows s
      (invoke region v prompt contextDigest : ChatProg A (ModelResponse × ModelRunTelemetry))
      (Invoked s) := by
  unfold invoke
  refine Protocol.follows_checked (invoked_error _ _) fun _ => ?_
  refine Protocol.follows_computed (fun e => invoked_error e _) fun text htext => ?_
  refine stays_askTimer.then (fun e => invoked_error e _) fun started => ?_
  refine Protocol.follows_bind.mpr ⟨⟨h.1, h.2⟩, fun answer => ?_⟩
  refine Protocol.follows_ofExcept.mpr ?_
  cases answer with
  | error e => exact invoked_error e _
  | ok response =>
      refine stays_askTimer.then (fun e => invoked_error e _) fun ended => ?_
      refine Protocol.follows_checked (invoked_error _ _) fun hmatches => ?_
      -- what is returned records the one call
      have hreturned : ∀ run : ModelRunTelemetry, run.provider = v.seat.provider →
          run.model = response.model → run.family = response.family →
          run.requestDigest = contentDigest (⟨v.role, text, contextDigest⟩ : ModelRequest) →
          run.responseDigest = textDigest response.output → run.usage = response.usage →
          run.providerExecutionId = response.providerExecutionId →
          Invoked s (.ok (response, run))
            (s.called [⟨v.seat, ⟨v.role, text, contextDigest⟩, .ok response⟩]) := by
        intro run hprovider hmodel hfamily hrequest hresponse husage hid value hvalue
        cases hvalue
        refine ⟨_, rfl, hprovider, ⟨?_, ?_⟩, hrequest, response, rfl, hmatches.1, hresponse,
          husage, hid⟩
        · rw [hmodel]
          exact hmatches.2.1
        · rw [hfamily]
          exact hmatches.2.2.1
      cases husage : response.usage with
      | none => exact hreturned _ rfl rfl rfl rfl rfl husage.symm rfl
      | some usage =>
          refine stays_askNow.then (fun e => invoked_error e _) fun today => ?_
          refine (Protocol.stays_ofExcept _).then (fun e => invoked_error e _) fun cost => ?_
          exact hreturned _ rfl rfl rfl rfl rfl husage.symm rfl

/-- The loop: the runs that it adds record the calls that it makes. -/
theorem rounds_trail {D : Type} (r : DoerReview D) (rounds : ℕ)
    (previous : Option (D × DraftReview)) (modelRuns : List ModelRunTelemetry)
    (h : MayCall Shows turn s (2 * rounds)) :
    (trailProtocol Shows turn P).Follows s
      (doerReviewRounds r rounds previous modelRuns : ChatProg A (RoundsEnd D))
      (RoundsMade s modelRuns) := by
  induction rounds generalizing previous modelRuns s with
  | zero =>
      intro value hvalue
      cases hvalue
      exact ⟨[], [], s.called_nil.symm, (List.append_nil _).symm, .nil⟩
  | succ left ih =>
      unfold doerReviewRounds
      have hfirst : MayCall Shows turn s 1 := h.less (by omega)
      refine (invoke_trails _ _ _ _ hfirst).seq (fun e s' _ => roundsMade_error e s') ?_
      intro answered s₁ hdraft
      obtain ⟨answer, draftRun⟩ := answered
      obtain ⟨drafting, rfl, hdrafting⟩ := hdraft _ rfl
      refine (Protocol.stays_ofExcept _).then (fun e => roundsMade_error e _) fun draft => ?_
      have hone : MayCall Shows turn (s.called [drafting]) 1 :=
        MayCall.after [drafting] (h.less (by rw [List.length_singleton]; omega))
      refine (invoke_trails _ _ _ _ hone).seq (fun e s' _ => roundsMade_error e s') ?_
      intro judged s₂ hverdict
      obtain ⟨verdict, reviewRun⟩ := judged
      obtain ⟨reviewing, rfl, hreviewing⟩ := hverdict _ rfl
      rw [TrailStage.called_called]
      refine (Protocol.stays_ofExcept _).then (fun e => roundsMade_error e _) fun review => ?_
      have hround : List.Forall₂ Records ([drafting] ++ [reviewing]) [draftRun, reviewRun] :=
        .cons hdrafting (.cons hreviewing .nil)
      by_cases haccepted : review.supported = true ∧ review.issues = []
      · rw [if_pos haccepted]
        intro value hvalue
        cases hvalue
        exact ⟨_, _, rfl, rfl, hround⟩
      · rw [if_neg haccepted]
        have hleft : MayCall Shows turn (s.called ([drafting] ++ [reviewing])) (2 * left) :=
          MayCall.after _ (h.less (by show 2 + 2 * left ≤ _; omega))
        refine (ih (some (draft, review)) (modelRuns ++ [draftRun, reviewRun]) hleft).weaken ?_
        intro last s' hlast value hvalue
        obtain ⟨calls, runs, hs', hruns, hrecords⟩ := hlast value hvalue
        refine ⟨[drafting] ++ [reviewing] ++ calls, [draftRun, reviewRun] ++ runs, ?_, ?_, ?_⟩
        · rw [hs', TrailStage.called_called]
        · rw [hruns, List.append_assoc]
        · exact List.rel_append hround hrecords

omit [ChatLibraries] in
theorem readContexts_stays (question : String) (selected : List String) :
    (trailProtocol Shows turn P).Stays s
      (GroundedRepositoryDiscussion.readContexts question selected :
        ChatProg A (List RepositoryCodeContext)) := by
  induction selected with
  | nil => exact Protocol.stays_pure _
  | cons repository rest ih =>
      exact (stays_askReader repository question).bind fun _ => ih.bind fun _ =>
        Protocol.stays_pure _

omit [Sha256] [ChatLibraries] in
theorem business_validated {value result : BusinessAnalystResult}
    (h : value.validated = .ok result) : result = value := by
  unfold BusinessAnalystResult.validated at h
  obtain ⟨-, h⟩ := Except.seq_ok.mp h
  obtain ⟨-, h⟩ := Except.seq_ok.mp h
  obtain ⟨-, h⟩ := Except.seq_ok.mp h
  exact (Except.pure_ok.mp h).symm

theorem business_answer_trails (d : BusinessAnalystDiscussion) (workItemId question : String)
    (repository : Option String) (history : List ConversationTurn)
    (h : MayCall Shows turn s maxModelCallsPerTurn) :
    (trailProtocol Shows turn P).Follows s
      (d.answer workItemId question repository history : ChatProg A BusinessAnalystResult)
      (Called s BusinessAnalystResult.modelRuns) := by
  unfold BusinessAnalystDiscussion.answer checkQuestion
  refine Protocol.Stays.then ?_ (fun e => called_error e _) fun _ => ?_
  · exact (Protocol.stays_insist _ _).bind fun _ => Protocol.stays_insist _ _
  refine stays_askTimer.then (fun e => called_error e _) fun started => ?_
  refine (rounds_trail _ maxDoerReviewRounds none [] h).seq (fun e s' _ => called_error e s') ?_
  intro last s₁ hlast
  obtain ⟨calls, runs, rfl, hruns, hrecords⟩ := hlast last rfl
  rw [List.nil_append] at hruns
  refine stays_askTimer.then (fun e => called_error e _) fun ended => ?_
  have hbuilt : ∀ result : BusinessAnalystResult, result.modelRuns = last.modelRuns →
      (trailProtocol Shows turn P).Follows (s.called calls)
        (.ofExcept result.validated : ChatProg A BusinessAnalystResult)
        (Called s BusinessAnalystResult.modelRuns) := by
    intro result hresult
    refine Protocol.follows_ofExcept.mpr fun value hvalue => ⟨calls, rfl, ?_⟩
    rw [business_validated hvalue, hresult, hruns]
    exact hrecords
  rcases last with ⟨_ | draft, _ | ⟨draft', review⟩, modelRuns⟩
  · exact called_error _ _
  · exact stays_askUuid.then (fun e => called_error e _) fun id => hbuilt _ rfl
  · exact stays_askUuid.then (fun e => called_error e _) fun id => hbuilt _ rfl
  · exact stays_askUuid.then (fun e => called_error e _) fun id => hbuilt _ rfl

theorem grounded_answer_trails (d : GroundedRepositoryDiscussion) (repository : Option String)
    (repositories : List String) (question : String) (history : List ConversationTurn)
    (h : MayCall Shows turn s maxModelCallsPerTurn) :
    (trailProtocol Shows turn P).Follows s
      (d.answer repository repositories question history : ChatProg A GroundedDiscussionResult)
      (Called s GroundedDiscussionResult.modelRuns) := by
  unfold GroundedRepositoryDiscussion.answer checkQuestion
  refine Protocol.Stays.then ?_ (fun e => called_error e _) fun _ => ?_
  · exact (Protocol.stays_insist _ _).bind fun _ => Protocol.stays_insist _ _
  refine (Protocol.stays_ofExcept _).then (fun e => called_error e _) fun selected => ?_
  refine stays_askTimer.then (fun e => called_error e _) fun started => ?_
  refine (readContexts_stays question selected).then (fun e => called_error e _) fun contexts => ?_
  refine (Protocol.stays_insist _ _).then (fun e => called_error e _) fun _ => ?_
  refine (Protocol.stays_insist _ _).then (fun e => called_error e _) fun _ => ?_
  refine (rounds_trail _ maxDoerReviewRounds none [] h).seq (fun e s' _ => called_error e s') ?_
  intro last s₁ hlast
  obtain ⟨calls, runs, rfl, hruns, hrecords⟩ := hlast last rfl
  rw [List.nil_append] at hruns
  refine stays_askTimer.then (fun e => called_error e _) fun ended => ?_
  have hbuilt : ∀ result : GroundedDiscussionResult, result.modelRuns = last.modelRuns →
      (trailProtocol Shows turn P).Follows (s.called calls)
        (.ofExcept result.validated : ChatProg A GroundedDiscussionResult)
        (Called s GroundedDiscussionResult.modelRuns) := by
    intro result hresult
    refine Protocol.follows_ofExcept.mpr fun value hvalue => ⟨calls, rfl, ?_⟩
    rw [Grounding.validated_same hvalue, hresult, hruns]
    exact hrecords
  rcases selected.head? with _ | name
  · exact called_error _ _
  rcases contexts.head? with _ | context
  · exact called_error _ _
  rcases last with ⟨_ | draft, _ | ⟨draft', review⟩, modelRuns⟩
  · exact called_error _ _
  · exact stays_askUuid.then (fun e => called_error e _) fun id => hbuilt _ rfl
  · exact stays_askUuid.then (fun e => called_error e _) fun id => hbuilt _ rfl
  · exact stays_askUuid.then (fun e => called_error e _) fun id => hbuilt _ rfl

theorem router_answer_trails (r : GroundedRepositoryDiscussionRouter) (repository : Option String)
    (repositories : List String) (question : String) (profile : AnalysisProfile)
    (history : List ConversationTurn) (h : MayCall Shows turn s maxModelCallsPerTurn) :
    (trailProtocol Shows turn P).Follows s
      (r.answer repository repositories question profile history :
        ChatProg A GroundedDiscussionResult) (Called s GroundedDiscussionResult.modelRuns) := by
  unfold GroundedRepositoryDiscussionRouter.answer
  refine (Protocol.stays_ofExcept _).then (fun e => called_error e _) fun selected => ?_
  rcases selected with _ | ⟨only, _ | ⟨second, rest⟩⟩
  · exact grounded_answer_trails _ _ _ _ _ h
  · exact grounded_answer_trails _ _ _ _ _ h
  · exact grounded_answer_trails _ _ _ _ _ h

/-- The answer of a turn: its runs record the calls that it made. -/
theorem answerTurn_trails {settings : ChatSettings} (request : ChatRequest) (admission : Admission)
    (item : WorkflowItem) (h : MayCall Shows turn s maxModelCallsPerTurn) :
    (trailProtocol Shows turn P).Follows s
      (answerTurn settings request admission item : ChatProg A TurnAnswer)
      (Called s TurnAnswer.modelRuns) := by
  have hanswer : ∀ {α : Type} {runs : α → List ModelRunTelemetry} (wrap : α → TurnAnswer)
      {p : ChatProg A α}, (∀ a, (wrap a).modelRuns = runs a) →
      (trailProtocol Shows turn P).Follows s p (Called s runs) →
      (trailProtocol Shows turn P).Follows s (p >>= fun a => pure (wrap a))
        (Called s TurnAnswer.modelRuns) := by
    intro α runs wrap p hruns hp
    refine hp.seq (fun e s' _ => called_error e s') fun a s' ha value hvalue => ?_
    cases hvalue
    rw [hruns]
    exact ha a rfl
  unfold answerTurn
  by_cases hrole : admission.agentRole = .businessAnalyst
  · rw [if_pos hrole]
    cases settings.businessAnalyst with
    | none => exact called_error _ _
    | some analyst => exact hanswer .business (fun _ => rfl) (business_answer_trails _ _ _ _ _ h)
  · rw [if_neg hrole]
    cases admission.profile with
    | none => exact called_error _ _
    | some profile =>
        cases settings.groundedDiscussion with
        | none => exact called_error _ _
        | some discussion =>
            rcases request.selectedRepositories with _ | ⟨only, _ | ⟨second, rest⟩⟩
            · refine (Protocol.stays_insist _ _).then (fun e => called_error e _) fun _ => ?_
              exact hanswer .grounded (fun _ => rfl) (router_answer_trails _ _ _ _ _ _ h)
            · exact hanswer .grounded (fun _ => rfl) (router_answer_trails _ _ _ _ _ _ h)
            · refine (Protocol.stays_insist _ _).then (fun e => called_error e _) fun _ => ?_
              exact hanswer .grounded (fun _ => rfl) (router_answer_trails _ _ _ _ _ _ h)

end Calls

/-! ## 4. The handler -/

section Handler

variable [Sha256] [ChatLibraries] {X S : Type} {A : S → Type} {Shows : X → WorkflowEvent → Prop}
  {turn : ChatTurn} {P : Protocol S A (TrailStage X)} {s : TrailStage X}

/-- An entry of the principal's own event of an item. -/
def OwnEntry (Shows : X → WorkflowEvent → Prop) (current : Principal) (item : Identifier)
    (payload : EventPayload) (x : X) : Prop :=
  ∃ e, Shows x e ∧ e.By current item ∧ e.payload = payload

/-- A method that adds one entry, where this is permitted. -/
def Appends (Shows : X → WorkflowEvent → Prop) (turn : ChatTurn) (P : Protocol S A (TrailStage X))
    (s : TrailStage X) (item : Identifier) (payload : EventPayload)
    (p : ChatProg A WorkflowEvent) : Prop :=
  (∀ x, OwnEntry Shows turn.current item payload x → Permitted Shows turn s x) →
    (trailProtocol Shows turn P).Follows s p fun r s' => ∀ e, r = .ok e →
      ∃ x, OwnEntry Shows turn.current item payload x ∧ s' = s.keep x

/-- What the handler needs of a store. -/
structure StoreTrails (Shows : X → WorkflowEvent → Prop) (turn : ChatTurn)
    (P : Protocol S A (TrailStage X)) (store : WorkflowStore A) : Prop where
  createIntake : ∀ now message repository repositories analysisProfile,
    (trailProtocol Shows turn P).Follows .start
      (store.createIntake turn.current.tenantId turn.current.subjectId now message repository
        repositories analysisProfile)
      fun r s => ∀ item, r = .ok item → ∃ x digest,
        OwnEntry Shows turn.current item.workItemId (.intake digest) x ∧ s = TrailStage.start.keep x
  get : ∀ workItemId, (trailProtocol Shows turn P).Follows .start
    (store.get turn.current.tenantId workItemId) fun r s => ∀ found, r = .ok found → s = .start
  reserveChatTurn : ∀ s item reservation limit now, s.Settled →
    Appends Shows turn P s item (.chatTurnReserved reservation)
      (store.reserveChatTurn turn.current.tenantId item turn.current.subjectId reservation limit
        now)
  recordChatTurn : ∀ s item audit now, s.Settled →
    Appends Shows turn P s item (.chatTurnRecorded audit)
      (store.recordChatTurn turn.current.tenantId item turn.current.subjectId audit now)

/-- A turn that has made nothing but its intake, if it made one. -/
def OpenedTurn (Shows : X → WorkflowEvent → Prop) (turn : ChatTurn) (item : Identifier)
    (s : TrailStage X) : Prop :=
  s.Settled ∧ s.calls = [] ∧ ∃ opening, List.Forall₂ Shows s.kept opening ∧
    Opening turn item opening

variable {store : WorkflowStore A}

omit [ChatLibraries] in
theorem turnItem_trails (hstore : StoreTrails Shows turn P store) (admission : Admission) :
    (trailProtocol Shows turn P).Follows .start
      (turnItem store turn.current turn.request admission)
      fun r s => ∀ item, r = .ok item → OpenedTurn Shows turn item.workItemId s := by
  unfold turnItem
  cases turn.request.workItemId with
  | none =>
      refine stays_askNow.then (fun _ _ h => nomatch h) fun now => ?_
      refine (hstore.createIntake _ _ _ _ _).weaken fun r s h item hitem => ?_
      obtain ⟨x, digest, ⟨e, hshows, hby, hpayload⟩, rfl⟩ := h item hitem
      refine ⟨⟨rfl, rfl⟩, rfl, [e], .cons hshows .nil, .inr ⟨e, rfl, hby, ?_⟩⟩
      unfold WorkflowEvent.kind
      rw [hpayload]
      rfl
  | some workItemId =>
      refine (hstore.get workItemId).seq (fun _ _ _ _ h => nomatch h) fun found s h => ?_
      rw [h found rfl]
      cases found with
      | none => exact fun _ h => nomatch h
      | some item =>
          refine (Protocol.stays_insist _ _).then (fun _ _ h => nomatch h) fun _ => ?_
          intro value _
          exact ⟨⟨rfl, rfl⟩, rfl, [], .nil, .inl rfl⟩

/-- The turn with its reservation, of the role it was routed to. -/
def ReservedTurn (Shows : X → WorkflowEvent → Prop) (turn : ChatTurn) (admission : Admission)
    (item : Identifier) (s : TrailStage X) : Prop :=
  s.calls = [] ∧ ∃ r, HasReservation Shows turn item r s ∧ r.agentRole = admission.agentRole ∧
    r.analysisProfile = admission.profile ∧ r.repository = admission.repository

omit [ChatLibraries] in
theorem reserveTurn_trails (hstore : StoreTrails Shows turn P store) {settings : ChatSettings}
    (admission : Admission) (item : WorkflowItem) (h : OpenedTurn Shows turn item.workItemId s) :
    (trailProtocol Shows turn P).Follows s
      (reserveTurn settings store turn.current turn.request admission item)
      fun r s' => ∀ e, r = .ok e → ReservedTurn Shows turn admission item.workItemId s' := by
  obtain ⟨hsettled, hcalls, opening, hopening, ho⟩ := h
  unfold reserveTurn
  refine Protocol.follows_computed (fun _ _ h => nomatch h) fun reservation hreservation => ?_
  have hof : reservation.Of turn.request ∧ reservation.agentRole = admission.agentRole ∧
      reservation.analysisProfile = admission.profile ∧
        reservation.repository = admission.repository := by
    unfold ChatTurnReservation.validated at hreservation
    obtain ⟨-, hreservation⟩ := Except.seq_ok.mp hreservation
    obtain ⟨-, hreservation⟩ := Except.seq_ok.mp hreservation
    cases hreservation
    exact ⟨⟨rfl, rfl, rfl, rfl⟩, rfl, rfl, rfl⟩
  refine stays_askNow.then (fun _ _ h => nomatch h) fun now => ?_
  have hown : ∀ x, OwnEntry Shows turn.current item.workItemId (.chatTurnReserved reservation) x →
      ∃ e, Shows x e ∧ ReservedBy turn item.workItemId reservation e := by
    intro x ⟨e, hshows, hby, hpayload⟩
    exact ⟨e, hshows, hby, hpayload, hof.1⟩
  have happends := hstore.reserveChatTurn s item.workItemId reservation
    (settings.chatModelTurnLimit.map Int.ofNat) now hsettled fun x hx => by
      obtain ⟨e, hshows, he⟩ := hown x hx
      refine ⟨hsettled.2, opening ++ [e], item.workItemId, ?_, .reserved opening e _ ho he⟩
      rw [hsettled.1, List.append_nil]
      exact List.rel_append hopening (.cons hshows .nil)
  refine Protocol.follows_bind.mpr (Protocol.follows_attempt.mpr (happends.weaken ?_))
  intro r s' hr
  cases r with
  | ok event =>
      intro _ _
      obtain ⟨x, hx, rfl⟩ := hr event rfl
      obtain ⟨e, hshows, he⟩ := hown x hx
      exact ⟨hcalls, reservation, ⟨hsettled, opening, e,
        List.rel_append hopening (.cons hshows .nil), ho, he⟩, hof.2⟩
  | error failure =>
      cases failure with
      | turnLimit message => exact fun _ h => nomatch h
      | denied message => exact fun _ h => nomatch h
      | value message => exact fun _ h => nomatch h
      | assertion => exact fun _ h => nomatch h
      | http status detail => exact fun _ h => nomatch h
      | integrity => exact fun _ h => nomatch h
      | other => exact fun _ h => nomatch h

/-- All of a turn that replies. -/
def Ended (Shows : X → WorkflowEvent → Prop) (turn : ChatTurn) (item : Identifier)
    (answer : TurnAnswer) (s : TrailStage X) : Prop :=
  s.Settled ∧ ∃ events, List.Forall₂ Shows s.kept events ∧ Replied turn item s.calls events answer

omit [ChatLibraries] in
theorem recordTurn_trails (hstore : StoreTrails Shows turn P store) (admission : Admission)
    (item : WorkflowItem) (answer : TurnAnswer) {calls : List ModelCall}
    (h : ReservedTurn Shows turn admission item.workItemId s)
    (hruns : List.Forall₂ Records calls answer.modelRuns) :
    (trailProtocol Shows turn P).Follows (s.called calls)
      (recordTurn store turn.current turn.request admission item answer)
      fun r s' => ∀ e, r = .ok e → Ended Shows turn item.workItemId answer s' := by
  obtain ⟨hcalls, reservation, ⟨hsettled, opening, e, hkept, ho, he⟩, hrole, hprofile,
    hrepository⟩ := h
  have hof := he.2.2
  unfold recordTurn
  refine Protocol.follows_computed (fun _ _ h => nomatch h) fun audit haudit => ?_
  have hall : (s.called calls).calls = calls := by
    rw [TrailStage.called_calls, hcalls, List.nil_append]
  have hwhole : audit.Of reservation calls ∧ audit.responseDigest = answer.json.contentDigest ∧
      audit.status = answer.status ∧ audit.modelRuns = answer.modelRuns := by
    unfold ChatTurnAudit.validated at haudit
    obtain ⟨-, haudit⟩ := Except.seq_ok.mp haudit
    obtain ⟨-, haudit⟩ := Except.seq_ok.mp haudit
    cases haudit
    exact ⟨⟨⟨hrole.symm, hprofile.symm⟩, ⟨hrepository.symm, hof.repositories.symm⟩,
      ⟨hof.inputDigest.symm, hof.historyDigest.symm⟩, hruns⟩, rfl, rfl, rfl⟩
  refine stays_askNow.then (fun _ _ h => nomatch h) fun now => ?_
  have hown : ∀ x, OwnEntry Shows turn.current item.workItemId (.chatTurnRecorded audit) x →
      ∃ e', Shows x e' ∧ RecordedBy turn item.workItemId reservation audit calls e' := by
    intro x ⟨e', hshows, hby, hpayload⟩
    exact ⟨e', hshows, hby, hpayload, hwhole.1⟩
  refine (hstore.recordChatTurn (s.called calls) item.workItemId audit now (hsettled.called calls)
    fun x hx => ?_).weaken fun r s' hr event hevent => ?_
  · obtain ⟨e', hshows, he'⟩ := hown x hx
    refine ⟨hsettled.2, opening ++ [e] ++ [e'], item.workItemId, ?_, ?_⟩
    · show List.Forall₂ Shows (s.kept ++ s.pending ++ [x]) _
      rw [hsettled.1, List.append_nil]
      exact List.rel_append hkept (.cons hshows .nil)
    · rw [hall]
      exact .recorded opening e e' reservation audit ho he he'
  · obtain ⟨x, hx, rfl⟩ := hr event hevent
    obtain ⟨e', hshows, he'⟩ := hown x hx
    refine ⟨(hsettled.called calls).keep x, opening ++ [e] ++ [e'],
      List.rel_append hkept (.cons hshows .nil), opening, e, e', reservation, audit, rfl, ho, he,
      ?_, hwhole.2⟩
    rw [TrailStage.keep_calls, hall]
    exact he'

theorem answerAndRecord_trails (hstore : StoreTrails Shows turn P store) {settings : ChatSettings}
    (admission : Admission) (item : WorkflowItem)
    (h : ReservedTurn Shows turn admission item.workItemId s) :
    (trailProtocol Shows turn P).Follows s
      (answerAndRecord settings store turn.current turn.request admission item)
      fun r s' => ∀ answer, r = .ok answer → Ended Shows turn item.workItemId answer s' := by
  unfold answerAndRecord
  have hmay : MayCall Shows turn s maxModelCallsPerTurn := by
    obtain ⟨hcalls, r, hr, -⟩ := h
    refine ⟨⟨_, r, hr⟩, ?_⟩
    rw [hcalls]
    exact le_rfl
  refine Protocol.follows_bind.mpr (Protocol.follows_attempt.mpr (Protocol.Follows.weaken
    (Q := fun r s' => ∀ answer, r = .ok answer → Ended Shows turn item.workItemId answer s') ?_ ?_))
  · refine (answerTurn_trails turn.request admission item hmay).seq (fun _ _ _ _ h => nomatch h) ?_
    intro answer s₁ hanswer
    obtain ⟨calls, rfl, hruns⟩ := hanswer answer rfl
    refine (recordTurn_trails hstore admission item answer h hruns).seq
      (fun _ _ _ _ h => nomatch h) fun event s₂ hended value hvalue => ?_
    cases hvalue
    exact hended event rfl
  · intro r s' hr
    cases r with
    | ok answer => exact hr
    | error e => exact fun _ h => nomatch h

/-- The answer that a response gives. -/
def IntakeResponse.Gives (response : IntakeResponse) (answer : TurnAnswer) : Prop :=
  response.reply = some answer.reply ∧
    match answer with
    | .grounded result => response.analysis = some result ∧ response.businessAnalysis = none
    | .business result => response.analysis = none ∧ response.businessAnalysis = some result

/-- A reply is given only at the end of a whole trail. -/
def RepliesAt (Shows : X → WorkflowEvent → Prop) (turn : ChatTurn)
    (r : Except Failure IntakeResponse) (s : TrailStage X) : Prop :=
  ∀ response, r = .ok response → response.replied = true → ∃ answer, response.Gives answer ∧
    Ended Shows turn response.workItemId answer s

/-- The handler writes only what it may, and replies only at the end. -/
theorem chat_trails (hstore : StoreTrails Shows turn P store) :
    (trailProtocol Shows turn P).Follows .start
      (chat turn.settings store turn.current turn.request) (RepliesAt Shows turn) := by
  unfold chat
  refine (Protocol.stays_ofExcept _).then (fun _ _ h => nomatch h) fun admission => ?_
  refine (turnItem_trails hstore admission).seq (fun _ _ _ _ h => nomatch h) fun item s hs => ?_
  have hopened := hs item rfl
  by_cases hmodel : admission.modelConfigured = false
  · rw [if_pos hmodel]
    intro response hresponse hreplied
    cases hresponse
    cases hreplied
  · rw [if_neg hmodel]
    refine (reserveTurn_trails hstore admission item hopened).seq (fun _ _ _ _ h => nomatch h) ?_
    intro event s₁ hs₁
    refine (answerAndRecord_trails hstore admission item (hs₁ event rfl)).seq
      (fun _ _ _ _ h => nomatch h) fun answer s₂ hended response hresponse _ => ?_
    cases hresponse
    refine ⟨answer, ⟨rfl, ?_⟩, hended answer rfl⟩
    cases answer with
    | business result => exact ⟨rfl, rfl⟩
    | grounded result => exact ⟨rfl, rfl⟩

end Handler

/-! ## 5. Every stage -/

section Stages

variable [Sha256] {X : Type} (Shows : X → WorkflowEvent → Prop) (turn : ChatTurn)

/-- What is true of a turn at every stage. -/
structure Accountable (s : TrailStage X) : Prop where
  written : ∃ events item, List.Forall₂ Shows (s.kept ++ s.pending) events ∧
    Trail turn item s.calls events
  unheard : ∀ u ∈ s.unheard, s.pending = [] ∧ ∃ events item,
    List.Forall₂ Shows (s.kept ++ u) events ∧ Trail turn item s.calls events
  covered : s.calls ≠ [] → ∃ x ∈ s.kept, ∃ e, Shows x e ∧ e.kind = .chatTurnReserved
  bounded : s.calls.length ≤ maxModelCallsPerTurn

variable {Shows turn} {s : TrailStage X} {x : X}

omit [Sha256] in
/-- What the first half of a list shows. -/
theorem forall₂_first {xs ys : List X} {events : List WorkflowEvent}
    (h : List.Forall₂ Shows (xs ++ ys) events) :
    ∃ first later, events = first ++ later ∧ List.Forall₂ Shows xs first := by
  induction xs generalizing events with
  | nil => exact ⟨[], events, rfl, .nil⟩
  | cons x xs ih =>
      cases h with
      | cons hx h =>
          obtain ⟨first, later, rfl, hfirst⟩ := ih h
          exact ⟨_ :: first, later, rfl, .cons hx hfirst⟩

/-- The entry that shows a reservation. -/
theorem reserved_shown {item : Identifier} {r : ChatTurnReservation}
    {xs : List X} {opening : List WorkflowEvent} {e : WorkflowEvent}
    (h : List.Forall₂ Shows xs (opening ++ [e])) (he : ReservedBy turn item r e) :
    ∃ x ∈ xs, ∃ e, Shows x e ∧ e.kind = .chatTurnReserved := by
  obtain ⟨x, hx, hshows⟩ :=
    exists_of_forall₂ h (List.mem_append_right _ (List.mem_singleton_self e))
  exact ⟨x, hx, e, hshows, he.kind⟩

theorem accountable_start : Accountable Shows turn .start where
  written := ⟨[], ⟨"item", by decide⟩, .nil, .opening [] (.inl rfl)⟩
  unheard _ h := nomatch h
  covered h := absurd rfl h
  bounded := Nat.zero_le _

/-- What is kept is a trail. -/
theorem Accountable.kept (h : Accountable Shows turn s) : ∃ events item,
    List.Forall₂ Shows s.kept events ∧ Trail turn item s.calls events := by
  obtain ⟨events, item, hshows, htrail⟩ := h.written
  obtain ⟨first, later, rfl, hfirst⟩ := forall₂_first hshows
  exact ⟨first, item, hfirst, htrail.of_append⟩

/-- What a store has of an accountable turn, where an entry shows events of one kind only. -/
theorem Accountable.owned {own : List X} (h : Accountable Shows turn s)
    (hkind : ∀ x e e', Shows x e → Shows x e' → e.kind = e'.kind)
    (hown : own = s.kept ∨ ∃ u, s.unheard = some u ∧ own = s.kept ++ u) :
    ∃ events item, List.Forall₂ Shows own events ∧ Trail turn item s.calls events ∧
      (s.calls ≠ [] → ∃ e ∈ events, e.kind = .chatTurnReserved) := by
  have hcovered : ∀ events, List.Forall₂ Shows own events → s.calls ≠ [] →
      ∃ e ∈ events, e.kind = .chatTurnReserved := by
    intro events hshows hcalls
    obtain ⟨x, hx, e, he, hreserved⟩ := h.covered hcalls
    have hmem : x ∈ own := by
      rcases hown with rfl | ⟨u, -, rfl⟩
      · exact hx
      · exact List.mem_append_left u hx
    obtain ⟨e', he', hshows'⟩ := exists_of_forall₂ hshows.flip hmem
    exact ⟨e', he', (hkind x e' e hshows' he).trans hreserved⟩
  rcases hown with rfl | ⟨u, hu, rfl⟩
  · obtain ⟨events, item, hshows, htrail⟩ := h.kept
    exact ⟨events, item, hshows, htrail, hcovered events hshows⟩
  · obtain ⟨-, events, item, hshows, htrail⟩ := h.unheard u hu
    exact ⟨events, item, hshows, htrail, hcovered events hshows⟩

/-- A model call. -/
theorem accountable_called {call : ModelCall}
    (hmay : ∃ item r, HasReservation Shows turn item r s)
    (hbound : s.calls.length < maxModelCallsPerTurn) :
    Accountable Shows turn (s.called [call]) := by
  obtain ⟨item, r, ⟨hpending, hunheard⟩, opening, e, hkept, ho, he⟩ := hmay
  refine ⟨⟨opening ++ [e], item, ?_, .reserved opening e r ho he⟩, fun u hu => ?_, fun _ => ?_, ?_⟩
  · show List.Forall₂ Shows (s.kept ++ s.pending) _
    rw [hpending, List.append_nil]
    exact hkept
  · rw [show (s.called [call]).unheard = none from hunheard] at hu
    cases hu
  · exact reserved_shown hkept he
  · rw [TrailStage.length_called]
    exact hbound

/-- Another entry in the transaction that is open. -/
theorem Accountable.pend (h : Accountable Shows turn s) (hx : Permitted Shows turn s x) :
    Accountable Shows turn (s.pend x) where
  written := by
    obtain ⟨-, events, item, hshows, htrail⟩ := hx
    rw [List.append_assoc] at hshows
    exact ⟨events, item, hshows, htrail⟩
  unheard u hu := by
    rw [show (s.pend x).unheard = none from hx.1] at hu
    cases hu
  covered := h.covered
  bounded := h.bounded

/-- The transaction ends without a trace. -/
theorem Accountable.drops (h : Accountable Shows turn s) : Accountable Shows turn s.drop where
  written := by
    obtain ⟨events, item, hshows, htrail⟩ := h.kept
    exact ⟨events, item, by rwa [← List.append_nil s.kept] at hshows, htrail⟩
  unheard u hu := ⟨rfl, (h.unheard u hu).2⟩
  covered := h.covered
  bounded := h.bounded

/-- The transaction is committed. -/
theorem Accountable.commits (h : Accountable Shows turn s) (hs : s.unheard = none) :
    Accountable Shows turn s.commit where
  written := by
    obtain ⟨events, item, hshows, htrail⟩ := h.written
    exact ⟨events, item, by rwa [← List.append_nil (s.kept ++ s.pending)] at hshows, htrail⟩
  unheard u hu := by
    rw [show s.commit.unheard = none from hs] at hu
    cases hu
  covered hcalls := by
    obtain ⟨x, hx, he⟩ := h.covered hcalls
    exact ⟨x, List.mem_append_left _ hx, he⟩
  bounded := h.bounded

/-- The transaction may have been committed. -/
theorem Accountable.doubts (h : Accountable Shows turn s) : Accountable Shows turn s.doubt where
  written := h.drops.written
  unheard u hu := by
    cases hu
    exact ⟨rfl, h.written⟩
  covered := h.covered
  bounded := h.bounded

/-- One more entry, where none waits. -/
theorem Accountable.keeps (h : Accountable Shows turn s) (hs : s.pending = [])
    (hx : Permitted Shows turn s x) : Accountable Shows turn (s.keep x) := by
  rw [← TrailStage.Settled.commit_pend ⟨hs, hx.1⟩]
  exact (h.pend hx).commits hx.1

end Stages

/-! ## 6. Every run -/

section Runs

variable [Sha256] [ChatLibraries] {ι W X S : Type} {A : S → Type} [DecidableEq ι]

/-- The model calls of a turn in a run. -/
def callsOf (i : ι) (run : List (Deed ι (ChatAsk S) (ChatAsk.Answer A))) : List ModelCall :=
  run.filterMap fun
    | .asked j (.complete seat request) answer =>
        if j = i then some ⟨seat, request, answer⟩ else none
    | _ => none

/-- At every place of every run, what a store has of a turn is a trail; the turn has called a model
only on a reservation that is kept, and at most six times; and where it has replied, its trail is
whole. -/
def TurnTrails (T : Surroundings ι S A W) (store : WorkflowStore A) (turns : ι → ChatTurn)
    (own : W → ι → List X) (Shows : X → WorkflowEvent → Prop) : Prop :=
  ∀ run s, (chatting T store turns).Trace run s → ∀ i, ∃ events item,
    List.Forall₂ Shows (own s.1 i) events ∧ Trail (turns i) item (callsOf i run) events ∧
    (callsOf i run ≠ [] → ∃ e ∈ events, e.kind = .chatTurnReserved) ∧
    (callsOf i run).length ≤ maxModelCallsPerTurn ∧
    ∀ response, s.2 i = .ret response → response.replied = true → ∃ answer,
      response.Gives answer ∧
        Replied (turns i) response.workItemId (callsOf i run) events answer

variable {T : Surroundings ι S A W} {store : WorkflowStore A} {turns : ι → ChatTurn}
  {own : W → ι → List X} {Shows : X → WorkflowEvent → Prop} {P : ι → Protocol S A (TrailStage X)}
  {J : W → ι → TrailStage X → Prop}

omit [Sha256] [ChatLibraries] in
theorem callsOf_append (i : ι) (run deeds : List (Deed ι (ChatAsk S) (ChatAsk.Answer A))) :
    callsOf i (run ++ deeds) = callsOf i run ++ callsOf i deeds := List.filterMap_append

/-- The turns over a store leave trails, where each of its requests keeps them accountable and the
store has what their stages say. -/
theorem trails_of_store (hstore : ∀ i, StoreTrails Shows (turns i) (P i) store)
    (hkeeps : ∀ i s request answer, Accountable Shows (turns i) s → (P i).allows s request →
      Accountable Shows (turns i) ((P i).next s request answer) ∧
        ((P i).next s request answer).calls = s.calls)
    (hstart : ∀ w, T.start w → ∀ i, J w i .start)
    (hcalled : ∀ w i s calls, J w i s → J w i (s.called calls))
    (hask : ∀ w stage i request answer w', (∀ j, J w j (stage j)) →
      (P i).allows (stage i) request → T.answers w i request answer w' →
      ∀ j, J w' j (Function.update stage i ((P i).next (stage i) request answer) j))
    (hchange : ∀ w (stage : ι → TrailStage X) w', (∀ j, J w j (stage j)) → T.changes w w' →
      ∀ j, J w' j (stage j))
    (hown : ∀ w i s, J w i s → own w i = s.kept ∨
      ∃ u, s.unheard = some u ∧ own w i = s.kept ++ u)
    (hkind : ∀ x e e', Shows x e → Shows x e' → e.kind = e'.kind) :
    TurnTrails T store turns own Shows := by
  intro run s h i
  have horderly : Surroundings.OrderlyTo (fun i => trailProtocol Shows (turns i) (P i))
      (fun i => RepliesAt Shows (turns i))
      (fun run w (stage : ι → TrailStage X) => (∀ i, J w i (stage i)) ∧
        (∀ i, Accountable Shows (turns i) (stage i)) ∧ ∀ i, (stage i).calls = callsOf i run)
      run s := by
    refine Surroundings.crew_invariant_to .start (fun i => chat_trails (hstore i)) ?_ ?_ ?_ h
    · intro w hw
      exact ⟨hstart w hw, fun i => accountable_start, fun i => rfl⟩
    · intro run w stage i request answer w' ⟨hJ, haccount, hcalls⟩ hallows hanswers
      -- a step that leaves the store, its stage and the calls
      have hstay : ∀ deed : Deed ι (ChatAsk S) (ChatAsk.Answer A), (∀ j, callsOf j [deed] = []) →
          (∀ j, J w j (Function.update stage i (stage i) j)) ∧
            (∀ j, Accountable Shows (turns j) (Function.update stage i (stage i) j)) ∧
            ∀ j, (Function.update stage i (stage i) j).calls = callsOf j (run ++ [deed]) := by
        intro deed hdeed
        rw [Function.update_eq_self]
        refine ⟨hJ, haccount, fun j => ?_⟩
        rw [callsOf_append, hdeed j, List.append_nil]
        exact hcalls j
      cases request with
      | store request =>
          obtain ⟨haccount', hsame⟩ := hkeeps i (stage i) request answer (haccount i) hallows
          refine ⟨hask w stage i request answer w' hJ hallows hanswers, fun j => ?_, fun j => ?_⟩
          · by_cases hji : j = i
            · rw [hji, Function.update_self]
              exact haccount'
            · rw [Function.update_of_ne hji]
              exact haccount j
          · rw [callsOf_append, show callsOf j [Deed.asked i (ChatAsk.store request) answer] = []
              from rfl, List.append_nil]
            by_cases hji : j = i
            · rw [hji, Function.update_self]
              exact hsame.trans (hcalls i)
            · rw [Function.update_of_ne hji]
              exact hcalls j
      | complete seat request =>
          obtain rfl : w' = w := hanswers
          refine ⟨fun j => ?_, fun j => ?_, fun j => ?_⟩
          · by_cases hji : j = i
            · rw [hji, Function.update_self]
              exact hcalled _ _ _ _ (hJ i)
            · rw [Function.update_of_ne hji]
              exact hJ j
          · by_cases hji : j = i
            · rw [hji, Function.update_self]
              exact accountable_called hallows.1 hallows.2
            · rw [Function.update_of_ne hji]
              exact haccount j
          · rw [callsOf_append]
            by_cases hji : j = i
            · rw [hji, Function.update_self]
              have hone : callsOf i [Deed.asked i (ChatAsk.complete seat request) answer] =
                  [⟨seat, request, answer⟩] := by simp [callsOf]
              rw [hone, ← hcalls i]
              rfl
            · have hnone :
                  callsOf j [Deed.asked i (ChatAsk.complete seat request) answer] = [] := by
                simp [callsOf, Ne.symm hji]
              rw [hnone, List.append_nil, Function.update_of_ne hji]
              exact hcalls j
      | readCodebaseContext repository question =>
          obtain rfl : w' = w := hanswers
          exact hstay _ fun _ => rfl
      | now =>
          obtain rfl : w' = w := hanswers
          exact hstay _ fun _ => rfl
      | timer =>
          obtain rfl : w' = w := hanswers
          exact hstay _ fun _ => rfl
      | uuid =>
          obtain rfl : w' = w := hanswers
          exact hstay _ fun _ => rfl
    · intro run w stage w' ⟨hJ, haccount, hcalls⟩ hchanges
      refine ⟨hchange w stage w' hJ hchanges, haccount, fun j => ?_⟩
      rw [callsOf_append, show callsOf j [Deed.changed] = [] from rfl, List.append_nil]
      exact hcalls j
  obtain ⟨stage, ⟨hJ, haccount, hcalls⟩, hfollows⟩ := horderly
  obtain ⟨events, item, hshows, htrail, hcovered⟩ :=
    (haccount i).owned hkind (hown s.1 i (stage i) (hJ i))
  rw [hcalls i] at htrail hcovered
  have hbounded := (haccount i).bounded
  rw [hcalls i] at hbounded
  by_cases hreplied : ∃ response, s.2 i = .ret response ∧ response.replied = true
  · obtain ⟨response, hresponse, hreplied⟩ := hreplied
    have hends : RepliesAt Shows (turns i) (.ok response) (stage i) := by
      have hfollowsi := hfollows i
      rw [hresponse] at hfollowsi
      exact hfollowsi
    obtain ⟨answer, hgives, ⟨hpending, hunheard⟩, whole, hwhole, hanswer⟩ := hends response rfl
      hreplied
    rw [hcalls i] at hanswer
    have hkept : own s.1 i = (stage i).kept := by
      refine (hown s.1 i (stage i) (hJ i)).resolve_right fun ⟨u, hu, _⟩ => ?_
      rw [hunheard] at hu
      cases hu
    refine ⟨whole, response.workItemId, hkept ▸ hwhole, Replied.trail hanswer,
      fun _ => Replied.covered hanswer, hbounded, fun other hother _ => ?_⟩
    obtain rfl : response = other := Prog.ret.inj (hresponse.symm.trans hother)
    exact ⟨answer, hgives, hanswer⟩
  · exact ⟨events, item, hshows, htrail, hcovered, hbounded, fun response hresponse hreply =>
      absurd ⟨response, hresponse, hreply⟩ hreplied⟩

end Runs

end NokincFactory
