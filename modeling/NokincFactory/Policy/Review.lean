/-
  File:      NokincFactory/Policy/Review.lean
  Subject:   `review.py`: the public operations of the review protocol,
             start, reserve, complete and evaluate.

  Every operation first replays the attempt ledger of the session it is given and
  refuses one whose recorded state differs from the replay (`validateSession`).
-/
import NokincFactory.Policy.ReviewReducer

namespace NokincFactory

variable [Sha256] [Pydantic]

/-- One round of the replay loop of `validate_session`. -/
def replayAttempt (seed : ReviewSeed) (state : ReviewState) (attempt : ReviewAttempt) :
    Except PyError ReviewState := do
  let state ← reserve seed state attempt.invocation
  match attempt.completion with
  | none => pure state
  | some completion => raising (complete seed state completion)

/-- The state an attempt ledger replays to. -/
def replay (seed : ReviewSeed) (attempts : List ReviewAttempt) : Except PyError ReviewState := do
  let initial ← raising (initialState seed)
  attempts.foldlM (replayAttempt seed) initial

/-- `review.validate_session`. -/
def validateSession (session : ReviewSession) : Except PyError ReviewSession := do
  let expected ← replay session.seed session.attempts
  raising (guardThat (expected = session.state)
    (.message "Review state disagrees with the actual attempt ledger"))
  pure session

/-- `review.start_session`. -/
def startSession (scope : ReviewScope) (contract : QualityContract) (policy : ReviewPolicy)
    (originalDoer : ModelIdentity) (reviewers : List ModelIdentity) (artifact : ArtifactRef)
    (now : Datetime) : Except PyError ReviewSession := do
  let startedAt ← raising (utc now)
  let seed : ReviewSeed :=
    { scope, contract, policy, originalDoer, reviewers, initialArtifact := artifact, startedAt }
  let state ← raising (initialState seed)
  pure { seed, attempts := [], state }

/-- `review.reserve_invocation`. -/
def reserveInvocation (session : ReviewSession) (invocationId : Identifier)
    (kind : InvocationKind) (actor : ModelIdentity) (reservation : Reservation)
    (now : Datetime) : Except PyError ReviewSession := do
  let session ← validateSession session
  let startedAt ← raising (utc now)
  let invocation : Invocation :=
    { invocationId, kind, actor, binding := session.state.artifact.binding, reservation,
      startedAt }
  let state ← reserve session.seed session.state invocation
  pure { seed := session.seed, state, attempts := session.attempts ++ [⟨invocation, none⟩] }

/-- What an executor hands back: a report object, or text. -/
inductive Output where
  | review (report : ReviewReport)
  | repair (report : RepairReport)
  | str (text : String)

/-- The text a delivery is recorded as. -/
def Output.json : Output → String
  | .review report => Pydantic.reviewReportJson report
  | .repair report => Pydantic.repairReportJson report
  | .str text => text

/-- `review.complete_invocation`. -/
def completeInvocation (session : ReviewSession) (invocationId : Identifier)
    (receipt : Option InvocationReceipt) (output : Option Output) (now : Datetime)
    (failureReason : Option ExecutionStop) : Except PyError ReviewSession := do
  let session ← validateSession session
  let finishedAt ← raising (utc now)
  let outputJson := output.map Output.json
  match session.attempts.find? (fun a => a.invocation.invocationId = invocationId) with
  | none => .error (.value (.message "Completion has no reserved invocation"))
  | some previous =>
      match previous.completion with
      | some delivered => do
          raising (guardThat (delivered.receipt = receipt ∧ delivered.outputJson = outputJson ∧
            delivered.failureReason = failureReason)
            (.message "Conflicting duplicate review delivery"))
          pure session
      | none => do
          let completion : Completion :=
            { invocationId, receipt, outputJson, finishedAt, failureReason }
          let state ← raising (complete session.seed session.state completion)
          pure { seed := session.seed, state,
                 attempts := session.attempts.dropLast ++
                   [⟨previous.invocation, some completion⟩] }

/-- The reasons `evaluate` finds, before duplicates are dropped. -/
def decisionReasons (session : ReviewSession) (currentArtifact : ArtifactRef) (now : Moment) :
    List ReviewReason :=
  eligibilityReasons session.seed session.state ++
    (if currentArtifact ≠ session.state.artifact then [ReviewReason.artifactDrift] else []) ++
    (if withinWindow session.seed session.state now then [] else [ReviewReason.timeWindow])

/-- The status `evaluate` answers for its reasons. -/
def decisionStatus (session : ReviewSession) (reasons : List ReviewReason) : DecisionStatus :=
  if reasons = [] then .eligible
  else if ∃ r ∈ [ReviewReason.critical, .contractGap, .reviewEscalated, .repeatedFailure],
      r ∈ reasons then .escalate
  else if session.state.terminalReasons ≠ [] ∨
      ∃ r ∈ [ReviewReason.artifactDrift, .timeWindow], r ∈ reasons then .blocked
  else if needsRepair session.state ∧
      session.state.budget.repairs < session.seed.policy.maxImplementationRepairs then .needsRepair
  else .needsReview

/-- `review.evaluate`. -/
def evaluate (session : ReviewSession) (currentArtifact : ArtifactRef) (now : Datetime) :
    Except PyError ReviewDecision := do
  let session ← validateSession session
  let now ← raising (utc now)
  let reasons := decisionReasons session currentArtifact now
  pure { status := decisionStatus session reasons, reasons := reasons.eraseDups,
         sessionDigest := contentDigest session,
         artifactDigest := contentDigest session.state.artifact,
         completedReviews := session.state.validCompletedReports.length }

/-! ## What each operation returned from -/

theorem validateSession_ok {session session' : ReviewSession} :
    validateSession session = .ok session' ↔
      replay session.seed session.attempts = .ok session.state ∧ session = session' := by
  unfold validateSession
  rw [Except.bind_ok]
  constructor
  · rintro ⟨expected, he, h⟩
    obtain ⟨hg, hp⟩ := Except.seq_ok.mp h
    obtain rfl := guardThat_ok.mp (raising_ok.mp hg)
    exact ⟨he, Except.pure_ok.mp hp⟩
  · rintro ⟨he, rfl⟩
    exact ⟨_, he, Except.seq_ok.mpr ⟨raising_ok.mpr (guardThat_ok.mpr rfl), rfl⟩⟩

omit [Pydantic] in
theorem startSession_ok {scope : ReviewScope} {contract : QualityContract} {policy : ReviewPolicy}
    {doer : ModelIdentity} {reviewers : List ModelIdentity} {artifact : ArtifactRef}
    {now : Datetime} {session : ReviewSession}
    (h : startSession scope contract policy doer reviewers artifact now = .ok session) :
    ValidSeed session.seed ∧ session.attempts = [] ∧ session.state = freshState session.seed := by
  unfold startSession at h
  obtain ⟨startedAt, -, h⟩ := Except.bind_ok.mp h
  obtain ⟨state, hs, h⟩ := Except.bind_ok.mp h
  obtain rfl := Except.pure_ok.mp h
  obtain ⟨hv, rfl⟩ := initialState_ok.mp (raising_ok.mp hs)
  exact ⟨hv, rfl, rfl⟩

/-- The invocation `reserve_invocation` asks for. -/
def requested (session : ReviewSession) (invocationId : Identifier) (kind : InvocationKind)
    (actor : ModelIdentity) (reservation : Reservation) (startedAt : Moment) : Invocation where
  invocationId := invocationId
  kind := kind
  binding := session.state.artifact.binding
  actor := actor
  reservation := reservation
  startedAt := startedAt

theorem reserveInvocation_ok {session session' : ReviewSession} {invocationId : Identifier}
    {kind : InvocationKind} {actor : ModelIdentity} {reservation : Reservation} {now : Datetime} :
    reserveInvocation session invocationId kind actor reservation now = .ok session' ↔
      validateSession session = .ok session ∧ ∃ startedAt state, utc now = .ok startedAt ∧
        reserve session.seed session.state
          (requested session invocationId kind actor reservation startedAt) = .ok state ∧
        session' = ⟨session.seed, session.attempts ++
          [⟨requested session invocationId kind actor reservation startedAt, none⟩], state⟩ := by
  unfold reserveInvocation
  rw [Except.bind_ok]
  constructor
  · rintro ⟨s, hv, h⟩
    obtain ⟨hr, rfl⟩ := validateSession_ok.mp hv
    obtain ⟨startedAt, hu, h⟩ := Except.bind_ok.mp h
    obtain ⟨state, hs, h⟩ := Except.bind_ok.mp h
    exact ⟨hv, startedAt, state, raising_ok.mp hu, hs, (Except.pure_ok.mp h).symm⟩
  · rintro ⟨hv, startedAt, state, hu, hs, rfl⟩
    exact ⟨session, hv, Except.bind_ok.mpr ⟨startedAt, raising_ok.mpr hu,
      Except.bind_ok.mpr ⟨state, hs, rfl⟩⟩⟩

/-- The completion `complete_invocation` records. -/
def delivered (invocationId : Identifier) (receipt : Option InvocationReceipt)
    (output : Option Output) (finishedAt : Moment) (failureReason : Option ExecutionStop) :
    Completion where
  invocationId := invocationId
  finishedAt := finishedAt
  receipt := receipt
  outputJson := output.map Output.json
  failureReason := failureReason

/-- A completion returned: a delivery repeated word for word, or the completion of an
    attempt that had none. -/
theorem completeInvocation_ok {session session' : ReviewSession} {invocationId : Identifier}
    {receipt : Option InvocationReceipt} {output : Option Output} {now : Datetime}
    {failureReason : Option ExecutionStop} :
    completeInvocation session invocationId receipt output now failureReason = .ok session' ↔
      validateSession session = .ok session ∧ ∃ finishedAt previous, utc now = .ok finishedAt ∧
        session.attempts.find? (fun a => a.invocation.invocationId = invocationId) =
          some previous ∧
        ((∃ done, previous.completion = some done ∧ done.receipt = receipt ∧
            done.outputJson = output.map Output.json ∧ done.failureReason = failureReason ∧
            session' = session) ∨
          (previous.completion = none ∧ ∃ state, complete session.seed session.state
              (delivered invocationId receipt output finishedAt failureReason) = .ok state ∧
            session' = ⟨session.seed, session.attempts.dropLast ++
              [⟨previous.invocation, some (delivered invocationId receipt output finishedAt
                failureReason)⟩], state⟩)) := by
  unfold completeInvocation
  rw [Except.bind_ok]
  constructor
  · rintro ⟨s, hv, h⟩
    obtain ⟨hr, rfl⟩ := validateSession_ok.mp hv
    obtain ⟨finishedAt, hu, h⟩ := Except.bind_ok.mp h
    cases hf : session.attempts.find? (fun a => a.invocation.invocationId = invocationId) with
    | none => simp [hf] at h
    | some previous =>
        simp only [hf] at h
        refine ⟨hv, finishedAt, previous, raising_ok.mp hu, rfl, ?_⟩
        cases hc : previous.completion with
        | some done =>
            simp only [hc] at h
            obtain ⟨hg, hp⟩ := Except.seq_ok.mp h
            obtain ⟨h1, h2, h3⟩ := guardThat_ok.mp (raising_ok.mp hg)
            exact Or.inl ⟨done, rfl, h1, h2, h3, (Except.pure_ok.mp hp).symm⟩
        | none =>
            simp only [hc] at h
            obtain ⟨state, hs, h⟩ := Except.bind_ok.mp h
            exact Or.inr ⟨rfl, state, raising_ok.mp hs, (Except.pure_ok.mp h).symm⟩
  · rintro ⟨hv, finishedAt, previous, hu, hf, h⟩
    refine ⟨session, hv, Except.bind_ok.mpr ⟨finishedAt, raising_ok.mpr hu, ?_⟩⟩
    simp only [hf]
    rcases h with ⟨done, hc, h1, h2, h3, rfl⟩ | ⟨hc, state, hs, rfl⟩
    · simp only [hc]
      exact Except.seq_ok.mpr ⟨raising_ok.mpr (guardThat_ok.mpr ⟨h1, h2, h3⟩), rfl⟩
    · simp only [hc]
      exact Except.bind_ok.mpr ⟨state, raising_ok.mpr hs, rfl⟩

omit [Pydantic] in
theorem decisionStatus_eligible {session : ReviewSession} {reasons : List ReviewReason} :
    decisionStatus session reasons = .eligible ↔ reasons = [] := by
  unfold decisionStatus
  constructor
  · intro h
    by_contra hne
    rw [if_neg hne] at h
    split at h
    · cases h
    · split at h
      · cases h
      · split at h
        · cases h
        · cases h
  · intro h
    rw [if_pos h]

theorem evaluate_ok {session : ReviewSession} {currentArtifact : ArtifactRef} {now : Datetime}
    {decision : ReviewDecision} :
    evaluate session currentArtifact now = .ok decision ↔
      validateSession session = .ok session ∧ ∃ at', utc now = .ok at' ∧
        decision =
          { status := decisionStatus session (decisionReasons session currentArtifact at'),
            reasons := (decisionReasons session currentArtifact at').eraseDups,
            sessionDigest := contentDigest session,
            artifactDigest := contentDigest session.state.artifact,
            completedReviews := session.state.validCompletedReports.length } := by
  unfold evaluate
  rw [Except.bind_ok]
  constructor
  · rintro ⟨s, hv, h⟩
    obtain ⟨hr, rfl⟩ := validateSession_ok.mp hv
    obtain ⟨at', hu, h⟩ := Except.bind_ok.mp h
    exact ⟨hv, at', raising_ok.mp hu, (Except.pure_ok.mp h).symm⟩
  · rintro ⟨hv, at', hu, rfl⟩
    exact ⟨session, hv, Except.bind_ok.mpr ⟨at', raising_ok.mpr hu, rfl⟩⟩

end NokincFactory
