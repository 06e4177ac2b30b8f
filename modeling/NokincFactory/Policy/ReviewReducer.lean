/-
  File:      NokincFactory/Policy/ReviewReducer.lean
  Subject:   `review_reducer.py`: the two steps of a session, reserving an invocation and
             completing it, as functions of the materialised state.

  * `Reservable`, `reserve_ok`: everything a reservation checks, and what it writes;
  * `charge`, `account`: what a completion spends;
  * `Outcome`, `complete_ok`: everything a completion can do. A runtime stop, a fault of
    the receipt or the clock, a refused delivery, a bound report without credit, a
    credited report, an installed repair: no other.
-/
import NokincFactory.Policy.ReviewFindings

namespace NokincFactory

variable [Sha256]

/-- Raise out of the policy what it raised as a `ValueError`. -/
def raising {α : Type} (x : Except ValueError α) : Except PyError α :=
  Except.liftWith PyError.value x

omit [Sha256] in
@[simp] theorem raising_ok {α : Type} {x : Except ValueError α} {a : α} :
    raising x = .ok a ↔ x = .ok a := Except.liftWith_ok

/-! ## 1. Start and reservation -/

/-- The state a session starts in. -/
def freshState (seed : ReviewSeed) : ReviewState where
  artifact := seed.initialArtifact
  lastAt := seed.startedAt
  budget := {}

/-- `review_reducer.initial_state`. -/
def initialState (seed : ReviewSeed) : Except ValueError ReviewState := do
  validateSeed seed
  pure (freshState seed)

theorem initialState_ok {seed : ReviewSeed} {state : ReviewState} :
    initialState seed = .ok state ↔ ValidSeed seed ∧ freshState seed = state := by
  unfold initialState
  rw [Except.seq_ok, validateSeed_ok, Except.pure_ok]

/-- `limits.max_elapsed_seconds - elapsed`: the limit becomes a double before it is
    subtracted from, and the conversion overflows for a limit beyond the doubles. -/
def secondsLeft (seed : ReviewSeed) (startedAt : Moment) : Except PyError ℚ :=
  match Binary64.ofInt? seed.policy.maxElapsedSeconds with
  | some limit => .ok (Binary64.round (limit - totalSeconds startedAt seed.startedAt))
  | none => .error (.overflow "int too large to convert to float")

/-- The checks of `reserve` that depend on the kind of the invocation. -/
def reserveKind (seed : ReviewSeed) (state : ReviewState) (invocation : Invocation) :
    Except ValueError Unit :=
  match invocation.kind with
  | .repair => do
      require (invocation.actor = seed.originalDoer) .identityUnavailable
      require (needsRepair state) .invalidRepair
      require (state.budget.repairs < seed.policy.maxImplementationRepairs) .repairLimit
  | .review => do
      require (state.validCompletedReports.length < seed.policy.maxReviewPasses) .reviewLimit
      require (invocation.actor ∈ seed.reviewers) .identityUnavailable
      independent seed state.artifact invocation.actor

/-- The state with an invocation reserved. -/
def reserved (state : ReviewState) (invocation : Invocation) : ReviewState :=
  { state with
    budget := { state.budget with
      invocations := state.budget.invocations + 1
      repairs := state.budget.repairs + (if invocation.kind = .repair then 1 else 0)
      tokensReserved := invocation.reservation.tokens
      costMicrousdReserved := invocation.reservation.costMicrousd }
    pending := some invocation
    lastAt := invocation.startedAt
    invocationIds := state.invocationIds ++ [invocation.invocationId] }

/-- `review_reducer.reserve`. -/
def reserve (seed : ReviewSeed) (state : ReviewState) (invocation : Invocation) :
    Except PyError ReviewState := do
  let limits := seed.policy
  let budget := state.budget
  let held := invocation.reservation
  raising do
    require (state.terminalReasons = [] ∧ eligibilityReasons seed state ≠ []) .reviewLimit
    require (state.pending = none) .pending
    require (invocation.invocationId ∉ state.invocationIds) .replay
    require (invocation.binding = state.artifact.binding) .bindingMismatch
    require (withinWindow seed state invocation.startedAt) .timeWindow
  let left ← secondsLeft seed invocation.startedAt
  raising do
    require ((held.seconds : ℚ) ≤ left) .timeWindow
    require (budget.invocations < limits.maxInvocations) .invocationLimit
    require (budget.tokensSpent + held.tokens ≤ limits.maxTokens) .tokenLimit
    require (budget.costMicrousdSpent + held.costMicrousd ≤ limits.maxCostMicrousd) .costLimit
    reserveKind seed state invocation
  pure (reserved state invocation)

/-- Everything a reservation checks. -/
structure Reservable (seed : ReviewSeed) (state : ReviewState) (invocation : Invocation) :
    Prop where
  running : state.terminalReasons = []
  unfinished : eligibilityReasons seed state ≠ []
  idle : state.pending = none
  fresh : invocation.invocationId ∉ state.invocationIds
  binding : invocation.binding = state.artifact.binding
  window : withinWindow seed state invocation.startedAt
  seconds : ∃ left, secondsLeft seed invocation.startedAt = .ok left ∧
    (invocation.reservation.seconds : ℚ) ≤ left
  invocations : state.budget.invocations < seed.policy.maxInvocations
  tokens : state.budget.tokensSpent + invocation.reservation.tokens ≤ seed.policy.maxTokens
  cost : state.budget.costMicrousdSpent + invocation.reservation.costMicrousd ≤
    seed.policy.maxCostMicrousd
  kind : reserveKind seed state invocation = .ok ()

theorem reserve_ok {seed : ReviewSeed} {state state' : ReviewState} {invocation : Invocation} :
    reserve seed state invocation = .ok state' ↔
      Reservable seed state invocation ∧ reserved state invocation = state' := by
  unfold reserve
  rw [Except.seq_ok, Except.bind_ok]
  simp only [Except.seq_ok, raising_ok, require_ok, Except.pure_ok]
  constructor
  · rintro ⟨⟨⟨h1, h2⟩, h3, h4, h5, h6⟩, left, h7, ⟨h8, h9, h10, h11, h12⟩, h13⟩
    exact ⟨⟨h1, h2, h3, h4, h5, h6, ⟨left, h7, h8⟩, h9, h10, h11, h12⟩, h13⟩
  · rintro ⟨⟨h1, h2, h3, h4, h5, h6, ⟨left, h7, h8⟩, h9, h10, h11, h12⟩, h13⟩
    exact ⟨⟨⟨h1, h2⟩, h3, h4, h5, h6⟩, left, h7, ⟨h8, h9, h10, h11, h12⟩, h13⟩

/-- What the kind-dependent checks of a reservation establish. -/
theorem reserveKind_review {seed : ReviewSeed} {state : ReviewState} {invocation : Invocation}
    (hk : invocation.kind = .review) :
    reserveKind seed state invocation = .ok () ↔
      state.validCompletedReports.length < seed.policy.maxReviewPasses ∧
        invocation.actor ∈ seed.reviewers ∧
        independent seed state.artifact invocation.actor = .ok () := by
  unfold reserveKind
  rw [hk]
  simp only [Except.seq_ok, require_ok]

theorem reserveKind_repair {seed : ReviewSeed} {state : ReviewState} {invocation : Invocation}
    (hk : invocation.kind = .repair) :
    reserveKind seed state invocation = .ok () ↔
      invocation.actor = seed.originalDoer ∧ needsRepair state ∧
        state.budget.repairs < seed.policy.maxImplementationRepairs := by
  unfold reserveKind
  rw [hk]
  simp only [Except.seq_ok, require_ok]

/-! ## 2. Accounting for a completion -/

/-- The key a receipt is deduplicated by: `content_digest((provider, execution_id))`. -/
def executionKey (proof : InvocationReceipt) : Digest :=
  (Json.arr [proof.actualModel.provider.json, proof.executionId.json]).contentDigest

/-- The first thing wrong with a receipt. -/
def receiptFault (executionIds : List Digest) (invocation : Invocation) :
    Option InvocationReceipt → Option ReviewReason
  | none => some .receiptUnavailable
  | some proof =>
      if proof.invocationId ≠ invocation.invocationId ∨ proof.binding ≠ invocation.binding ∨
          proof.actualModel ≠ invocation.actor then some .receiptMismatch
      else if proof.cached = true ∨ executionKey proof ∈ executionIds then some .replay
      else none

/-- What a completion spends: the reported usage, and at least the hold where the receipt
    is missing or cannot be trusted. -/
def charge (executionIds : List Digest) (invocation : Invocation)
    (receipt : Option InvocationReceipt) : Usage :=
  let held := invocation.reservation
  let tokens := (receipt.map (·.usage.tokens)).getD held.tokens
  let cost := (receipt.map (·.usage.costMicrousd)).getD held.costMicrousd
  if receiptFault executionIds invocation receipt ≠ none then
    ⟨max tokens held.tokens, max cost held.costMicrousd⟩
  else ⟨tokens, cost⟩

/-- The execution keys after a receipt has been seen. -/
def recordExecution (executionIds : List Digest) (receipt : Option InvocationReceipt) :
    List Digest :=
  match receipt with
  | some proof =>
      if executionKey proof ∈ executionIds then executionIds
      else executionIds ++ [executionKey proof]
  | none => executionIds

/-- `review_reducer._account`. -/
def account (state : ReviewState) (invocation : Invocation) (completion : Completion) :
    ReviewState × Option ReviewReason :=
  let held := invocation.reservation
  let spent := charge state.executionIds invocation completion.receipt
  let reason :=
    if spent.tokens > held.tokens ∨ spent.costMicrousd > held.costMicrousd then
      some .budgetOverrun
    else receiptFault state.executionIds invocation completion.receipt
  ({ state with
      budget := { state.budget with
        tokensSpent := state.budget.tokensSpent + spent.tokens
        costMicrousdSpent := state.budget.costMicrousdSpent + spent.costMicrousd
        tokensReserved := 0
        costMicrousdReserved := 0 }
      pending := none
      executionIds := recordExecution state.executionIds completion.receipt
      lastAt := max state.lastAt completion.finishedAt }, reason)

@[simp] theorem account_validCompletedReports (state : ReviewState) (invocation : Invocation)
    (completion : Completion) :
    (account state invocation completion).1.validCompletedReports =
      state.validCompletedReports := rfl

@[simp] theorem account_findings (state : ReviewState) (invocation : Invocation)
    (completion : Completion) :
    (account state invocation completion).1.findings = state.findings := rfl

/-- The reasons that end a session at their first occurrence. -/
def endsSession (reason : ReviewReason) : Bool :=
  [ReviewReason.timeWindow, .receiptMismatch, .replay, .budgetOverrun, .noProgress, .contractGap,
    .artifactDrift, .authorizationRevoked, .executionInvalid, .outputLimit].contains reason

/-- How often a reason has failed, this time included. -/
def failureCount (state : ReviewState) (reason : ReviewReason) : Nat :=
  ((AList.lookup reason (Dict.ofValues FailureCount.reason state.failures)).map
    (·.occurrences)).getD 0 + 1

/-- `review_reducer._failure`. -/
def failure (seed : ReviewSeed) (state : ReviewState) (reason : ReviewReason) : ReviewState :=
  let counts := AList.insert reason ⟨reason, failureCount state reason⟩
    (Dict.ofValues FailureCount.reason state.failures)
  let terminal := state.terminalReasons ++
    (if endsSession reason then [reason] else []) ++
    (if seed.policy.sameUnresolvedFailureLimit ≤ failureCount state reason then
      [ReviewReason.repeatedFailure] else [])
  { state with failures := Dict.sortedValues counts, terminalReasons := terminal.eraseDups }

omit [Sha256] in
@[simp] theorem failure_artifact (seed : ReviewSeed) (state : ReviewState) (reason : ReviewReason) :
    (failure seed state reason).artifact = state.artifact := rfl

omit [Sha256] in
@[simp] theorem failure_validCompletedReports (seed : ReviewSeed) (state : ReviewState)
    (reason : ReviewReason) :
    (failure seed state reason).validCompletedReports = state.validCompletedReports := rfl

omit [Sha256] in
@[simp] theorem failure_findings (seed : ReviewSeed) (state : ReviewState) (reason : ReviewReason) :
    (failure seed state reason).findings = state.findings := rfl

omit [Sha256] in
@[simp] theorem failure_resolutions (seed : ReviewSeed) (state : ReviewState)
    (reason : ReviewReason) : (failure seed state reason).resolutions = state.resolutions := rfl

omit [Sha256] in
theorem mem_failure_terminal {seed : ReviewSeed} {state : ReviewState} {reason r : ReviewReason} :
    r ∈ (failure seed state reason).terminalReasons ↔
      r ∈ state.terminalReasons ∨ (r = reason ∧ endsSession reason = true) ∨
        (r = .repeatedFailure ∧
          seed.policy.sameUnresolvedFailureLimit ≤ failureCount state reason) := by
  unfold failure
  show r ∈ List.eraseDups _ ↔ _
  rw [List.mem_eraseDups]
  by_cases he : endsSession reason = true
  · by_cases hl : seed.policy.sameUnresolvedFailureLimit ≤ failureCount state reason
    · simp [he, hl]
    · simp [he, hl]
  · by_cases hl : seed.policy.sameUnresolvedFailureLimit ≤ failureCount state reason
    · simp [he, hl]
    · simp [he, hl]

/-- The capacities a state has used up. -/
def exhausted (seed : ReviewSeed) (state : ReviewState) : List ReviewReason :=
  (if needsRepair state ∧ seed.policy.maxImplementationRepairs ≤ state.budget.repairs then
    [ReviewReason.repairLimit] else []) ++
  (if seed.policy.maxReviewPasses ≤ state.validCompletedReports.length then
    [ReviewReason.reviewLimit] else []) ++
  (if seed.policy.maxInvocations ≤ state.budget.invocations then
    [ReviewReason.invocationLimit] else []) ++
  (if seed.policy.maxTokens ≤ state.budget.tokensSpent then [ReviewReason.tokenLimit] else []) ++
  (if seed.policy.maxCostMicrousd ≤ state.budget.costMicrousdSpent then
    [ReviewReason.costLimit] else [])

/-- `review_reducer._capacity`. -/
def capacity (seed : ReviewSeed) (state : ReviewState) : ReviewState :=
  if eligibilityReasons seed state = [] then state
  else { state with
    terminalReasons := (state.terminalReasons ++ exhausted seed state).eraseDups }

@[simp] theorem capacity_artifact (seed : ReviewSeed) (state : ReviewState) :
    (capacity seed state).artifact = state.artifact := by
  unfold capacity
  split <;> rfl

@[simp] theorem capacity_lastAt (seed : ReviewSeed) (state : ReviewState) :
    (capacity seed state).lastAt = state.lastAt := by
  unfold capacity
  split <;> rfl

@[simp] theorem capacity_budget (seed : ReviewSeed) (state : ReviewState) :
    (capacity seed state).budget = state.budget := by
  unfold capacity
  split <;> rfl

@[simp] theorem capacity_pending (seed : ReviewSeed) (state : ReviewState) :
    (capacity seed state).pending = state.pending := by
  unfold capacity
  split <;> rfl

@[simp] theorem capacity_invocationIds (seed : ReviewSeed) (state : ReviewState) :
    (capacity seed state).invocationIds = state.invocationIds := by
  unfold capacity
  split <;> rfl

@[simp] theorem capacity_executionIds (seed : ReviewSeed) (state : ReviewState) :
    (capacity seed state).executionIds = state.executionIds := by
  unfold capacity
  split <;> rfl

@[simp] theorem capacity_validCompletedReports (seed : ReviewSeed) (state : ReviewState) :
    (capacity seed state).validCompletedReports = state.validCompletedReports := by
  unfold capacity
  split <;> rfl

@[simp] theorem capacity_findings (seed : ReviewSeed) (state : ReviewState) :
    (capacity seed state).findings = state.findings := by
  unfold capacity
  split <;> rfl

@[simp] theorem capacity_resolutions (seed : ReviewSeed) (state : ReviewState) :
    (capacity seed state).resolutions = state.resolutions := by
  unfold capacity
  split <;> rfl

theorem mem_capacity_terminal {seed : ReviewSeed} {state : ReviewState} {r : ReviewReason} :
    r ∈ (capacity seed state).terminalReasons ↔ r ∈ state.terminalReasons ∨
      (eligibilityReasons seed state ≠ [] ∧ r ∈ exhausted seed state) := by
  unfold capacity
  by_cases he : eligibilityReasons seed state = []
  · simp [he]
  · rw [if_neg he]
    show r ∈ List.eraseDups _ ↔ _
    rw [List.mem_eraseDups, List.mem_append]
    simp [he]

/-! ## 3. Completion -/

variable [Pydantic]

/-- The reason a caught exception counts as. -/
def ValueError.reason : ValueError → ReviewReason
  | .violation reason => reason
  | .message _ => .malformedReport

/-- A fault of the receipt, the hold or the clock. -/
def completionFault (seed : ReviewSeed) (state : ReviewState) (invocation : Invocation)
    (completion : Completion) : Option ReviewReason :=
  let elapsed := totalSeconds completion.finishedAt invocation.startedAt
  if ¬ withinWindow seed state completion.finishedAt ∨
      ¬ (0 ≤ elapsed ∧ elapsed < invocation.reservation.seconds) then some .timeWindow
  else (account state invocation completion).2

/-- A delivered review report that is bound to its invocation. -/
def boundReport (seed : ReviewSeed) (accounted : ReviewState) (invocation : Invocation)
    (text : String) : Except ValueError ReviewReport := do
  let report ← ReviewReport.modelValidateJson text
  validateReportBinding seed accounted invocation report
  pure report

/-- The state with a report credited, where it may be. -/
def creditReport (seed : ReviewSeed) (accounted : ReviewState) (report : ReviewReport) :
    Except ValueError ReviewState := do
  validateReport seed accounted report
  let (findings, terminal) ← reconcileFindings seed accounted report
  pure { accounted with
    findings
    terminalReasons := terminal
    failures := []
    validCompletedReports := accounted.validCompletedReports ++ [report] }

/-- The state with a repair installed, where it may be. -/
def installRepair (seed : ReviewSeed) (accounted : ReviewState) (invocation : Invocation)
    (text : String) : Except ValueError ReviewState := do
  let repair ← RepairReport.modelValidateJson text
  let resolutions ← reconcileRepair seed accounted invocation repair
  pure { accounted with
    artifact := repair.artifact
    failures := []
    resolutions := accounted.resolutions ++ resolutions }

/-- The `try` block of `complete`: the state to fall back to, and the new state or what
    was raised. -/
def deliver (seed : ReviewSeed) (accounted : ReviewState) (invocation : Invocation)
    (output : Option String) : ReviewState × Except ValueError ReviewState :=
  match output, invocation.kind with
  | none, _ => (accounted, .error (.violation .malformedReport))
  | some text, .review =>
      match boundReport seed accounted invocation text with
      | .error exc => (accounted, .error exc)
      | .ok report => (retainStops seed accounted report, creditReport seed accounted report)
  | some text, .repair => (accounted, installRepair seed accounted invocation text)

/-- `review_reducer.complete`. -/
def complete (seed : ReviewSeed) (state : ReviewState) (completion : Completion) :
    Except ValueError ReviewState :=
  match state.pending with
  | none => .error (.violation .pending)
  | some invocation => do
      require (completion.invocationId = invocation.invocationId) .bindingMismatch
      let accounted := (account state invocation completion).1
      match completion.failureReason, completionFault seed state invocation completion with
      | some stop, _ => pure (capacity seed (failure seed accounted stop.reason))
      | none, some reason => pure (capacity seed (failure seed accounted reason))
      | none, none =>
          match deliver seed accounted invocation completion.outputJson with
          | (_, .ok updated) => pure (capacity seed updated)
          | (rejected, .error exc) => pure (capacity seed (failure seed rejected exc.reason))

/-! ## 4. Everything a completion can do -/

theorem boundReport_ok {seed : ReviewSeed} {accounted : ReviewState} {invocation : Invocation}
    {text : String} {report : ReviewReport} :
    boundReport seed accounted invocation text = .ok report ↔
      ReviewReport.modelValidateJson text = .ok report ∧
        BoundReport seed accounted invocation report := by
  unfold boundReport
  simp only [Except.bind_ok, Except.pure_ok, validateReportBinding_ok, exists_const]
  constructor
  · rintro ⟨r, hr, hb, rfl⟩
    exact ⟨hr, hb⟩
  · rintro ⟨hr, hb⟩
    exact ⟨report, hr, hb, rfl⟩

/-- What a credited report leaves. -/
structure Credited (seed : ReviewSeed) (accounted : ReviewState) (report : ReviewReport)
    (updated : ReviewState) : Prop where
  complete : CompleteReport seed accounted report
  reconciled : reconcileFindings seed accounted report =
    .ok (updated.findings, updated.terminalReasons)
  state : updated = { accounted with
    findings := updated.findings
    terminalReasons := updated.terminalReasons
    failures := []
    validCompletedReports := accounted.validCompletedReports ++ [report] }

omit [Pydantic] in
theorem creditReport_ok {seed : ReviewSeed} {accounted updated : ReviewState}
    {report : ReviewReport} (h : creditReport seed accounted report = .ok updated) :
    Credited seed accounted report updated := by
  unfold creditReport at h
  obtain ⟨hv, h⟩ := Except.seq_ok.mp h
  obtain ⟨⟨findings, terminal⟩, hr, h⟩ := Except.bind_ok.mp h
  obtain rfl := Except.pure_ok.mp h
  exact ⟨validateReport_ok hv, hr, rfl⟩

/-- What an installed repair leaves. -/
structure Repaired (seed : ReviewSeed) (accounted : ReviewState) (invocation : Invocation)
    (repair : RepairReport) (resolutions : List ResolutionRecord) (updated : ReviewState) :
    Prop where
  reconciled : reconcileRepair seed accounted invocation repair = .ok resolutions
  state : updated = { accounted with
    artifact := repair.artifact
    failures := []
    resolutions := accounted.resolutions ++ resolutions }

theorem installRepair_ok {seed : ReviewSeed} {accounted updated : ReviewState}
    {invocation : Invocation} {text : String}
    (h : installRepair seed accounted invocation text = .ok updated) :
    ∃ repair resolutions, RepairReport.modelValidateJson text = .ok repair ∧
      Repaired seed accounted invocation repair resolutions updated := by
  unfold installRepair at h
  obtain ⟨repair, hp, h⟩ := Except.bind_ok.mp h
  obtain ⟨resolutions, hr, h⟩ := Except.bind_ok.mp h
  obtain rfl := Except.pure_ok.mp h
  exact ⟨repair, resolutions, hp, hr, rfl⟩

/-- The completion of `invocation` is accepted for delivery: no runtime stop, and no fault
    of its receipt, its hold or the clock. -/
structure Clean (seed : ReviewSeed) (state : ReviewState) (invocation : Invocation)
    (completion : Completion) : Prop where
  running : completion.failureReason = none
  faultless : completionFault seed state invocation completion = none

/-- What the completion of the pending `invocation` makes of a state. Each case names the
    state before the capacity check. -/
inductive Outcome (seed : ReviewSeed) (state : ReviewState) (invocation : Invocation)
    (completion : Completion) : ReviewState → Prop where
  | stopped (stop : ExecutionStop) (h : completion.failureReason = some stop) :
      Outcome seed state invocation completion
        (failure seed (account state invocation completion).1 stop.reason)
  | faulted (reason : ReviewReason) (hn : completion.failureReason = none)
      (h : completionFault seed state invocation completion = some reason) :
      Outcome seed state invocation completion
        (failure seed (account state invocation completion).1 reason)
  | refused (exc : ValueError) (h : Clean seed state invocation completion)
      (hunbound : invocation.kind = .review → ∀ text, completion.outputJson = some text →
        boundReport seed (account state invocation completion).1 invocation text = .error exc)
      (hmissing : completion.outputJson = none → exc = .violation .malformedReport)
      (hrepair : invocation.kind = .repair → ∀ text, completion.outputJson = some text →
        installRepair seed (account state invocation completion).1 invocation text = .error exc) :
      Outcome seed state invocation completion
        (failure seed (account state invocation completion).1 exc.reason)
  | uncredited (text : String) (report : ReviewReport) (exc : ValueError)
      (h : Clean seed state invocation completion) (hk : invocation.kind = .review)
      (ho : completion.outputJson = some text)
      (hb : boundReport seed (account state invocation completion).1 invocation text = .ok report)
      (hc : creditReport seed (account state invocation completion).1 report = .error exc) :
      Outcome seed state invocation completion
        (failure seed (retainStops seed (account state invocation completion).1 report) exc.reason)
  | credited (text : String) (report : ReviewReport) (updated : ReviewState)
      (h : Clean seed state invocation completion) (hk : invocation.kind = .review)
      (ho : completion.outputJson = some text)
      (hb : boundReport seed (account state invocation completion).1 invocation text = .ok report)
      (hc : Credited seed (account state invocation completion).1 report updated) :
      Outcome seed state invocation completion updated
  | repaired (text : String) (repair : RepairReport) (resolutions : List ResolutionRecord)
      (updated : ReviewState) (h : Clean seed state invocation completion)
      (hk : invocation.kind = .repair) (ho : completion.outputJson = some text)
      (hp : RepairReport.modelValidateJson text = .ok repair)
      (hr : Repaired seed (account state invocation completion).1 invocation repair resolutions
        updated) :
      Outcome seed state invocation completion updated

/-- The state a delivery settles to, before the capacity check. -/
def settledBy (seed : ReviewSeed) : ReviewState × Except ValueError ReviewState → ReviewState
  | (_, .ok updated) => updated
  | (rejected, .error exc) => failure seed rejected exc.reason

/-- A clean completion without an output. -/
theorem outcome_of_missing {seed : ReviewSeed} {state : ReviewState} {invocation : Invocation}
    {completion : Completion} (h : Clean seed state invocation completion)
    (ho : completion.outputJson = none) :
    Outcome seed state invocation completion
      (failure seed (account state invocation completion).1 .malformedReport) := by
  have hnot : ∀ text, completion.outputJson ≠ some text := by
    intro text ht
    rw [ho] at ht
    cases ht
  exact .refused (.violation .malformedReport) h (fun _ text ht => absurd ht (hnot text))
    (fun _ => rfl) fun _ text ht => absurd ht (hnot text)

/-- A clean completion of a review: the report is unbound, bound, or credited. -/
theorem outcome_of_review {seed : ReviewSeed} {state : ReviewState} {invocation : Invocation}
    {completion : Completion} {text : String} (h : Clean seed state invocation completion)
    (hk : invocation.kind = .review) (ho : completion.outputJson = some text) :
    Outcome seed state invocation completion
      (settledBy seed (deliver seed (account state invocation completion).1 invocation
        (some text))) := by
  unfold deliver
  simp only [hk]
  cases hb : boundReport seed (account state invocation completion).1 invocation text with
  | error exc =>
      refine .refused exc h ?_ ?_ ?_
      · intro _ text' ht
        obtain rfl := Option.some.inj (ho.symm.trans ht)
        exact hb
      · intro hn
        cases ho.symm.trans hn
      · intro hrepair
        cases hk.symm.trans hrepair
  | ok report =>
      cases hc : creditReport seed (account state invocation completion).1 report with
      | error exc =>
          simp only [hc]
          exact .uncredited text report exc h hk ho hb hc
      | ok updated =>
          simp only [hc]
          exact .credited text report updated h hk ho hb (creditReport_ok hc)

/-- A clean completion of a repair: it is refused, or installed. -/
theorem outcome_of_repair {seed : ReviewSeed} {state : ReviewState} {invocation : Invocation}
    {completion : Completion} {text : String} (h : Clean seed state invocation completion)
    (hk : invocation.kind = .repair) (ho : completion.outputJson = some text) :
    Outcome seed state invocation completion
      (settledBy seed (deliver seed (account state invocation completion).1 invocation
        (some text))) := by
  unfold deliver
  simp only [hk]
  cases hi : installRepair seed (account state invocation completion).1 invocation text with
  | error exc =>
      refine .refused exc h ?_ ?_ ?_
      · intro hreview
        cases hk.symm.trans hreview
      · intro hn
        cases ho.symm.trans hn
      · intro _ text' ht
        obtain rfl := Option.some.inj (ho.symm.trans ht)
        exact hi
  | ok updated =>
      obtain ⟨repair, resolutions, hp, hr⟩ := installRepair_ok hi
      exact .repaired text repair resolutions updated h hk ho hp hr

/-- Whatever a clean completion delivers has an outcome. -/
theorem outcome_of_clean {seed : ReviewSeed} {state : ReviewState} {invocation : Invocation}
    {completion : Completion} (h : Clean seed state invocation completion) :
    Outcome seed state invocation completion
      (settledBy seed (deliver seed (account state invocation completion).1 invocation
        completion.outputJson)) := by
  cases ho : completion.outputJson with
  | none => exact outcome_of_missing h ho
  | some text =>
      cases hk : invocation.kind with
      | review => exact outcome_of_review h hk ho
      | repair => exact outcome_of_repair h hk ho

/-- **Everything a completion can do.** -/
theorem complete_ok {seed : ReviewSeed} {state state' : ReviewState} {completion : Completion}
    (h : complete seed state completion = .ok state') :
    ∃ invocation settled, state.pending = some invocation ∧
      completion.invocationId = invocation.invocationId ∧
      Outcome seed state invocation completion settled ∧ state' = capacity seed settled := by
  unfold complete at h
  cases hp : state.pending with
  | none => simp [hp] at h
  | some invocation =>
      simp only [hp] at h
      obtain ⟨hid, h⟩ := Except.seq_ok.mp h
      refine ⟨invocation, ?_⟩
      cases hf : completion.failureReason with
      | some stop =>
          simp only [hf] at h
          exact ⟨_, rfl, require_ok.mp hid, .stopped stop hf, (Except.pure_ok.mp h).symm⟩
      | none =>
          cases hr : completionFault seed state invocation completion with
          | some reason =>
              simp only [hf, hr] at h
              exact ⟨_, rfl, require_ok.mp hid, .faulted reason hf hr,
                (Except.pure_ok.mp h).symm⟩
          | none =>
              simp only [hf, hr] at h
              refine ⟨_, rfl, require_ok.mp hid, outcome_of_clean ⟨hf, hr⟩, ?_⟩
              split at h
              · rename_i hd
                rw [hd]
                exact (Except.pure_ok.mp h).symm
              · rename_i hd
                rw [hd]
                exact (Except.pure_ok.mp h).symm

/-- Two states that agree on everything accounting and the clock are about. -/
structure SameBooks (state state' : ReviewState) : Prop where
  pending : state'.pending = state.pending
  invocationIds : state'.invocationIds = state.invocationIds
  executionIds : state'.executionIds = state.executionIds
  lastAt : state'.lastAt = state.lastAt
  budget : state'.budget = state.budget

/-- Whatever the outcome, the books are those of `_account`. -/
theorem Outcome.books {seed : ReviewSeed} {state settled : ReviewState} {invocation : Invocation}
    {completion : Completion} (h : Outcome seed state invocation completion settled) :
    SameBooks (account state invocation completion).1 (capacity seed settled) := by
  have hsettled : SameBooks (account state invocation completion).1 settled := by
    cases h with
    | stopped stop h => exact ⟨rfl, rfl, rfl, rfl, rfl⟩
    | faulted reason hn h => exact ⟨rfl, rfl, rfl, rfl, rfl⟩
    | refused exc h hunbound hmissing hrepair => exact ⟨rfl, rfl, rfl, rfl, rfl⟩
    | uncredited text report exc h hk ho hb hc =>
        rw [retainStops_frame]
        exact ⟨rfl, rfl, rfl, rfl, rfl⟩
    | credited text report updated h hk ho hb hc =>
        rw [hc.state]
        exact ⟨rfl, rfl, rfl, rfl, rfl⟩
    | repaired text repair resolutions updated h hk ho hp hr =>
        rw [hr.state]
        exact ⟨rfl, rfl, rfl, rfl, rfl⟩
  obtain ⟨h1, h2, h3, h4, h5⟩ := hsettled
  refine ⟨?_, ?_, ?_, ?_, ?_⟩
  · rw [capacity_pending, h1]
  · rw [capacity_invocationIds, h2]
  · rw [capacity_executionIds, h3]
  · rw [capacity_lastAt, h4]
  · rw [capacity_budget, h5]

/-- The pending invocation can always be completed, whatever is delivered for it. -/
theorem complete_total {seed : ReviewSeed} {state : ReviewState} {invocation : Invocation}
    {completion : Completion} (hp : state.pending = some invocation)
    (hid : completion.invocationId = invocation.invocationId) :
    ∃ state', complete seed state completion = .ok state' := by
  unfold complete
  simp only [hp]
  rw [show require (completion.invocationId = invocation.invocationId) .bindingMismatch =
    .ok () from require_ok.mpr hid]
  show ∃ state', (match completion.failureReason,
    completionFault seed state invocation completion with
      | some stop, _ => _
      | none, some reason => _
      | none, none => _) = Except.ok state'
  split
  · exact ⟨_, rfl⟩
  · exact ⟨_, rfl⟩
  · split
    · exact ⟨_, rfl⟩
    · exact ⟨_, rfl⟩

end NokincFactory
