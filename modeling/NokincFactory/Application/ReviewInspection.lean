/-
  File:      NokincFactory/Application/ReviewInspection.lean
  Subject:   `application/review_inspection.py`: the read-only views of a session, and what they
             say of one unit while the orchestrators go on.

  They are shown for what one read of the store returns; how they are printed is left out.

  * `inspectReview`, `traceReview`: the views, as functions of the session;
  * `traceReview_ok`, `inspectReview_ok`: they answer for the outcomes of a ledger and for no
    other session;
  * `ReviewTrace.Extends`: a later trace of a unit, with what an earlier one settled unchanged;
  * `inspections_faithful`.
-/
import NokincFactory.Application.Clearance
import NokincFactory.Session.Progress

namespace NokincFactory

/-! ## 1. The views -/

/-- `Literal["ARCHIVED_ADVISORY"]`. -/
inductive EvidenceScope where
  | archivedAdvisory
deriving DecidableEq

/-- `Literal[False]`. -/
abbrev LiteralFalse : Type := { b : Bool // b = false }

def literalFalse : LiteralFalse := ⟨false, rfl⟩

structure ReviewInspection where
  evidenceScope : EvidenceScope := .archivedAdvisory
  liveArtifactVerified : LiteralFalse := literalFalse
  deploymentAuthorized : LiteralFalse := literalFalse
  tenantId : Identifier
  workItemId : Identifier
  unitId : Identifier
  sessionDigest : Digest
  completedReviews : ℕ
  pendingInvocation : Option Identifier
  inspectedAt : Moment
  snapshotDecision : ReviewDecision

structure AttemptTrace where
  invocationId : Identifier
  kind : InvocationKind
  invocationDigest : Digest
  artifactDigest : Digest
  startedAt : Moment
  finishedAt : Option Moment
  completionDigest : Option Digest
  receiptDigest : Option Digest

structure ReviewTrace where
  evidenceScope : EvidenceScope := .archivedAdvisory
  deploymentAuthorized : LiteralFalse := literalFalse
  releaseChainComplete : LiteralFalse := literalFalse
  workItemId : Identifier
  sessionDigest : Digest
  contractDigest : Digest
  contextDigest : Digest
  artifactDigest : Digest
  attempts : List AttemptTrace
  missingReleaseEvidence : List String := ["verified merge candidate", "signed release bundle",
    "deployment binding", "runtime receipt"]

section Inspection

variable [Sha256] [Pydantic]

/-- `inspect_review`. -/
def inspectReview (session : ReviewSession) (now : Datetime) : Except PyError ReviewInspection := do
  let session ← validateSession session
  let now ← raising (utc now)
  let snapshotDecision ← evaluate session session.state.artifact now.datetime
  pure
    { tenantId := session.seed.scope.tenantId
      workItemId := session.seed.scope.workItemId
      unitId := session.seed.scope.sessionId
      sessionDigest := contentDigest session
      completedReviews := session.state.validCompletedReports.length
      inspectedAt := now
      pendingInvocation := session.state.pending.map (·.invocationId)
      snapshotDecision := snapshotDecision }

/-- One turn of the loop of `trace_review`. -/
def traceAttempt (attempt : ReviewAttempt) : AttemptTrace where
  invocationId := attempt.invocation.invocationId
  kind := attempt.invocation.kind
  invocationDigest := contentDigest attempt.invocation
  artifactDigest := attempt.invocation.binding.artifactDigest
  startedAt := attempt.invocation.startedAt
  finishedAt := attempt.completion.map (·.finishedAt)
  completionDigest := attempt.completion.map fun completion => contentDigest completion
  receiptDigest := (attempt.completion.bind (·.receipt)).map fun receipt => contentDigest receipt

/-- `trace_review`. -/
def traceReview (session : ReviewSession) (workItemId : String) : Except PyError ReviewTrace := do
  let session ← validateSession session
  raising (guardThat (session.seed.scope.workItemId.text = workItemId)
    (.message "Work-item identity does not match review evidence"))
  pure
    { workItemId := session.seed.scope.workItemId
      sessionDigest := contentDigest session
      contractDigest := contentDigest session.seed.contract
      contextDigest := session.state.artifact.contextDigest
      artifactDigest := contentDigest session.state.artifact
      attempts := session.attempts.map traceAttempt }

/-! ## 2. When they answer -/

/-- The inspection of a session at a moment, with its decision. -/
def inspectionOf (session : ReviewSession) (moment : Moment) (decision : ReviewDecision) :
    ReviewInspection where
  tenantId := session.seed.scope.tenantId
  workItemId := session.seed.scope.workItemId
  unitId := session.seed.scope.sessionId
  sessionDigest := contentDigest session
  completedReviews := session.state.validCompletedReports.length
  inspectedAt := moment
  pendingInvocation := session.state.pending.map (·.invocationId)
  snapshotDecision := decision

/-- The trace of a session. -/
def traceOf (session : ReviewSession) : ReviewTrace where
  workItemId := session.seed.scope.workItemId
  sessionDigest := contentDigest session
  contractDigest := contentDigest session.seed.contract
  contextDigest := session.state.artifact.contextDigest
  artifactDigest := contentDigest session.state.artifact
  attempts := session.attempts.map traceAttempt

variable {session session' : ReviewSession} {now : Datetime}

theorem inspectReview_ok {inspection : ReviewInspection} :
    inspectReview session now = .ok inspection ↔ Recorded session ∧ ∃ moment decision,
      utc now = .ok moment ∧
      evaluate session session.state.artifact moment.datetime = .ok decision ∧
      inspection = inspectionOf session moment decision := by
  unfold inspectReview
  constructor
  · intro h
    obtain ⟨checked, hv, h⟩ := Except.bind_ok.mp h
    obtain ⟨hr, rfl⟩ := validateSession_iff.mp hv
    obtain ⟨moment, hm, h⟩ := Except.bind_ok.mp h
    obtain ⟨decision, hd, h⟩ := Except.bind_ok.mp h
    exact ⟨hr, moment, decision, raising_ok.mp hm, hd, (Except.pure_ok.mp h).symm⟩
  · rintro ⟨hr, moment, decision, hm, hd, rfl⟩
    refine Except.bind_ok.mpr ⟨session, validateSession_iff.mpr ⟨hr, rfl⟩, ?_⟩
    exact Except.bind_ok.mpr ⟨moment, raising_ok.mpr hm, Except.bind_ok.mpr ⟨decision, hd, rfl⟩⟩

theorem traceReview_ok {workItemId : String} {trace : ReviewTrace} :
    traceReview session workItemId = .ok trace ↔
      Recorded session ∧ session.seed.scope.workItemId.text = workItemId ∧
      trace = traceOf session := by
  unfold traceReview
  constructor
  · intro h
    obtain ⟨checked, hv, h⟩ := Except.bind_ok.mp h
    obtain ⟨hr, rfl⟩ := validateSession_iff.mp hv
    obtain ⟨hw, h⟩ := Except.seq_ok.mp h
    exact ⟨hr, guardThat_ok.mp (raising_ok.mp hw), (Except.pure_ok.mp h).symm⟩
  · rintro ⟨hr, hw, rfl⟩
    refine Except.bind_ok.mpr ⟨session, validateSession_iff.mpr ⟨hr, rfl⟩, ?_⟩
    exact Except.seq_ok.mpr ⟨raising_ok.mpr (guardThat_ok.mpr hw), rfl⟩

/-! ## 3. What the views of one unit have in common -/

/-- The same attempt in a later trace: what was settled stays as it was settled. -/
structure AttemptTrace.Extends (earlier later : AttemptTrace) : Prop where
  invocationId : later.invocationId = earlier.invocationId
  kind : later.kind = earlier.kind
  invocationDigest : later.invocationDigest = earlier.invocationDigest
  artifactDigest : later.artifactDigest = earlier.artifactDigest
  startedAt : later.startedAt = earlier.startedAt
  settled : earlier.finishedAt ≠ none → later = earlier

omit [Pydantic] in
theorem SameAttempt.traced {a a' : ReviewAttempt} (h : SameAttempt a a') :
    (traceAttempt a).Extends (traceAttempt a') := by
  obtain ⟨invocation, completion⟩ := a
  obtain ⟨invocation', completion'⟩ := a'
  obtain rfl : invocation' = invocation := h.invocation
  refine ⟨rfl, rfl, rfl, rfl, rfl, fun hfinished => ?_⟩
  cases completion with
  | none => exact absurd rfl hfinished
  | some settled =>
      obtain rfl : completion' = some settled := h.completion (Option.some_ne_none settled)
      rfl

/-- A later trace of the same unit. -/
structure ReviewTrace.Extends (earlier later : ReviewTrace) : Prop where
  workItemId : later.workItemId = earlier.workItemId
  contractDigest : later.contractDigest = earlier.contractDigest
  attempts : ∀ (k : ℕ) (a : AttemptTrace), earlier.attempts[k]? = some a →
    ∃ a', later.attempts[k]? = some a' ∧ a.Extends a'

omit [Pydantic] in
theorem Continues.traced (h : Continues session session') :
    (traceOf session).Extends (traceOf session') where
  workItemId := congrArg (·.scope.workItemId) h.seed
  contractDigest := by
    unfold traceOf
    rw [h.seed]
  attempts := by
    intro k a hk
    have hk' : (session.attempts.map traceAttempt)[k]? = some a := hk
    rw [List.getElem?_map] at hk'
    obtain ⟨attempt, hattempt, rfl⟩ := Option.map_eq_some_iff.mp hk'
    obtain ⟨attempt', hattempt', hsame⟩ := h.attempts k attempt hattempt
    refine ⟨traceAttempt attempt', ?_, hsame.traced⟩
    show (session'.attempts.map traceAttempt)[k]? = _
    rw [List.getElem?_map, hattempt']
    rfl

/-- The pending invocation of an inspection is the entry of the trace without a completion. -/
theorem Recorded.pending_traced (hr : Recorded session) (invocationId : Identifier) :
    session.state.pending.map (·.invocationId) = some invocationId ↔
      ∃ a ∈ (traceOf session).attempts, a.finishedAt = none ∧ a.invocationId = invocationId := by
  constructor
  · intro h
    obtain ⟨invocation, hp, rfl⟩ := Option.map_eq_some_iff.mp h
    obtain ⟨earlier, hl⟩ := hr.last_of_pending hp
    refine ⟨traceAttempt ⟨invocation, none⟩, List.mem_map_of_mem ?_, rfl, rfl⟩
    rw [hl]
    exact List.mem_append_right _ List.mem_cons_self
  · rintro ⟨a, ha, hfinished, rfl⟩
    obtain ⟨attempt, hattempt, rfl⟩ := List.mem_map.mp ha
    have hopen : attempt.completion = none := Option.map_eq_none_iff.mp hfinished
    rcases hr.settled with ⟨-, hall⟩ | ⟨earlier, invocation, hl, hp, hall⟩
    · exact absurd hopen (hall attempt hattempt)
    · rw [hl] at hattempt
      rcases List.mem_append.mp hattempt with hmem | hmem
      · exact absurd hopen (hall attempt hmem)
      · obtain rfl := List.mem_singleton.mp hmem
        rw [hp]
        rfl

/-! ## 4. Along the runs -/

variable [ReviewDocuments] {ι : Type} [DecidableEq ι] {config : ι → Orchestrator}
  {run later : List (Action ι)} {w w' : World ι} {scope : ReviewScope}

/-- What is stored for a unit in the course of a run goes on to its end. -/
theorem stored_continues (h : (orchestration config).Trace run w)
    (hg : (orchestration config).Goes w later w') (hs : Stored w.store scope session) :
    OffersReadBack (run ++ later) →
      ∃ session', Stored w'.store scope session' ∧ Continues session session' := by
  induction hg with
  | refl => exact fun _ => ⟨session, hs, .refl _⟩
  | step a hg hstep ih =>
      intro hread
      rw [← List.append_assoc] at hread
      obtain ⟨between, hbetween, hcontinues⟩ := ih hread.init
      have hch := (disciplined_of_trace (h.goes hg) hread.init).chronicled
      obtain ⟨session', hs', hcontinues'⟩ := Step.continues hstep hch hread.last hbetween
      exact ⟨session', hs', hcontinues.trans hcontinues'⟩

/-- What the two views say of a session. -/
structure Viewed (session : ReviewSession) (now : Datetime) (inspection : ReviewInspection)
    (trace : ReviewTrace) : Prop where
  inspected : inspectReview session now = .ok inspection
  traced : traceReview session session.seed.scope.workItemId.text = .ok trace
  digest : inspection.sessionDigest = trace.sessionDigest
  decided : inspection.snapshotDecision.completedReviews = inspection.completedReviews
  pending : ∀ invocationId, inspection.pendingInvocation = some invocationId ↔
    ∃ a ∈ trace.attempts, a.finishedAt = none ∧ a.invocationId = invocationId
  attempts : trace.attempts.length ≤ session.seed.policy.maxInvocations

omit [ReviewDocuments] in
/-- Both views answer for every outcome of a ledger, at every moment. -/
theorem Recorded.viewed (hr : Recorded session) {moment : Moment} (hnow : utc now = .ok moment) :
    ∃ decision, Viewed session now (inspectionOf session moment decision) (traceOf session) := by
  obtain ⟨decision, hd, -⟩ := evaluate_recorded hr (utc_datetime moment)
  refine ⟨decision, inspectReview_ok.mpr ⟨hr, moment, decision, hnow, hd, rfl⟩,
    traceReview_ok.mpr ⟨hr, rfl, rfl⟩, rfl, ?_, hr.pending_traced, ?_⟩
  · obtain ⟨-, at', -, rfl⟩ := evaluate_ok.mp hd
    rfl
  · have hmax := hr.accounted.maxInvocations
    rw [hr.accounted.invocations] at hmax
    show (session.attempts.map traceAttempt).length ≤ _
    rw [List.length_map]
    exact hmax

end Inspection

/-- **The views are faithful**: whatever is stored for a unit in a run of any number of
orchestrators can be inspected and traced, at every moment; the two views agree on what is pending
and on the number of reviews, and list no more attempts than the policy allows. However the run
goes on, so can what is stored for the unit then; its trace has every entry of the earlier one in
its place, a settled entry unchanged, and no review that was credited is lost. -/
theorem inspections_faithful [Sha256] [Pydantic] [ReviewDocuments] {ι : Type} [DecidableEq ι]
    {config : ι → Orchestrator} {run later : List (Action ι)} {w w' : World ι}
    (h : (orchestration config).Trace run w) (hg : (orchestration config).Goes w later w')
    (hread : OffersReadBack (run ++ later)) {scope : ReviewScope} {session : ReviewSession}
    (hs : Stored w.store scope session) {now now' : Datetime} {moment moment' : Moment}
    (hnow : utc now = .ok moment) (hnow' : utc now' = .ok moment') :
    ∃ session' inspection inspection' trace trace', Stored w'.store scope session' ∧
      Viewed session now inspection trace ∧ Viewed session' now' inspection' trace' ∧
      trace.Extends trace' ∧ inspection.unitId = inspection'.unitId ∧
      inspection.completedReviews ≤ inspection'.completedReviews := by
  obtain ⟨session', hs', hcontinues⟩ := stored_continues h hg hs hread
  have hfirst : OffersReadBack run := fun a ha => hread a (List.mem_append_left _ ha)
  have hr := (disciplined_of_trace h hfirst).chronicled.recorded hs
  have hr' := (disciplined_of_trace (h.goes hg) hread).chronicled.recorded hs'
  obtain ⟨decision, hviewed⟩ := hr.viewed hnow
  obtain ⟨decision', hviewed'⟩ := hr'.viewed hnow'
  refine ⟨session', _, _, _, _, hs', hviewed, hviewed', hcontinues.traced, ?_,
    hcontinues.reports.length_le⟩
  exact (congrArg (·.scope.sessionId) hcontinues.seed).symm

/-! The dispatcher crashes after its dispatch: what it left can be inspected. -/

open Fixture in
theorem inspections_faithful_crashed :
    ∃ (session : ReviewSession) (inspection inspection' : ReviewInspection)
      (trace trace' : ReviewTrace), Viewed session (clock 1).datetime inspection trace ∧
      trace.Extends trace' ∧ inspection.unitId = inspection'.unitId ∧
      inspection.completedReviews ≤ inspection'.completedReviews := by
  obtain ⟨w, h⟩ := contended_trace
  have hexecuted : (true, invocation 0 .review "v1") ∈ executions contended :=
    List.mem_singleton.mpr rfl
  obtain ⟨session, hs, -⟩ := (handed_of_trace h contended_reads).executed _ _ hexecuted
  have hg : (orchestration fun _ : Bool => orchestrator).Goes w [.crash true]
      (w.enter true .idle) := Labelled.Goes.step _ .refl (Step.crash w true)
  have hread : OffersReadBack (contended ++ [.crash true]) := by
    intro a ha call hcall
    rcases List.mem_append.mp ha with ha | ha
    · exact contended_reads a ha call hcall
    · obtain rfl := List.mem_singleton.mp ha
      cases hcall
  obtain ⟨session', inspection, inspection', trace, trace', -, hviewed, -, hrest⟩ :=
    inspections_faithful h hg hread hs (utc_datetime (clock 1)) (utc_datetime (clock 2))
  exact ⟨session, inspection, inspection', trace, trace', hviewed, hrest⟩

end NokincFactory
