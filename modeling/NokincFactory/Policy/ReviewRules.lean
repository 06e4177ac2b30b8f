/-
  File:      NokincFactory/Policy/ReviewRules.lean
  Subject:   `review_rules.py`: qualification, report and eligibility checks, and what
             each check says once it has passed.

  * `validateSeed_ok`: what a registered seed guarantees;
  * `BoundReport`, `validateReportBinding_ok`: a report whose every supplied
    observation is bound to its invocation and artifact;
  * `CompleteReport`, `validateReport_ok`: a bound report that may earn credit;
  * `eligibilityReasons_eq_nil`: what an empty list of reasons means.
-/
import NokincFactory.Domain.ReviewSession
import NokincFactory.Lib.Dict

namespace NokincFactory

variable [Sha256]

/-! ## 1. Qualification -/

/-- `review_rules.qualified`. -/
def qualified (model : ModelIdentity) : Bool :=
  model.family.isSome && model.qualificationRef.isSome && !model.capabilityRefs.isEmpty

/-- The family requirement of `independent`: tier T2, or asked for by the policy. -/
def familyRequired (seed : ReviewSeed) : Bool :=
  decide (seed.contract.riskTier = .t2) || seed.policy.requireDifferentFamily

/-- One round of the producer loop of `independent`. -/
def independentOf (seed : ReviewSeed) (reviewer producer : ModelIdentity) :
    Except ValueError Unit := do
  require (qualified producer ∧ producer.role = .producer) .identityUnavailable
  require (reviewer.canonicalModelId ≠ producer.canonicalModelId ∧
    reviewer.model ≠ producer.model) .identityUnavailable
  require (familyRequired seed = false ∨ reviewer.family ≠ producer.family) .identityUnavailable

/-- `review_rules.independent`. -/
def independent (seed : ReviewSeed) (artifact : ArtifactRef) (reviewer : ModelIdentity) :
    Except ValueError Unit := do
  require (qualified reviewer ∧ reviewer.role = .reviewer) .identityUnavailable
  artifact.producers.forM (independentOf seed reviewer)

omit [Sha256] in
/-- Independence reads the producers of the artifact, nothing else of it. -/
theorem independent_congr {seed : ReviewSeed} {a b : ArtifactRef} {reviewer : ModelIdentity}
    (h : a.producers = b.producers) :
    independent seed a reviewer = independent seed b reviewer := by
  unfold independent
  rw [h]

/-- `review_rules.artifact_binding`. -/
def artifactBinding (seed : ReviewSeed) (artifact : ArtifactRef) : Except ValueError Unit :=
  require (artifact.scope = seed.scope ∧
    artifact.contractDigest = contentDigest seed.contract ∧
    artifact.contextDigest = seed.initialArtifact.contextDigest ∧
    artifact.artifactKey ∈ seed.contract.artifactScope) .bindingMismatch

/-- `review_rules.validate_seed`. -/
def validateSeed (seed : ReviewSeed) : Except ValueError Unit := do
  require ((seed.scope.tenantId, seed.scope.workItemId) =
    (seed.contract.tenantId, seed.contract.workItemId)) .bindingMismatch
  artifactBinding seed seed.initialArtifact
  require (seed.originalDoer ∈ seed.initialArtifact.producers ∧
    seed.originalDoer.role = .producer ∧ qualified seed.originalDoer) .identityUnavailable
  require (seed.reviewers ≠ []) .identityUnavailable
  distinct (seed.reviewers.map contentDigest)
  seed.reviewers.forM (independent seed seed.initialArtifact)

/-- What a validated seed guarantees the session that starts from it. -/
structure ValidSeed (seed : ReviewSeed) : Prop where
  tenant : (seed.scope.tenantId, seed.scope.workItemId) =
    (seed.contract.tenantId, seed.contract.workItemId)
  bound : artifactBinding seed seed.initialArtifact = .ok ()
  doer : seed.originalDoer ∈ seed.initialArtifact.producers ∧
    seed.originalDoer.role = .producer ∧ qualified seed.originalDoer
  staffed : seed.reviewers ≠ []
  apart : (seed.reviewers.map contentDigest).Nodup
  independent : ∀ r ∈ seed.reviewers, independent seed seed.initialArtifact r = .ok ()

theorem validateSeed_ok {seed : ReviewSeed} {u : Unit} :
    validateSeed seed = .ok u ↔ ValidSeed seed := by
  unfold validateSeed
  simp only [Except.seq_ok, require_ok, distinct_ok, List.forM_ok]
  constructor
  · rintro ⟨hs, hb, hd, hn, ha, hi⟩
    exact ⟨hs, hb, hd, hn, ha, hi⟩
  · rintro ⟨hs, hb, hd, hn, ha, hi⟩
    exact ⟨hs, hb, hd, hn, ha, hi⟩

/-! ## 2. Time and findings -/

/-- `review_rules.within_window`. -/
def withinWindow (seed : ReviewSeed) (state : ReviewState) (now : Moment) : Prop :=
  state.lastAt ≤ now ∧ seed.startedAt ≤ now ∧
    totalSeconds now seed.startedAt < seed.policy.maxElapsedSeconds

instance (seed : ReviewSeed) (state : ReviewState) (now : Moment) :
    Decidable (withinWindow seed state now) :=
  inferInstanceAs (Decidable (_ ∧ _ ∧ _))

/-- `review_rules.blocking`. -/
def blocking (seed : ReviewSeed) (finding : Finding) : Bool :=
  match seed.contract.criteria.find? (fun c => c.criterionId = finding.criterionId) with
  | none => true
  | some criterion =>
      criterion.mandatory || decide (finding.kind ≠ .advisory) || decide (finding.severity ≠ .low)

/-- `review_rules.evidence_binding`. -/
def evidenceBinding (evidence : List Evidence) (artifactDigest : Digest) :
    Except ValueError Unit :=
  require (∀ item ∈ evidence, item.artifactDigest = artifactDigest) .missingEvidence

/-- A recorded resolution answers the record as it stands, on the current artifact. -/
def ResolutionRecord.answers (record : ResolutionRecord) (item : FindingRecord)
    (artifactDigest : Digest) : Prop :=
  record.resolution.fingerprint = item.fingerprint ∧
    record.resolution.reportDigest = item.reportDigest ∧ record.artifactDigest = artifactDigest

instance (record : ResolutionRecord) (item : FindingRecord) (d : Digest) :
    Decidable (record.answers item d) :=
  inferInstanceAs (Decidable (_ ∧ _ ∧ _))

/-- `review_rules.needs_repair`: a blocker that no recorded resolution answers. -/
def needsRepair (state : ReviewState) : Prop :=
  ∃ item ∈ state.openFindings, item.blocking = true ∧
    ¬ ∃ record ∈ state.resolutions, record.answers item (contentDigest state.artifact)

instance (state : ReviewState) : Decidable (needsRepair state) :=
  inferInstanceAs (Decidable (∃ item ∈ _, _))

/-- Some finding is open and blocking. -/
def openBlocker (state : ReviewState) : Prop :=
  ∃ item ∈ state.openFindings, item.blocking = true

instance (state : ReviewState) : Decidable (openBlocker state) :=
  inferInstanceAs (Decidable (∃ item ∈ _, _))

theorem openBlocker_of_needsRepair {state : ReviewState} (h : needsRepair state) :
    openBlocker state := by
  obtain ⟨item, hi, hb, -⟩ := h
  exact ⟨item, hi, hb⟩

omit [Sha256] in
@[simp] theorem mem_openFindings {state : ReviewState} {item : FindingRecord} :
    item ∈ state.openFindings ↔ item ∈ state.findings ∧ item.closedBy = none := by
  unfold ReviewState.openFindings
  simp

/-! ## 3. Reports -/

/-- `review_rules.validate_report_binding`. -/
def validateReportBinding (seed : ReviewSeed) (state : ReviewState) (invocation : Invocation)
    (report : ReviewReport) : Except ValueError Unit := do
  require (report.invocationId = invocation.invocationId ∧ report.binding = invocation.binding ∧
    report.reviewer = invocation.actor) .bindingMismatch
  independent seed state.artifact report.reviewer
  distinct (report.findings.map (·.fingerprint))
  distinct (report.rechecks.map (·.fingerprint))
  report.criteria.forM fun item => evidenceBinding item.evidence report.binding.artifactDigest
  report.findings.forM fun finding => do
    require (finding.artifactDigest = report.binding.artifactDigest) .bindingMismatch
    evidenceBinding finding.evidence report.binding.artifactDigest
  report.rechecks.forM fun recheck => evidenceBinding recheck.evidence report.binding.artifactDigest

/-- A report bound to its invocation, with every supplied observation. -/
structure BoundReport (seed : ReviewSeed) (state : ReviewState) (invocation : Invocation)
    (report : ReviewReport) : Prop where
  invocationId : report.invocationId = invocation.invocationId
  binding : report.binding = invocation.binding
  reviewer : report.reviewer = invocation.actor
  independent : independent seed state.artifact report.reviewer = .ok ()
  findings : (report.findings.map (·.fingerprint)).Nodup
  rechecks : (report.rechecks.map (·.fingerprint)).Nodup
  criteriaEvidence : ∀ item ∈ report.criteria, ∀ e ∈ item.evidence,
    e.artifactDigest = report.binding.artifactDigest
  findingEvidence : ∀ finding ∈ report.findings,
    finding.artifactDigest = report.binding.artifactDigest ∧
      ∀ e ∈ finding.evidence, e.artifactDigest = report.binding.artifactDigest
  recheckEvidence : ∀ recheck ∈ report.rechecks, ∀ e ∈ recheck.evidence,
    e.artifactDigest = report.binding.artifactDigest

theorem validateReportBinding_ok {seed : ReviewSeed} {state : ReviewState}
    {invocation : Invocation} {report : ReviewReport} {u : Unit} :
    validateReportBinding seed state invocation report = .ok u ↔
      BoundReport seed state invocation report := by
  unfold validateReportBinding evidenceBinding
  simp only [Except.seq_ok, require_ok, distinct_ok, List.forM_ok]
  constructor
  · rintro ⟨⟨h1, h2, h3⟩, h4, h5, h6, h7, h8, h9⟩
    exact ⟨h1, h2, h3, h4, h5, h6, h7, h8, h9⟩
  · rintro ⟨h1, h2, h3, h4, h5, h6, h7, h8, h9⟩
    exact ⟨⟨h1, h2, h3⟩, h4, h5, h6, h7, h8, h9⟩

/-- Binding reads the artifact of the state only. -/
theorem BoundReport.congr {seed : ReviewSeed} {state state' : ReviewState} {invocation : Invocation}
    {report : ReviewReport} (h : BoundReport seed state invocation report)
    (ha : state'.artifact = state.artifact) : BoundReport seed state' invocation report := by
  refine { h with independent := ?_ }
  rw [ha]
  exact h.independent

/-- The criterion ids of the contract, the keys of `expected`. -/
def ReviewSeed.criterionIds (seed : ReviewSeed) : List Identifier :=
  seed.contract.criteria.map (·.criterionId)

/-- The checks `validate_report` makes on one criterion disposition. -/
def validateDisposition (report : ReviewReport) (item : CriterionDisposition)
    (criterion : QualityCriterion) : Except ValueError Unit := do
  whenThat (item.status = .pass) do
    require (∀ id ∈ criterion.requiredEvidence, id ∈ item.evidence.map (·.evidenceId))
      .missingEvidence
  whenThat (criterion.mandatory = true) do
    require (item.status ≠ .notApplicable) .incompleteCriteria
    whenThat (item.status = .fail) do
      require (∃ f ∈ report.findings, f.criterionId = item.criterionId) .incompleteCriteria

/-- `review_rules.validate_report`. -/
def validateReport (seed : ReviewSeed) (state : ReviewState) (report : ReviewReport) :
    Except ValueError Unit := do
  let expected := Dict.ofValues (·.criterionId) seed.contract.criteria
  let actual := Dict.ofValues (·.criterionId) report.criteria
  require (report.complete = true ∧ actual.keys.length = report.criteria.length ∧
    (∀ id ∈ actual.keys, id ∈ expected.keys) ∧ ∀ id ∈ expected.keys, id ∈ actual.keys)
    .incompleteCriteria
  -- the ids are distinct here, so `actual` iterates as `report.criteria`, and each is expected
  report.criteria.forM fun item =>
    match AList.lookup item.criterionId expected with
    | some criterion => validateDisposition report item criterion
    | none => .ok ()
  report.findings.forM fun finding =>
    require (finding.criterionId ∈ expected.keys ∨ finding.kind = .contractGap) .contractGap
  whenThat (report.verdict = .changesRequired) do
    require ((∃ finding ∈ report.findings, blocking seed finding = true) ∨ openBlocker state)
      .unsupportedVerdict

/-- A report that covers the contract: one disposition for each criterion, each with what
    its status asks for. -/
structure CompleteReport (seed : ReviewSeed) (state : ReviewState) (report : ReviewReport) :
    Prop where
  complete : report.complete = true
  distinct : (report.criteria.map (·.criterionId)).Nodup
  expected : ∀ item ∈ report.criteria, item.criterionId ∈ seed.criterionIds
  covered : ∀ c ∈ seed.contract.criteria, ∃ item ∈ report.criteria,
    item.criterionId = c.criterionId ∧ validateDisposition report item c = .ok ()
  gaps : ∀ finding ∈ report.findings,
    finding.criterionId ∈ seed.criterionIds ∨ finding.kind = .contractGap
  verdict : report.verdict = .changesRequired →
    (∃ finding ∈ report.findings, blocking seed finding = true) ∨ openBlocker state

omit [Sha256] in
/-- Coverage reads the findings of the state only. -/
theorem CompleteReport.congr {seed : ReviewSeed} {state state' : ReviewState}
    {report : ReviewReport} (h : CompleteReport seed state report) (hf : state'.findings = state.findings) :
    CompleteReport seed state' report := by
  refine { h with verdict := fun hv => (h.verdict hv).imp id ?_ }
  rintro ⟨item, hi, hb⟩
  refine ⟨item, ?_, hb⟩
  rw [mem_openFindings, hf]
  exact mem_openFindings.mp hi

omit [Sha256] in
theorem validateReport_ok {seed : ReviewSeed} {state : ReviewState} {report : ReviewReport}
    (h : validateReport seed state report = .ok ()) : CompleteReport seed state report := by
  unfold validateReport at h
  simp only [Except.seq_ok, require_ok, List.forM_ok, whenThat_ok] at h
  obtain ⟨⟨hc, hlen, hsub, hsup⟩, hitems, hgaps, hverdict⟩ := h
  have hn := Dict.nodup_of_length_keys hlen
  refine ⟨hc, hn, fun item hi => ?_, fun c hcm => ?_, fun f hf => ?_, hverdict⟩
  · exact Dict.mem_keys_ofValues.mp
      (hsub _ (Dict.mem_keys_ofValues.mpr (List.mem_map_of_mem hi)))
  · have hkey := hsup c.criterionId (Dict.mem_keys_ofValues.mpr (List.mem_map_of_mem hcm))
    obtain ⟨item, hi, hid⟩ := List.mem_map.mp (Dict.mem_keys_ofValues.mp hkey)
    have hlook : AList.lookup item.criterionId
        (Dict.ofValues (·.criterionId) seed.contract.criteria) = some c :=
      (Dict.lookup_ofValues_iff seed.contract.criteriaDistinct).mpr ⟨hcm, hid.symm⟩
    have hd := hitems item hi
    rw [hlook] at hd
    exact ⟨item, hi, hid, hd⟩
  · exact (hgaps f hf).imp Dict.mem_keys_ofValues.mp id

omit [Sha256] in
/-- A passed criterion carries every required piece of evidence. -/
theorem evidence_of_validateDisposition {report : ReviewReport} {item : CriterionDisposition}
    {criterion : QualityCriterion} (h : validateDisposition report item criterion = .ok ())
    (hp : item.status = .pass) :
    ∀ id ∈ criterion.requiredEvidence, ∃ e ∈ item.evidence, e.evidenceId = id := by
  unfold validateDisposition at h
  simp only [Except.seq_ok, require_ok, whenThat_ok] at h
  intro id hid
  exact List.mem_map.mp (h.1 hp id hid)

/-! ## 4. Eligibility -/

/-- The latest credited report fails the final-artifact exit on a criterion or its verdict. -/
def unmetCriteria (seed : ReviewSeed) (latest : ReviewReport) : Prop :=
  latest.verdict ≠ .accept ∨ ∃ item ∈ latest.criteria, item.status ≠ .pass ∧
    item.criterionId ∈ (seed.contract.criteria.filter (·.mandatory)).map (·.criterionId)

instance (seed : ReviewSeed) (latest : ReviewReport) : Decidable (unmetCriteria seed latest) :=
  inferInstanceAs (Decidable (_ ∨ ∃ item ∈ _, _))

/-- `review_rules.eligibility_reasons`. -/
def eligibilityReasons (seed : ReviewSeed) (state : ReviewState) : List ReviewReason :=
  (state.terminalReasons ++
    (if state.pending ≠ none then [ReviewReason.pending] else []) ++
    (if state.validCompletedReports.length < seed.policy.minReviewPasses then
      [ReviewReason.minReviews] else []) ++
    (if openBlocker state then [ReviewReason.openBlockers] else []) ++
    (match state.validCompletedReports.getLast? with
      | none => [ReviewReason.unreviewedArtifact]
      | some latest =>
          (if latest.binding ≠ state.artifact.binding then [ReviewReason.unreviewedArtifact]
            else []) ++
          (if unmetCriteria seed latest then [ReviewReason.mandatoryCriteria] else []))).eraseDups

/-- What an empty list of reasons says of a state. -/
structure Eligible (seed : ReviewSeed) (state : ReviewState) : Prop where
  terminal : state.terminalReasons = []
  pending : state.pending = none
  passes : seed.policy.minReviewPasses ≤ state.validCompletedReports.length
  blockers : ¬ openBlocker state
  latest : ∃ latest, state.validCompletedReports.getLast? = some latest ∧
    latest.binding = state.artifact.binding ∧ ¬ unmetCriteria seed latest

omit [Sha256] in
theorem eraseDups_eq_nil {l : List ReviewReason} : l.eraseDups = [] ↔ l = [] := by
  constructor
  · intro h
    refine List.eq_nil_iff_forall_not_mem.mpr fun r hr => ?_
    have := List.mem_eraseDups.mpr hr
    rw [h] at this
    exact List.not_mem_nil this
  · rintro rfl
    rfl

theorem eligibilityReasons_eq_nil {seed : ReviewSeed} {state : ReviewState} :
    eligibilityReasons seed state = [] ↔ Eligible seed state := by
  unfold eligibilityReasons
  rw [eraseDups_eq_nil]
  simp only [List.append_eq_nil_iff, ite_eq_right_iff, List.cons_ne_nil, imp_false, not_not,
    not_lt]
  constructor
  · rintro ⟨⟨⟨⟨ht, hp⟩, hm⟩, hb⟩, hl⟩
    cases hlast : state.validCompletedReports.getLast? with
    | none => simp [hlast] at hl
    | some latest =>
        rw [hlast] at hl
        simp only [List.append_eq_nil_iff, ite_eq_right_iff, List.cons_ne_nil, imp_false,
          not_not] at hl
        exact ⟨ht, hp, hm, hb, latest, hlast, hl.1, hl.2⟩
  · rintro ⟨ht, hp, hm, hb, latest, hlast, hbind, hcrit⟩
    refine ⟨⟨⟨⟨ht, hp⟩, hm⟩, hb⟩, ?_⟩
    simp [hlast, hbind, hcrit]

end NokincFactory
