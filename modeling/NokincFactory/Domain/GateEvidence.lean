/-
  File:      NokincFactory/Domain/GateEvidence.lean
  Subject:   `gate_evidence.py`: test evidence that a pipeline supplies, and the contract it is
             held against.

  Where the evidence comes from is not covered.

  * `GitSHA`, `CaseID`, `CaseResult`, `SuiteRun`: an observed run of a suite;
  * `scopedExpectations`: what a contract may expect, by the kind of its story;
  * `BaselineContract`, `TestEvidenceDecision`.
-/
import NokincFactory.Domain.ReviewBase

namespace NokincFactory

/-! ## 1. Runs -/

/-- The pattern `^(?:[0-9a-f]{40}|[0-9a-f]{64})$`. -/
def gitShaPattern (text : List Char) : Bool :=
  text.all (fun c => ('0' ≤ c && c ≤ '9') || ('a' ≤ c && c ≤ 'f')) &&
    (text.length = 40 || text.length = 64)

structure GitSHA where
  text : String
  pattern : gitShaPattern text.toList = true
deriving DecidableEq

def GitSHA.json (s : GitSHA) : Json := .text s.text

/-- A case identifier: not blank, and at most 1000 characters. -/
structure CaseID where
  text : String
  nonblank : text.toList.any (fun c => !isSpace c) = true
  short : text.length ≤ 1000

instance : DecidableEq CaseID := fun a b =>
  decidable_of_iff (a.text = b.text)
    ⟨fun h => by cases a; cases b; cases h; rfl, fun h => congrArg CaseID.text h⟩

def CaseID.json (c : CaseID) : Json := .text c.text

inductive CaseOutcome where
  | pass | assertionFailure | error | skipped
deriving DecidableEq

def CaseOutcome.value : CaseOutcome → String
  | .pass => "PASS"
  | .assertionFailure => "ASSERTION_FAILURE"
  | .error => "ERROR"
  | .skipped => "SKIPPED"

inductive StoryKind where
  | newBehavior | bugFix | refactor | infrastructure
deriving DecidableEq

def StoryKind.value : StoryKind → String
  | .newBehavior => "NEW_BEHAVIOR"
  | .bugFix => "BUG_FIX"
  | .refactor => "REFACTOR"
  | .infrastructure => "INFRASTRUCTURE"

variable [Sha256]

structure CaseResult where
  caseId : CaseID
  outcome : CaseOutcome
deriving DecidableEq

instance : ReviewModel CaseResult where
  dump c := [("case_id", c.caseId.json), ("outcome", .text c.outcome.value)]

/-- Identities that the runner supplies. -/
structure ProbeBinding where
  workItemId : Identifier
  runId : Identifier
  sourceSha : GitSHA
  suiteDigest : Digest
  runnerDigest : Digest
  environmentDigest : Digest
deriving DecidableEq

structure SuiteRun extends ProbeBinding where
  completed : Bool
  exitCode : ℕ
  collectionErrors : ℕ
  cases : List CaseResult
  exitCodeBound : exitCode ≤ 255
  collectionErrorsBound : collectionErrors ≤ 10000
  casesBound : cases.length ≤ 10000
  caseIds : (cases.map (·.caseId)).Nodup
deriving DecidableEq

instance : ReviewModel SuiteRun where
  dump r := [("work_item_id", r.workItemId.json), ("run_id", r.runId.json),
    ("source_sha", r.sourceSha.json), ("suite_digest", r.suiteDigest.json),
    ("runner_digest", r.runnerDigest.json), ("environment_digest", r.environmentDigest.json),
    ("completed", .bool r.completed), ("exit_code", .ofNat r.exitCode),
    ("collection_errors", .ofNat r.collectionErrors), ("cases", .tuple ReviewModel.json r.cases)]

/-! ## 2. Contracts -/

omit [Sha256] in
/-- `BaselineContract._scoped_expectations`. -/
def scopedExpectations (storyKind : StoryKind) (baselineSuiteDigest frozenSuiteDigest : Digest)
    (baselineCases frozenCases expectedRedCases : List CaseID) : Except ValueError Unit := do
  distinct baselineCases
  distinct frozenCases
  distinct expectedRedCases
  let before := baselineCases.toFinset
  let frozen := frozenCases.toFinset
  let red := expectedRedCases.toFinset
  if storyKind = .infrastructure then
    guardThat (red = ∅)
      (.message "Infrastructure-only baseline cannot claim behavior failures")
  else if before = ∅ ∨ frozen = ∅ ∨ ¬ before ⊆ frozen then
    .error (.message "Explicit old and frozen inventories must preserve existing cases")
  else if storyKind = .refactor then
    guardThat (¬ (red ≠ ∅ ∨ before ≠ frozen ∨ baselineSuiteDigest ≠ frozenSuiteDigest))
      (.message "Refactor characterization suite must be unchanged")
  else
    guardThat (¬ (red = ∅ ∨ ¬ red ⊆ frozen \ before))
      (.message "Expected red cases must be explicit new behavior/regression cases")

structure BaselineContract where
  workItemId : Identifier
  storyKind : StoryKind
  baselineSha : GitSHA
  baselineSuiteDigest : Digest
  frozenSuiteDigest : Digest
  runnerDigest : Digest
  environmentDigest : Digest
  baselineCases : List CaseID
  frozenCases : List CaseID
  expectedRedCases : List CaseID
  baselineCasesBound : baselineCases.length ≤ 10000
  frozenCasesBound : frozenCases.length ≤ 10000
  expectedRedCasesBound : expectedRedCases.length ≤ 10000
  expectations : scopedExpectations storyKind baselineSuiteDigest frozenSuiteDigest baselineCases
    frozenCases expectedRedCases = .ok ()

instance : ReviewModel BaselineContract where
  dump c := [("work_item_id", c.workItemId.json), ("story_kind", .text c.storyKind.value),
    ("baseline_sha", c.baselineSha.json), ("baseline_suite_digest", c.baselineSuiteDigest.json),
    ("frozen_suite_digest", c.frozenSuiteDigest.json), ("runner_digest", c.runnerDigest.json),
    ("environment_digest", c.environmentDigest.json),
    ("baseline_cases", .tuple CaseID.json c.baselineCases),
    ("frozen_cases", .tuple CaseID.json c.frozenCases),
    ("expected_red_cases", .tuple CaseID.json c.expectedRedCases)]

namespace BaselineContract

variable (c : BaselineContract)

omit [Sha256] in
/-- The inventories of a contract name each case once. -/
theorem inventories : c.baselineCases.Nodup ∧ c.frozenCases.Nodup ∧ c.expectedRedCases.Nodup := by
  have h := c.expectations
  unfold scopedExpectations at h
  obtain ⟨hbefore, h⟩ := Except.seq_ok.mp h
  obtain ⟨hfrozen, h⟩ := Except.seq_ok.mp h
  obtain ⟨hred, -⟩ := Except.seq_ok.mp h
  exact ⟨distinct_ok.mp hbefore, distinct_ok.mp hfrozen, distinct_ok.mp hred⟩

omit [Sha256] in
/-- Unless a story is of infrastructure, its old cases are kept, and what must fail is new. -/
theorem scopes (hkind : c.storyKind ≠ .infrastructure) :
    c.baselineCases ⊆ c.frozenCases ∧
      ∀ id ∈ c.expectedRedCases, id ∈ c.frozenCases ∧ id ∉ c.baselineCases := by
  have h := c.expectations
  unfold scopedExpectations at h
  obtain ⟨-, h⟩ := Except.seq_ok.mp h
  obtain ⟨-, h⟩ := Except.seq_ok.mp h
  obtain ⟨-, h⟩ := Except.seq_ok.mp h
  dsimp only at h
  rw [if_neg hkind] at h
  split at h
  · cases h
  · rename_i hkept
    have hsub : c.baselineCases.toFinset ⊆ c.frozenCases.toFinset := by
      by_contra hnot
      exact hkept (.inr (.inr hnot))
    refine ⟨fun id hid => List.mem_toFinset.mp (hsub (List.mem_toFinset.mpr hid)), ?_⟩
    split at h
    · have hsame := guardThat_ok.mp h
      have hnone : c.expectedRedCases.toFinset = ∅ := by
        by_contra hred
        exact hsame (.inl hred)
      intro id hid
      have hmem := List.mem_toFinset.mpr hid
      rw [hnone] at hmem
      cases hmem
    · have hnew := guardThat_ok.mp h
      have hred : c.expectedRedCases.toFinset ⊆
          c.frozenCases.toFinset \ c.baselineCases.toFinset := by
        by_contra hnot
        exact hnew (.inr hnot)
      intro id hid
      obtain ⟨hfrozen, hbefore⟩ := Finset.mem_sdiff.mp (hred (List.mem_toFinset.mpr hid))
      exact ⟨List.mem_toFinset.mp hfrozen, fun hid' => hbefore (List.mem_toFinset.mpr hid')⟩

end BaselineContract

/-! ## 3. Decisions -/

inductive EvidenceStatus where
  | pass | fail | notAvailable | notApplicable
deriving DecidableEq

/-- `evidence_scope` is always `DECLARED_EVIDENCE`, and `authorizes_merge` is always false. -/
structure TestEvidenceDecision where
  status : EvidenceStatus
  contractDigest : Digest
  evidenceDigests : List Digest
  reasons : List Identifier
deriving DecidableEq

end NokincFactory
