/-
  File:      NokincFactory/Policy/Baseline.lean
  Subject:   `baseline.py`: what must fail before a change, and pass after it.

  That a run is of the commit it names is evidence which is supplied, and not shown.

  * `verifyBaseline`, `verifyCandidate`: the two decisions;
  * `Bound`, `Shows`: what a run without objections is (`identity_nil`, `outcomes_nil`);
  * `baseline_to_candidate`: what both decisions say together.
-/
import NokincFactory.Domain.GateEvidence
import NokincFactory.Lib.Dict

namespace NokincFactory

/-! ## 1. Objections -/

inductive EvidenceReason where
  | workItemMismatch | sourceMismatch | suiteMismatch | runnerMismatch | environmentMismatch
  | incompleteExecution | collectionErrors | inventoryMismatch | unexpectedProcessExit
  | unexpectedTestOutcome | replayedRun | infrastructureOnly | missingBaselineExecution
  | missingCandidateExecution
deriving DecidableEq

def EvidenceReason.value : EvidenceReason → String
  | .workItemMismatch => "WORK_ITEM_MISMATCH"
  | .sourceMismatch => "SOURCE_MISMATCH"
  | .suiteMismatch => "SUITE_MISMATCH"
  | .runnerMismatch => "RUNNER_MISMATCH"
  | .environmentMismatch => "ENVIRONMENT_MISMATCH"
  | .incompleteExecution => "INCOMPLETE_EXECUTION"
  | .collectionErrors => "COLLECTION_ERRORS"
  | .inventoryMismatch => "INVENTORY_MISMATCH"
  | .unexpectedProcessExit => "UNEXPECTED_PROCESS_EXIT"
  | .unexpectedTestOutcome => "UNEXPECTED_TEST_OUTCOME"
  | .replayedRun => "REPLAYED_RUN"
  | .infrastructureOnly => "INFRASTRUCTURE_ONLY"
  | .missingBaselineExecution => "MISSING_BASELINE_EXECUTION"
  | .missingCandidateExecution => "MISSING_CANDIDATE_EXECUTION"

/-- A reason in a decision. -/
def EvidenceReason.identifier (r : EvidenceReason) : Identifier :=
  ⟨r.value, by cases r <;> decide⟩

/-- `_identity`. -/
def identityReasons (contract : BaselineContract) (run : SuiteRun) (source : GitSHA)
    (suite : Digest) : List EvidenceReason :=
  let checks : List (Bool × EvidenceReason) :=
    [(run.workItemId = contract.workItemId, .workItemMismatch),
     (run.sourceSha = source, .sourceMismatch),
     (run.suiteDigest = suite, .suiteMismatch),
     (run.runnerDigest = contract.runnerDigest, .runnerMismatch),
     (run.environmentDigest = contract.environmentDigest, .environmentMismatch),
     (run.completed, .incompleteExecution),
     (run.collectionErrors = 0, .collectionErrors)]
  (checks.filter fun check => !check.1).map (·.2)

/-- `_outcomes`. -/
def outcomeReasons (run : SuiteRun) (expected red : List CaseID) : List EvidenceReason :=
  let actual := Dict.ofValues CaseResult.caseId run.cases
  (if actual.keys.toFinset ≠ expected.toFinset ∨ expected = [] then [.inventoryMismatch]
    else []) ++
  (if run.exitCode ≠ (if red = [] then 0 else 1) then [.unexpectedProcessExit] else []) ++
  (expected.filter fun caseId => (AList.lookup caseId actual).map (·.outcome) ≠
    some (if caseId ∈ red then .assertionFailure else .pass)).map fun _ => .unexpectedTestOutcome

/-! ## 2. Decisions -/

/-- `TypeAdapter(GitSHA).validate_python`. -/
def validGitSHA (text : String) : Except ValueError GitSHA :=
  if h : gitShaPattern text.toList = true then .ok ⟨text, h⟩
  else .error (.message "String should match pattern")

section Decisions

variable [Sha256]

/-- `_decision`. -/
def evidenceDecision (contract : BaselineContract) (reports : List SuiteRun)
    (reasons : List EvidenceReason) : TestEvidenceDecision where
  status := if reasons = [] then .pass else .fail
  contractDigest := contentDigest contract
  evidenceDigests := reports.map contentDigest
  reasons := reasons.eraseDups.map (·.identifier)

def verifyBaseline (contract : BaselineContract) (before frozenOnBaseline : Option SuiteRun) :
    TestEvidenceDecision :=
  if contract.storyKind = .infrastructure then
    ⟨.notApplicable, contentDigest contract, [], [EvidenceReason.infrastructureOnly.identifier]⟩
  else
    match before, frozenOnBaseline with
    | some before, some frozen =>
        evidenceDecision contract [before, frozen]
          (identityReasons contract before contract.baselineSha contract.baselineSuiteDigest ++
            identityReasons contract frozen contract.baselineSha contract.frozenSuiteDigest ++
            (if before.runId = frozen.runId then [.replayedRun] else []) ++
            outcomeReasons before contract.baselineCases [] ++
            outcomeReasons frozen contract.frozenCases contract.expectedRedCases)
    | _, _ => ⟨.notAvailable, contentDigest contract, [],
        [EvidenceReason.missingBaselineExecution.identifier]⟩

def verifyCandidate (contract : BaselineContract) (candidateSha : String)
    (candidate : Option SuiteRun) : Except ValueError TestEvidenceDecision := do
  let candidateSha ← validGitSHA candidateSha
  match candidate with
  | none => pure ⟨.notAvailable, contentDigest contract, [],
      [EvidenceReason.missingCandidateExecution.identifier]⟩
  | some candidate =>
      pure (evidenceDecision contract [candidate]
        (identityReasons contract candidate candidateSha contract.frozenSuiteDigest ++
          outcomeReasons candidate contract.frozenCases []))

end Decisions

/-! ## 3. Runs without objections -/

/-- A run is a completed one of the source and the suite that are meant. -/
structure Bound (contract : BaselineContract) (run : SuiteRun) (source : GitSHA) (suite : Digest) :
    Prop where
  workItem : run.workItemId = contract.workItemId
  source : run.sourceSha = source
  suite : run.suiteDigest = suite
  runner : run.runnerDigest = contract.runnerDigest
  environment : run.environmentDigest = contract.environmentDigest
  completed : run.completed = true
  collected : run.collectionErrors = 0

/-- A run has each case that is expected, and no other; those that must fail do, and no other. -/
structure Shows (run : SuiteRun) (expected red : List CaseID) : Prop where
  inventory : (run.cases.map (·.caseId)).Perm expected
  exitCode : run.exitCode = if red = [] then 0 else 1
  outcome : ∀ c ∈ run.cases, c.outcome = if c.caseId ∈ red then .assertionFailure else .pass

section Objections

variable {contract : BaselineContract} {run : SuiteRun} {source : GitSHA} {suite : Digest}
  {expected red : List CaseID}

theorem identity_nil : identityReasons contract run source suite = [] ↔
    Bound contract run source suite := by
  unfold identityReasons
  dsimp only
  rw [List.map_eq_nil_iff, List.filter_eq_nil_iff]
  simp only [List.mem_cons, List.not_mem_nil, or_false, forall_eq_or_imp, forall_eq,
    Bool.not_eq_true, Bool.not_eq_false', decide_eq_true_eq]
  constructor
  · intro ⟨hitem, hsource, hsuite, hrunner, henvironment, hcompleted, hcollected⟩
    exact ⟨hitem, hsource, hsuite, hrunner, henvironment, hcompleted, hcollected⟩
  · intro h
    exact ⟨h.workItem, h.source, h.suite, h.runner, h.environment, h.completed, h.collected⟩

/-- The outcome of a case. -/
theorem lookup_outcome {caseId : CaseID} {outcome : CaseOutcome} :
    (AList.lookup caseId (Dict.ofValues CaseResult.caseId run.cases)).map (·.outcome) =
      some outcome ↔ ⟨caseId, outcome⟩ ∈ run.cases := by
  rw [Option.map_eq_some_iff]
  constructor
  · intro ⟨c, hc, houtcome⟩
    obtain ⟨hmem, hid⟩ := (Dict.lookup_ofValues_iff run.caseIds).mp hc
    cases c
    cases hid
    cases houtcome
    exact hmem
  · intro h
    exact ⟨_, (Dict.lookup_ofValues_iff run.caseIds).mpr ⟨h, rfl⟩, rfl⟩

theorem outcomes_nil (hexpected : expected.Nodup) :
    outcomeReasons run expected red = [] ↔ expected ≠ [] ∧ Shows run expected red := by
  unfold outcomeReasons
  dsimp only
  rw [List.append_eq_nil_iff, List.append_eq_nil_iff, List.map_eq_nil_iff, List.filter_eq_nil_iff]
  have hkeys : (Dict.ofValues CaseResult.caseId run.cases).keys.toFinset = expected.toFinset ↔
      (run.cases.map (·.caseId)).Perm expected := by
    rw [List.perm_ext_iff_of_nodup run.caseIds hexpected, Finset.ext_iff]
    refine forall_congr' fun id => ?_
    rw [List.mem_toFinset, List.mem_toFinset, Dict.mem_keys_ofValues]
  constructor
  · intro ⟨⟨hinventory, hexit⟩, houtcomes⟩
    have hkept : ¬ ((Dict.ofValues CaseResult.caseId run.cases).keys.toFinset ≠ expected.toFinset ∨
        expected = []) := by
      intro hmismatch
      rw [if_pos hmismatch] at hinventory
      cases hinventory
    have hperm := hkeys.mp (not_not.mp fun hne => hkept (.inl hne))
    refine ⟨fun hnone => hkept (.inr hnone), hperm, ?_, fun c hc => ?_⟩
    · by_contra hne
      rw [if_pos hne] at hexit
      cases hexit
    · have hid : c.caseId ∈ expected := hperm.mem_iff.mp (List.mem_map_of_mem hc)
      have hlookup := houtcomes c.caseId hid
      rw [decide_eq_true_eq, not_not] at hlookup
      have hmem := lookup_outcome.mp hlookup
      exact congrArg CaseResult.outcome
        (List.inj_on_of_nodup_map run.caseIds hc hmem rfl)
  · intro ⟨hsome, h⟩
    refine ⟨⟨?_, ?_⟩, fun id hid => ?_⟩
    · refine if_neg fun hmismatch => ?_
      rcases hmismatch with hne | hnone
      · exact hne (hkeys.mpr h.inventory)
      · exact hsome hnone
    · exact if_neg fun hne => hne h.exitCode
    · obtain ⟨c, hc, rfl⟩ := List.mem_map.mp (h.inventory.mem_iff.mpr hid)
      rw [decide_eq_true_eq, not_not, lookup_outcome, ← h.outcome c hc]
      exact hc

end Objections

/-! ## 4. Decisions that pass -/

section Passed

variable [Sha256] {contract : BaselineContract}

theorem evidenceDecision_pass {reports : List SuiteRun} {reasons : List EvidenceReason} :
    (evidenceDecision contract reports reasons).status = .pass ↔ reasons = [] := by
  unfold evidenceDecision
  by_cases h : reasons = []
  · simp [h]
  · simp [h]

/-- A baseline passes if and only if both runs are as they must be, and are two runs. -/
theorem baseline_pass {before frozen : Option SuiteRun} :
    (verifyBaseline contract before frozen).status = .pass ↔
      contract.storyKind ≠ .infrastructure ∧ ∃ b f, before = some b ∧ frozen = some f ∧
        Bound contract b contract.baselineSha contract.baselineSuiteDigest ∧
        Bound contract f contract.baselineSha contract.frozenSuiteDigest ∧ b.runId ≠ f.runId ∧
        (contract.baselineCases ≠ [] ∧ Shows b contract.baselineCases []) ∧
        contract.frozenCases ≠ [] ∧ Shows f contract.frozenCases contract.expectedRedCases := by
  unfold verifyBaseline
  by_cases hkind : contract.storyKind = .infrastructure
  · simp [hkind]
  · rw [if_neg hkind]
    cases before with
    | none => simp
    | some b =>
        cases frozen with
        | none => simp
        | some f =>
            dsimp only
            rw [evidenceDecision_pass, List.append_eq_nil_iff, List.append_eq_nil_iff,
              List.append_eq_nil_iff, List.append_eq_nil_iff, identity_nil, identity_nil,
              outcomes_nil contract.inventories.1, outcomes_nil contract.inventories.2.1]
            constructor
            · intro ⟨⟨⟨⟨hb, hf⟩, hreplayed⟩, hbefore⟩, hfrozen⟩
              refine ⟨hkind, b, f, rfl, rfl, hb, hf, fun hsame => ?_, hbefore, hfrozen⟩
              rw [if_pos hsame] at hreplayed
              cases hreplayed
            · intro ⟨_, _, _, hb', hf', hb, hf, hfresh, hbefore, hfrozen⟩
              cases hb'
              cases hf'
              exact ⟨⟨⟨⟨hb, hf⟩, if_neg hfresh⟩, hbefore⟩, hfrozen⟩

/-- A candidate passes if and only if its run is as it must be. -/
theorem candidate_pass {sha : String} {candidate : Option SuiteRun} :
    (∃ decision, verifyCandidate contract sha candidate = .ok decision ∧
      decision.status = .pass) ↔
      ∃ source c, validGitSHA sha = .ok source ∧ candidate = some c ∧
        Bound contract c source contract.frozenSuiteDigest ∧
        contract.frozenCases ≠ [] ∧ Shows c contract.frozenCases [] := by
  unfold verifyCandidate
  cases hsha : validGitSHA sha with
  | error e => simp [bind, Except.bind]
  | ok source =>
      rw [Except.ok_bind]
      cases candidate with
      | none => simp [Except.pure_ok]
      | some c =>
          have hpass : (evidenceDecision contract [c]
              (identityReasons contract c source contract.frozenSuiteDigest ++
                outcomeReasons c contract.frozenCases [])).status = .pass ↔
              Bound contract c source contract.frozenSuiteDigest ∧
                contract.frozenCases ≠ [] ∧ Shows c contract.frozenCases [] := by
            rw [evidenceDecision_pass, List.append_eq_nil_iff, identity_nil,
              outcomes_nil contract.inventories.2.1]
          constructor
          · intro ⟨decision, hdecision, hstatus⟩
            obtain rfl := Except.pure_ok.mp hdecision
            exact ⟨source, c, rfl, rfl, hpass.mp hstatus⟩
          · intro ⟨_, _, hsource, hc, h⟩
            cases hsource
            cases hc
            exact ⟨_, rfl, hpass.mpr h⟩

end Passed

/-! ## 5. From the baseline to the candidate -/

/-- What three runs say together, the first two of the baseline and the last of a candidate. -/
structure Proven (contract : BaselineContract) (source : GitSHA) (before frozen candidate : SuiteRun) :
    Prop where
  old : ∀ id ∈ contract.baselineCases, ⟨id, .pass⟩ ∈ before.cases ∧ ⟨id, .pass⟩ ∈ frozen.cases ∧
    ⟨id, .pass⟩ ∈ candidate.cases
  red : ∀ id ∈ contract.expectedRedCases, id ∉ contract.baselineCases ∧
    ⟨id, .assertionFailure⟩ ∈ frozen.cases ∧ ⟨id, .pass⟩ ∈ candidate.cases
  other : ∀ id ∈ contract.frozenCases, id ∉ contract.expectedRedCases →
    ⟨id, .pass⟩ ∈ frozen.cases ∧ ⟨id, .pass⟩ ∈ candidate.cases
  beforeCases : (before.cases.map (·.caseId)).Perm contract.baselineCases
  frozenCases : (frozen.cases.map (·.caseId)).Perm contract.frozenCases
  candidateCases : (candidate.cases.map (·.caseId)).Perm contract.frozenCases
  once : (before.cases.map (·.caseId)).Nodup ∧ (frozen.cases.map (·.caseId)).Nodup ∧
    (candidate.cases.map (·.caseId)).Nodup
  exitCodes : before.exitCode = 0 ∧
    frozen.exitCode = (if contract.expectedRedCases = [] then 0 else 1) ∧ candidate.exitCode = 0
  beforeBound : Bound contract before contract.baselineSha contract.baselineSuiteDigest
  frozenBound : Bound contract frozen contract.baselineSha contract.frozenSuiteDigest
  candidateBound : Bound contract candidate source contract.frozenSuiteDigest
  fresh : before.runId ≠ frozen.runId

/-- A case that is expected and must not fail passes. -/
theorem Shows.passes {run : SuiteRun} {expected red : List CaseID} (h : Shows run expected red)
    {id : CaseID} (hid : id ∈ expected) (hred : id ∉ red) : ⟨id, .pass⟩ ∈ run.cases := by
  obtain ⟨c, hc, rfl⟩ := List.mem_map.mp (h.inventory.mem_iff.mpr hid)
  have houtcome := h.outcome c hc
  rw [if_neg hred] at houtcome
  rw [← houtcome]
  exact hc

theorem Shows.fails {run : SuiteRun} {expected red : List CaseID} (h : Shows run expected red)
    {id : CaseID} (hid : id ∈ expected) (hred : id ∈ red) :
    ⟨id, .assertionFailure⟩ ∈ run.cases := by
  obtain ⟨c, hc, rfl⟩ := List.mem_map.mp (h.inventory.mem_iff.mpr hid)
  have houtcome := h.outcome c hc
  rw [if_pos hred] at houtcome
  rw [← houtcome]
  exact hc

/-- Evidence from the baseline to the candidate. If both decisions pass, the runs are there; old
cases pass in all three; red ones are new, fail on the baseline and pass in the candidate; the
others pass in both; inventories, exit codes, sources, suites, runner and environment are those
of the contract. And no run is accepted on the baseline and, by any contract, as a candidate,
unless no case is red. -/
theorem baseline_to_candidate [Sha256] {contract : BaselineContract}
    {before frozen candidate : Option SuiteRun} {sha : String}
    (hbaseline : (verifyBaseline contract before frozen).status = .pass)
    (hcandidate : ∃ decision, verifyCandidate contract sha candidate = .ok decision ∧
      decision.status = .pass) :
    ∃ b f c source, before = some b ∧ frozen = some f ∧ candidate = some c ∧ source.text = sha ∧
      Proven contract source b f c ∧
      ∀ contract' sha', (∃ decision, verifyCandidate contract' sha' (some f) = .ok decision ∧
        decision.status = .pass) → contract.expectedRedCases = [] := by
  obtain ⟨hkind, b, f, rfl, rfl, hb, hf, hfresh, ⟨-, hbefore⟩, -, hfrozen⟩ :=
    baseline_pass.mp hbaseline
  obtain ⟨source, c, hsource, rfl, hc, -, hgreen⟩ := candidate_pass.mp hcandidate
  obtain ⟨hkept, hnew⟩ := contract.scopes hkind
  have htext : source.text = sha := by
    unfold validGitSHA at hsource
    split at hsource
    · cases hsource
      rfl
    · cases hsource
  have hold : ∀ id ∈ contract.baselineCases, id ∉ contract.expectedRedCases :=
    fun id hid hred => (hnew id hred).2 hid
  refine ⟨b, f, c, source, rfl, rfl, rfl, htext, ⟨fun id hid => ?_, fun id hid => ?_,
    fun id hid hred => ?_, hbefore.inventory, hfrozen.inventory, hgreen.inventory,
    ⟨b.caseIds, f.caseIds, c.caseIds⟩, ⟨hbefore.exitCode, hfrozen.exitCode, hgreen.exitCode⟩, hb,
    hf, hc, hfresh⟩, fun contract' sha' hagain => ?_⟩
  · exact ⟨hbefore.passes hid List.not_mem_nil, hfrozen.passes (hkept hid) (hold id hid),
      hgreen.passes (hkept hid) List.not_mem_nil⟩
  · obtain ⟨hmem, hnot⟩ := hnew id hid
    exact ⟨hnot, hfrozen.fails hmem hid, hgreen.passes hmem List.not_mem_nil⟩
  · exact ⟨hfrozen.passes hid hred, hgreen.passes hid List.not_mem_nil⟩
  · -- the exit codes of the two uses differ
    obtain ⟨_, f', -, hf', -, -, hagain⟩ := candidate_pass.mp hagain
    cases hf'
    by_contra hred
    have hexit := hfrozen.exitCode
    rw [if_neg hred, hagain.exitCode] at hexit
    cases hexit

/-! ## A story with one new case -/

namespace StoryFixture

scoped instance sha256 : Sha256 where
  digest text := ⟨BitVec.ofNat 256 text.length⟩

def baseline : GitSHA := ⟨"00000000000000000000000000000000deadbeef", by decide⟩

def changed : GitSHA := ⟨"00000000000000000000000000000000cafebabe", by decide⟩

def old : CaseID := ⟨"test_refund", by decide, by decide⟩

def new : CaseID := ⟨"test_partial_refund", by decide, by decide⟩

def contract : BaselineContract where
  workItemId := ⟨"wi-1", by decide⟩
  storyKind := .newBehavior
  baselineSha := baseline
  baselineSuiteDigest := ⟨1⟩
  frozenSuiteDigest := ⟨2⟩
  runnerDigest := ⟨3⟩
  environmentDigest := ⟨4⟩
  baselineCases := [old]
  frozenCases := [old, new]
  expectedRedCases := [new]
  baselineCasesBound := by decide
  frozenCasesBound := by decide
  expectedRedCasesBound := by decide
  expectations := by decide +kernel

/-- The old suite on the baseline. -/
def before : SuiteRun where
  workItemId := ⟨"wi-1", by decide⟩
  runId := ⟨"run-1", by decide⟩
  sourceSha := baseline
  suiteDigest := ⟨1⟩
  runnerDigest := ⟨3⟩
  environmentDigest := ⟨4⟩
  completed := true
  exitCode := 0
  collectionErrors := 0
  cases := [⟨old, .pass⟩]
  exitCodeBound := by decide
  collectionErrorsBound := by decide
  casesBound := by decide
  caseIds := by decide +kernel

/-- The frozen suite on a source. -/
def frozen (source : GitSHA) (red : Bool) : SuiteRun where
  workItemId := ⟨"wi-1", by decide⟩
  runId := ⟨"run-2", by decide⟩
  sourceSha := source
  suiteDigest := ⟨2⟩
  runnerDigest := ⟨3⟩
  environmentDigest := ⟨4⟩
  completed := true
  exitCode := if red then 1 else 0
  collectionErrors := 0
  cases := [⟨new, if red then .assertionFailure else .pass⟩, ⟨old, .pass⟩]
  exitCodeBound := by cases red <;> decide
  collectionErrorsBound := by decide
  casesBound := by cases red <;> decide
  caseIds := by cases red <;> decide +kernel

theorem candidate_accepted : ∃ decision, verifyCandidate contract changed.text
    (some (frozen changed false)) = .ok decision ∧ decision.status = .pass :=
  ⟨_, rfl, by decide +kernel⟩

end StoryFixture

open StoryFixture in
theorem baseline_to_candidate_story :
    Proven contract changed before (frozen baseline true) (frozen changed false) := by
  have hbaseline : (verifyBaseline contract (some before) (some (frozen baseline true))).status =
      .pass := by
    decide +kernel
  obtain ⟨b, f, c, source, hb, hf, hc, hsource, hproven, -⟩ :=
    baseline_to_candidate hbaseline candidate_accepted
  cases hb
  cases hf
  cases hc
  obtain rfl : source = changed := by
    cases source
    cases hsource
    rfl
  exact hproven

end NokincFactory
