/-
  File:      NokincFactory/Domain/ReviewSession.lean
  Subject:   `review_session.py`: the attempt ledger of a session and the state it
             materialises.

  `Pydantic` names the parsing and dumping of the models that the policy asks of
  pydantic: the reports a completion delivers as text.
-/
import NokincFactory.Domain.ReviewReport

namespace NokincFactory

variable [Sha256]

/-! ## 1. Seed, invocations and completions -/

structure ReviewSeed where
  scope : ReviewScope
  contract : QualityContract
  policy : ReviewPolicy
  originalDoer : ModelIdentity
  reviewers : List ModelIdentity
  initialArtifact : ArtifactRef
  startedAt : Moment
deriving DecidableEq

instance : ReviewModel ReviewSeed where
  dump s := [("scope", ReviewModel.json s.scope), ("contract", ReviewModel.json s.contract),
    ("policy", ReviewModel.json s.policy), ("original_doer", ReviewModel.json s.originalDoer),
    ("reviewers", .tuple ReviewModel.json s.reviewers),
    ("initial_artifact", ReviewModel.json s.initialArtifact), ("started_at", s.startedAt.json)]

inductive InvocationKind where
  | review | repair
deriving DecidableEq

def InvocationKind.value : InvocationKind → String
  | .review => "REVIEW"
  | .repair => "REPAIR"

structure Invocation where
  invocationId : Identifier
  kind : InvocationKind
  binding : ReviewBinding
  actor : ModelIdentity
  reservation : Reservation
  startedAt : Moment
deriving DecidableEq

instance : ReviewModel Invocation where
  dump i := [("invocation_id", i.invocationId.json), ("kind", .text i.kind.value),
    ("binding", ReviewModel.json i.binding), ("actor", ReviewModel.json i.actor),
    ("reservation", ReviewModel.json i.reservation), ("started_at", i.startedAt.json)]

/-- A trusted adapter's observation of one execution. -/
structure InvocationReceipt where
  binding : ReviewBinding
  invocationId : Identifier
  executionId : Identifier
  actualModel : ModelIdentity
  usage : Usage
  cached : Bool
deriving DecidableEq

instance : ReviewModel InvocationReceipt where
  dump r := [("binding", ReviewModel.json r.binding), ("invocation_id", r.invocationId.json),
    ("execution_id", r.executionId.json), ("actual_model", ReviewModel.json r.actualModel),
    ("usage", ReviewModel.json r.usage), ("cached", .bool r.cached)]

inductive ExecutionStop where
  | artifactDrift | timeWindow | authorizationRevoked | executionInvalid | outputLimit
deriving DecidableEq

/-- `ReviewReason(stop)`. -/
def ExecutionStop.reason : ExecutionStop → ReviewReason
  | .artifactDrift => .artifactDrift
  | .timeWindow => .timeWindow
  | .authorizationRevoked => .authorizationRevoked
  | .executionInvalid => .executionInvalid
  | .outputLimit => .outputLimit

structure Completion where
  invocationId : Identifier
  finishedAt : Moment
  receipt : Option InvocationReceipt
  outputJson : Option String
  failureReason : Option ExecutionStop
deriving DecidableEq

instance : ReviewModel Completion where
  dump c := [("invocation_id", c.invocationId.json), ("finished_at", c.finishedAt.json),
    ("receipt", .optional ReviewModel.json c.receipt),
    ("output_json", .optional Json.text c.outputJson),
    ("failure_reason", .optional (fun s => Json.text s.reason.value) c.failureReason)]

structure ReviewAttempt where
  invocation : Invocation
  completion : Option Completion
deriving DecidableEq

instance : ReviewModel ReviewAttempt where
  dump a := [("invocation", ReviewModel.json a.invocation),
    ("completion", .optional ReviewModel.json a.completion)]

/-! ## 2. The materialised state -/

structure FindingRecord where
  finding : Finding
  reportDigest : Digest
  blocking : Bool
  occurrences : Nat := 0
  closedBy : Option Digest := none
  closedArtifactDigest : Option Digest := none
deriving DecidableEq

instance : ReviewModel FindingRecord where
  dump r := [("finding", ReviewModel.json r.finding), ("report_digest", r.reportDigest.json),
    ("blocking", .bool r.blocking), ("occurrences", .ofNat r.occurrences),
    ("closed_by", .optional Digest.json r.closedBy),
    ("closed_artifact_digest", .optional Digest.json r.closedArtifactDigest)]

/-- `record.finding.fingerprint`, the key of a record. -/
def FindingRecord.fingerprint (r : FindingRecord) : Digest := r.finding.fingerprint

structure ResolutionRecord where
  resolution : FindingResolution
  repairInvocationId : Identifier
  artifactDigest : Digest
  producer : ModelIdentity
deriving DecidableEq

instance : ReviewModel ResolutionRecord where
  dump r := [("resolution", ReviewModel.json r.resolution),
    ("repair_invocation_id", r.repairInvocationId.json),
    ("artifact_digest", r.artifactDigest.json), ("producer", ReviewModel.json r.producer)]

structure FailureCount where
  reason : ReviewReason
  occurrences : Nat
deriving DecidableEq

instance : ReviewModel FailureCount where
  dump f := [("reason", .text f.reason.value), ("occurrences", .ofNat f.occurrences)]

structure BudgetState where
  invocations : Nat := 0
  repairs : Nat := 0
  tokensSpent : Nat := 0
  costMicrousdSpent : Nat := 0
  tokensReserved : Nat := 0
  costMicrousdReserved : Nat := 0
deriving DecidableEq

instance : ReviewModel BudgetState where
  dump b := [("invocations", .ofNat b.invocations), ("repairs", .ofNat b.repairs),
    ("tokens_spent", .ofNat b.tokensSpent),
    ("cost_microusd_spent", .ofNat b.costMicrousdSpent),
    ("tokens_reserved", .ofNat b.tokensReserved),
    ("cost_microusd_reserved", .ofNat b.costMicrousdReserved)]

structure ReviewState where
  artifact : ArtifactRef
  lastAt : Moment
  budget : BudgetState
  pending : Option Invocation := none
  invocationIds : List Identifier := []
  executionIds : List Digest := []
  validCompletedReports : List ReviewReport := []
  findings : List FindingRecord := []
  resolutions : List ResolutionRecord := []
  failures : List FailureCount := []
  terminalReasons : List ReviewReason := []
deriving DecidableEq

instance : ReviewModel ReviewState where
  dump s := [("artifact", ReviewModel.json s.artifact), ("last_at", s.lastAt.json),
    ("budget", ReviewModel.json s.budget), ("pending", .optional ReviewModel.json s.pending),
    ("invocation_ids", .tuple Identifier.json s.invocationIds),
    ("execution_ids", .tuple Digest.json s.executionIds),
    ("valid_completed_reports", .tuple ReviewModel.json s.validCompletedReports),
    ("findings", .tuple ReviewModel.json s.findings),
    ("resolutions", .tuple ReviewModel.json s.resolutions),
    ("failures", .tuple ReviewModel.json s.failures),
    ("terminal_reasons", .tuple (fun r => Json.text r.value) s.terminalReasons)]

/-- `ReviewState.open_findings`. -/
def ReviewState.openFindings (s : ReviewState) : List FindingRecord :=
  s.findings.filter fun item => item.closedBy = none

structure ReviewSession where
  seed : ReviewSeed
  attempts : List ReviewAttempt
  state : ReviewState
deriving DecidableEq

instance : ReviewModel ReviewSession where
  dump s := [("seed", ReviewModel.json s.seed),
    ("attempts", .tuple ReviewModel.json s.attempts), ("state", ReviewModel.json s.state)]

/-! ## 3. Decisions -/

inductive DecisionStatus where
  | eligible | needsReview | needsRepair | blocked | escalate
deriving DecidableEq

structure ReviewDecision where
  status : DecisionStatus
  reasons : List ReviewReason
  sessionDigest : Digest
  artifactDigest : Digest
  completedReviews : Nat
deriving DecidableEq

/-! ## 4. What is asked of pydantic -/

/-- Parsing a delivered report from its JSON text (`none` where validation raises) and
    dumping one to it. -/
class Pydantic where
  reviewReport : String → Option ReviewReport
  repairReport : String → Option RepairReport
  reviewReportJson : ReviewReport → String
  repairReportJson : RepairReport → String

/-- `ReviewReport.model_validate_json`. -/
def ReviewReport.modelValidateJson [Pydantic] (text : String) :
    Except ValueError ReviewReport :=
  match Pydantic.reviewReport text with
  | some report => .ok report
  | none => .error (.message "ValidationError")

/-- `RepairReport.model_validate_json`. -/
def RepairReport.modelValidateJson [Pydantic] (text : String) :
    Except ValueError RepairReport :=
  match Pydantic.repairReport text with
  | some report => .ok report
  | none => .error (.message "ValidationError")

end NokincFactory
