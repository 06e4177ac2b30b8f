/-
  File:      NokincFactory/Domain/ReviewReport.lean
  Subject:   `review_report.py`: structured review and repair reports.

  A finding's `fingerprint` is derived from its criterion, behaviour and cause keys
  (the source recomputes it and rejects any other), so it is a function here.
-/
import NokincFactory.Domain.Review

namespace NokincFactory

variable [Sha256]

inductive Disposition where
  | pass | fail | unknown | notApplicable
deriving DecidableEq

def Disposition.value : Disposition → String
  | .pass => "PASS"
  | .fail => "FAIL"
  | .unknown => "UNKNOWN"
  | .notApplicable => "NOT_APPLICABLE"

inductive Verdict where
  | accept | changesRequired | escalate | contextGap | contractGap
deriving DecidableEq

def Verdict.value : Verdict → String
  | .accept => "ACCEPT"
  | .changesRequired => "CHANGES_REQUIRED"
  | .escalate => "ESCALATE"
  | .contextGap => "CONTEXT_GAP"
  | .contractGap => "CONTRACT_GAP"

/-- A pinned observation of one artifact. -/
structure Evidence where
  evidenceId : Identifier
  digest : Digest
  artifactDigest : Digest
  observation : Text
deriving DecidableEq

instance : ReviewModel Evidence where
  dump e := [("evidence_id", e.evidenceId.json), ("digest", e.digest.json),
    ("artifact_digest", e.artifactDigest.json), ("observation", e.observation.json)]

structure CriterionDisposition where
  criterionId : Identifier
  status : Disposition
  evidence : List Evidence
  evidenceDistinct : (evidence.map (·.evidenceId)).Nodup
deriving DecidableEq

instance : ReviewModel CriterionDisposition where
  dump d := [("criterion_id", d.criterionId.json), ("status", .text d.status.value),
    ("evidence", .tuple ReviewModel.json d.evidence)]

inductive Severity where
  | low | medium | high | critical
deriving DecidableEq

def Severity.value : Severity → String
  | .low => "LOW"
  | .medium => "MEDIUM"
  | .high => "HIGH"
  | .critical => "CRITICAL"

inductive FindingKind where
  | defect | evidenceGap | advisory | contractGap
deriving DecidableEq

def FindingKind.value : FindingKind → String
  | .defect => "DEFECT"
  | .evidenceGap => "EVIDENCE_GAP"
  | .advisory => "ADVISORY"
  | .contractGap => "CONTRACT_GAP"

structure Finding where
  criterionId : Identifier
  behaviorId : Identifier
  causeId : Identifier
  severity : Severity
  kind : FindingKind
  artifactDigest : Digest
  location : Text
  scenario : Text
  evidence : List Evidence
  consequence : Text
  correction : Text
  requiredRecheck : Text
  evidenceNonempty : evidence ≠ []
deriving DecidableEq

/-- `Finding.fingerprint`: stable across wording, severity, model and artifact. -/
def Finding.fingerprint (f : Finding) : Digest :=
  (Json.arr [f.criterionId.json, f.behaviorId.json, f.causeId.json]).contentDigest

instance : ReviewModel Finding where
  dump f := [("criterion_id", f.criterionId.json), ("behavior_id", f.behaviorId.json),
    ("cause_id", f.causeId.json), ("severity", .text f.severity.value),
    ("kind", .text f.kind.value), ("artifact_digest", f.artifactDigest.json),
    ("location", f.location.json), ("scenario", f.scenario.json),
    ("evidence", .tuple ReviewModel.json f.evidence), ("consequence", f.consequence.json),
    ("correction", f.correction.json), ("required_recheck", f.requiredRecheck.json),
    ("fingerprint", f.fingerprint.json)]

inductive ResolutionDisposition where
  | fixed | rejectedWithEvidence | deferredAdvisory
deriving DecidableEq

def ResolutionDisposition.value : ResolutionDisposition → String
  | .fixed => "FIXED"
  | .rejectedWithEvidence => "REJECTED_WITH_EVIDENCE"
  | .deferredAdvisory => "DEFERRED_ADVISORY"

/-- What the doer says became of one finding. -/
structure FindingResolution where
  fingerprint : Digest
  reportDigest : Digest
  disposition : ResolutionDisposition
  evidence : List Evidence
  explanation : Text
  evidenceNonempty : evidence ≠ []
deriving DecidableEq

instance : ReviewModel FindingResolution where
  dump r := [("fingerprint", r.fingerprint.json), ("report_digest", r.reportDigest.json),
    ("disposition", .text r.disposition.value), ("evidence", .tuple ReviewModel.json r.evidence),
    ("explanation", r.explanation.json)]

inductive RecheckStatus where
  | pass | fail | unknown
deriving DecidableEq

def RecheckStatus.value : RecheckStatus → String
  | .pass => "PASS"
  | .fail => "FAIL"
  | .unknown => "UNKNOWN"

/-- What a reviewer says of one recorded resolution. -/
structure FindingRecheck where
  fingerprint : Digest
  resolutionDigest : Digest
  status : RecheckStatus
  evidence : List Evidence
  check : Text
  evidenceNonempty : evidence ≠ []
deriving DecidableEq

instance : ReviewModel FindingRecheck where
  dump r := [("fingerprint", r.fingerprint.json),
    ("resolution_digest", r.resolutionDigest.json), ("status", .text r.status.value),
    ("evidence", .tuple ReviewModel.json r.evidence), ("check", r.check.json)]

structure ReviewReport where
  invocationId : Identifier
  binding : ReviewBinding
  reviewer : ModelIdentity
  complete : Bool
  criteria : List CriterionDisposition
  findings : List Finding
  rechecks : List FindingRecheck
  verdict : Verdict
  rawText : String
deriving DecidableEq

instance : ReviewModel ReviewReport where
  dump r := [("invocation_id", r.invocationId.json), ("binding", ReviewModel.json r.binding),
    ("reviewer", ReviewModel.json r.reviewer), ("complete", .bool r.complete),
    ("criteria", .tuple ReviewModel.json r.criteria),
    ("findings", .tuple ReviewModel.json r.findings),
    ("rechecks", .tuple ReviewModel.json r.rechecks), ("verdict", .text r.verdict.value),
    ("raw_text", .text r.rawText)]

/-- The original producer's proposals; no authority to close a finding. -/
structure RepairReport where
  invocationId : Identifier
  binding : ReviewBinding
  producer : ModelIdentity
  artifact : ArtifactRef
  resolutions : List FindingResolution
  resolutionsNonempty : resolutions ≠ []
deriving DecidableEq

instance : ReviewModel RepairReport where
  dump r := [("invocation_id", r.invocationId.json), ("binding", ReviewModel.json r.binding),
    ("producer", ReviewModel.json r.producer), ("artifact", ReviewModel.json r.artifact),
    ("resolutions", .tuple ReviewModel.json r.resolutions)]

end NokincFactory
