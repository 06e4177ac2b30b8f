/-
  File:      NokincFactory/Domain/Review.lean
  Subject:   `review.py`: the pinned contract, policy, model identities and artifact of
             a review session.

  Every model validator of the source is a field of its structure, so a value that
  the source would reject cannot be written down. The derived `content_digest`
  field is `contentDigest` of the value.
-/
import NokincFactory.Domain.ReviewBase

namespace NokincFactory

variable [Sha256]

structure ReviewScope where
  tenantId : Identifier
  workItemId : Identifier
  sessionId : Identifier
deriving DecidableEq

instance : ReviewModel ReviewScope where
  dump s := [("tenant_id", s.tenantId.json), ("work_item_id", s.workItemId.json),
    ("session_id", s.sessionId.json)]

structure PinnedReference where
  name : Identifier
  digest : Digest
deriving DecidableEq

instance : ReviewModel PinnedReference where
  dump r := [("name", r.name.json), ("digest", r.digest.json)]

structure QualityCriterion where
  criterionId : Identifier
  predicate : Text
  mandatory : Bool
  requiredEvidence : List Identifier
  evidenceRequired : requiredEvidence ≠ []
  evidenceDistinct : requiredEvidence.Nodup
deriving DecidableEq

instance : ReviewModel QualityCriterion where
  dump c := [("criterion_id", c.criterionId.json), ("predicate", c.predicate.json),
    ("mandatory", .bool c.mandatory),
    ("required_evidence", .tuple Identifier.json c.requiredEvidence)]

inductive RiskTier where
  | t0 | t1 | t2
deriving DecidableEq

def RiskTier.value : RiskTier → String
  | .t0 => "T0"
  | .t1 => "T1"
  | .t2 => "T2"

structure QualityContract where
  tenantId : Identifier
  workItemId : Identifier
  contractVersion : Identifier
  criteria : List QualityCriterion
  artifactScope : List Identifier
  scopeIn : List Text
  scopeOut : List Text
  designRefs : List PinnedReference
  designNotApplicableReason : Option Text
  riskTier : RiskTier
  criteriaNonempty : criteria ≠ []
  artifactScopeNonempty : artifactScope ≠ []
  scopeInNonempty : scopeIn ≠ []
  scopeOutNonempty : scopeOut ≠ []
  criteriaDistinct : (criteria.map (·.criterionId)).Nodup
  artifactScopeDistinct : artifactScope.Nodup
  designRefsDistinct : (designRefs.map (·.name)).Nodup
  someMandatory : ∃ c ∈ criteria, c.mandatory = true
  designGrounded : designRefs ≠ [] ↔ designNotApplicableReason = none
deriving DecidableEq

instance : ReviewModel QualityContract where
  dump c := [("tenant_id", c.tenantId.json), ("work_item_id", c.workItemId.json),
    ("contract_version", c.contractVersion.json),
    ("criteria", .tuple ReviewModel.json c.criteria),
    ("artifact_scope", .tuple Identifier.json c.artifactScope),
    ("scope_in", .tuple Text.json c.scopeIn), ("scope_out", .tuple Text.json c.scopeOut),
    ("design_refs", .tuple ReviewModel.json c.designRefs),
    ("design_not_applicable_reason", .optional Text.json c.designNotApplicableReason),
    ("risk_tier", .text c.riskTier.value)]

/-- Finite local ceilings. -/
structure ReviewPolicy where
  policyVersion : Identifier
  minReviewPasses : Nat
  maxReviewPasses : Nat
  maxImplementationRepairs : Nat
  sameUnresolvedFailureLimit : Nat
  maxInvocations : Nat
  maxTokens : Nat
  maxCostMicrousd : Nat
  maxElapsedSeconds : Nat
  requireDifferentFamily : Bool
  minReviewPasses_ge : 2 ≤ minReviewPasses
  maxReviewPasses_ge : 2 ≤ maxReviewPasses
  maxImplementationRepairs_le : maxImplementationRepairs ≤ 3
  sameUnresolvedFailureLimit_ge : 1 ≤ sameUnresolvedFailureLimit
  sameUnresolvedFailureLimit_le : sameUnresolvedFailureLimit ≤ 2
  maxInvocations_pos : 0 < maxInvocations
  maxTokens_pos : 0 < maxTokens
  maxCostMicrousd_pos : 0 < maxCostMicrousd
  maxElapsedSeconds_pos : 0 < maxElapsedSeconds
  reviewRange : minReviewPasses ≤ maxReviewPasses
deriving DecidableEq

instance : ReviewModel ReviewPolicy where
  dump p := [("policy_version", p.policyVersion.json),
    ("min_review_passes", .ofNat p.minReviewPasses),
    ("max_review_passes", .ofNat p.maxReviewPasses),
    ("max_implementation_repairs", .ofNat p.maxImplementationRepairs),
    ("same_unresolved_failure_limit", .ofNat p.sameUnresolvedFailureLimit),
    ("max_invocations", .ofNat p.maxInvocations), ("max_tokens", .ofNat p.maxTokens),
    ("max_cost_microusd", .ofNat p.maxCostMicrousd),
    ("max_elapsed_seconds", .ofNat p.maxElapsedSeconds),
    ("require_different_family", .bool p.requireDifferentFamily)]

inductive ModelRole where
  | producer | reviewer
deriving DecidableEq

def ModelRole.value : ModelRole → String
  | .producer => "PRODUCER"
  | .reviewer => "REVIEWER"

/-- An externally qualified model; without a family, a qualification or a capability it
    counts as unavailable. -/
structure ModelIdentity where
  provider : Identifier
  model : Identifier
  canonicalModelId : Identifier
  family : Option Identifier
  qualificationRef : Option Digest
  capabilityRefs : List Digest
  role : ModelRole
  capabilitiesDistinct : capabilityRefs.Nodup
deriving DecidableEq

instance : ReviewModel ModelIdentity where
  dump m := [("provider", m.provider.json), ("model", m.model.json),
    ("canonical_model_id", m.canonicalModelId.json),
    ("family", .optional Identifier.json m.family),
    ("qualification_ref", .optional Digest.json m.qualificationRef),
    ("capability_refs", .tuple Digest.json m.capabilityRefs), ("role", .text m.role.value)]

structure ReviewBinding where
  scope : ReviewScope
  artifactDigest : Digest
  contractDigest : Digest
  contextDigest : Digest
deriving DecidableEq

instance : ReviewModel ReviewBinding where
  dump b := [("scope", ReviewModel.json b.scope), ("artifact_digest", b.artifactDigest.json),
    ("contract_digest", b.contractDigest.json), ("context_digest", b.contextDigest.json)]

/-- The manifest of an artifact; its content digest is what evidence and reports bind. -/
structure ArtifactRef where
  scope : ReviewScope
  artifactKey : Identifier
  payloadDigest : Digest
  producers : List ModelIdentity
  contractDigest : Digest
  contextDigest : Digest
  inputs : List PinnedReference
  buildRefs : List PinnedReference
  producersNonempty : producers ≠ []
  producersDistinct : (producers.map (·.canonicalModelId)).Nodup
  inputsDistinct : (inputs.map (·.name)).Nodup
  buildRefsDistinct : (buildRefs.map (·.name)).Nodup
  producersRole : ∀ p ∈ producers, p.role = .producer
deriving DecidableEq

instance : ReviewModel ArtifactRef where
  dump a := [("scope", ReviewModel.json a.scope), ("artifact_key", a.artifactKey.json),
    ("payload_digest", a.payloadDigest.json), ("producers", .tuple ReviewModel.json a.producers),
    ("contract_digest", a.contractDigest.json), ("context_digest", a.contextDigest.json),
    ("inputs", .tuple ReviewModel.json a.inputs),
    ("build_refs", .tuple ReviewModel.json a.buildRefs)]

/-- `ArtifactRef.binding`. -/
def ArtifactRef.binding (a : ArtifactRef) : ReviewBinding where
  scope := a.scope
  artifactDigest := contentDigest a
  contractDigest := a.contractDigest
  contextDigest := a.contextDigest

structure Usage where
  tokens : Nat
  costMicrousd : Nat
deriving DecidableEq

instance : ReviewModel Usage where
  dump u := [("tokens", .ofNat u.tokens), ("cost_microusd", .ofNat u.costMicrousd)]

/-- What an invocation holds before it runs; `seconds` bounds it in time. -/
structure Reservation where
  tokens : Nat
  costMicrousd : Nat
  seconds : Nat
  tokens_pos : 0 < tokens
  seconds_pos : 0 < seconds
deriving DecidableEq

instance : ReviewModel Reservation where
  dump r := [("tokens", .ofNat r.tokens), ("cost_microusd", .ofNat r.costMicrousd),
    ("seconds", .ofNat r.seconds)]

end NokincFactory
