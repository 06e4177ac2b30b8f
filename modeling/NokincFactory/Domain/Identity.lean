/-
  File:      NokincFactory/Domain/Identity.lean
  Subject:   The release and the deployment evidence, and what `model_dump` gives of them.

  * `ReleaseBundle`, `DeploymentBinding`;
  * `ReleaseEvidence`: one of the two; `ReleaseEvidence.values`: its fields without the signature;
  * `SameContent`: evidence that differs in its signature and the order of its maps at most.
-/
import NokincFactory.Domain.JsonScanner

namespace NokincFactory

/-- A `dict[str, str]`: no key twice. -/
structure StrMap where
  members : List (PyStr × PyStr)
  distinct : (members.map Prod.fst).Nodup

def StrMap.loaded (m : StrMap) : Loaded := .dict (m.members.map fun e => (e.1, .str e.2))

/-- A `str | None`. -/
def optionalText (s : Option PyStr) : Loaded := s.elim .none .str

structure ReleaseBundle where
  releaseId : PyStr
  changesetId : PyStr
  changesetVersion : ℤ
  workItemId : PyStr
  artifacts : StrMap
  infrastructure : StrMap
  migrationBundle : Option PyStr
  codeModelSnapshot : PyStr
  approvedIntentDigest : PyStr
  containmentContractDigest : PyStr
  sbomDigest : PyStr
  provenanceDigest : PyStr
  signature : PyStr

structure DeploymentBinding where
  releaseId : PyStr
  environment : PyStr
  configDigest : PyStr
  secretVersionRefs : List PyStr
  infrastructureParametersDigest : Option PyStr
  featureFlagStateDigest : Option PyStr
  deploymentPolicyVersion : PyStr
  approvedBy : PyStr
  signature : PyStr

/-- `ReleaseBundle | DeploymentBinding`. -/
inductive ReleaseEvidence where
  | bundle (bundle : ReleaseBundle)
  | binding (binding : DeploymentBinding)

/-- `model_dump(mode="json", exclude={"signature"})`. -/
def ReleaseBundle.values (b : ReleaseBundle) : List (PyStr × Loaded) :=
  [(pyStr "release_id", .str b.releaseId), (pyStr "changeset_id", .str b.changesetId),
    (pyStr "changeset_version", .int b.changesetVersion),
    (pyStr "work_item_id", .str b.workItemId), (pyStr "artifacts", b.artifacts.loaded),
    (pyStr "infrastructure", b.infrastructure.loaded),
    (pyStr "migration_bundle", optionalText b.migrationBundle),
    (pyStr "code_model_snapshot", .str b.codeModelSnapshot),
    (pyStr "approved_intent_digest", .str b.approvedIntentDigest),
    (pyStr "containment_contract_digest", .str b.containmentContractDigest),
    (pyStr "sbom_digest", .str b.sbomDigest), (pyStr "provenance_digest", .str b.provenanceDigest)]

def DeploymentBinding.values (d : DeploymentBinding) : List (PyStr × Loaded) :=
  [(pyStr "release_id", .str d.releaseId), (pyStr "environment", .str d.environment),
    (pyStr "config_digest", .str d.configDigest),
    (pyStr "secret_version_refs", .list (d.secretVersionRefs.map .str)),
    (pyStr "infrastructure_parameters_digest", optionalText d.infrastructureParametersDigest),
    (pyStr "feature_flag_state_digest", optionalText d.featureFlagStateDigest),
    (pyStr "deployment_policy_version", .str d.deploymentPolicyVersion),
    (pyStr "approved_by", .str d.approvedBy)]

namespace ReleaseEvidence

def values : ReleaseEvidence → List (PyStr × Loaded)
  | bundle b => b.values
  | binding d => d.values

def signature : ReleaseEvidence → PyStr
  | bundle b => b.signature
  | binding d => d.signature

end ReleaseEvidence

/-- Two bundles of one content: every field but the signature, the maps in any order. -/
structure SameBundle (a b : ReleaseBundle) : Prop where
  releaseId : a.releaseId = b.releaseId
  changesetId : a.changesetId = b.changesetId
  changesetVersion : a.changesetVersion = b.changesetVersion
  workItemId : a.workItemId = b.workItemId
  artifacts : a.artifacts.members.Perm b.artifacts.members
  infrastructure : a.infrastructure.members.Perm b.infrastructure.members
  migrationBundle : a.migrationBundle = b.migrationBundle
  codeModelSnapshot : a.codeModelSnapshot = b.codeModelSnapshot
  approvedIntentDigest : a.approvedIntentDigest = b.approvedIntentDigest
  containmentContractDigest : a.containmentContractDigest = b.containmentContractDigest
  sbomDigest : a.sbomDigest = b.sbomDigest
  provenanceDigest : a.provenanceDigest = b.provenanceDigest

/-- Two bindings of one content. -/
def SameBinding (a b : DeploymentBinding) : Prop :=
  ({ a with signature := [] } : DeploymentBinding) = { b with signature := [] }

/-- A bundle and a binding never have one content. -/
def SameContent : ReleaseEvidence → ReleaseEvidence → Prop
  | .bundle a, .bundle b => SameBundle a b
  | .binding a, .binding b => SameBinding a b
  | _, _ => False

end NokincFactory
