/-
  File:      NokincFactory/Policy/ReleaseSigning.lean
  Subject:   Signing and verifying release evidence (`release_signing`, `release_bundle`).

  How a key is loaded is left out.

  * `Ed25519`: signing and verifying under one key pair, which are parameters;
  * `ReleaseError`: what the functions raise;
  * `ReleaseEvidence.payload`, `decodeSignature`, `verifyEvidence`: one record and its signature;
  * `buildReleaseBundle`, `buildDeploymentBinding`, `verifyPromotion`.
-/
import NokincFactory.Domain.CompactJson
import NokincFactory.Domain.Identity
import NokincFactory.Domain.ReviewBase

namespace NokincFactory

/-! ## 1. Signatures -/

/-- `Ed25519PrivateKey.sign` and `Ed25519PublicKey.verify` of one key pair. -/
class Ed25519 where
  sign : List Byte → List Byte
  /-- Whether a signature of a message raises no `InvalidSignature`. -/
  verify : List Byte → List Byte → Bool

/-- A `ReleaseVerificationError`, a `ReleasePromotionError` or another `ValueError`. -/
inductive ReleaseError where
  | verification (message : String)
  | promotion (message : String)
  | value (message : String)
deriving DecidableEq

/-- `_payload`. -/
def ReleaseEvidence.payload (model : ReleaseEvidence) : Except ReleaseError (List Byte) :=
  let values := (Loaded.dict model.values).sorted
  if ¬ values.printable then
    .error (.value "Exceeds the limit (4300 digits) for integer string conversion")
  else if ¬ encodable values.compact then .error (.value "surrogates not allowed")
  else .ok (utf8 values.compact)

/-- `_decode`. -/
def decodeSignature (value : PyStr) : Except ReleaseError (List Byte) :=
  if value = [] ∨ ¬ value.all (· ∈ pyText urlsafeLetters) then
    .error (.verification "signature encoding is invalid")
  else match base64Bytes value with
    | none => .error (.verification "signature encoding is invalid")
    | some signature => .ok signature

section

variable [Ed25519]

/-- `_sign`. -/
def signEvidence (model : ReleaseEvidence) : Except ReleaseError PyStr := do
  let message ← model.payload
  pure (base64Text (Ed25519.sign message))

/-- `key.verify(_decode(model.signature), _payload(model))`. -/
def checkSignature (model : ReleaseEvidence) : Except ReleaseError Unit := do
  let signature ← decodeSignature model.signature
  let message ← model.payload
  guardThat (Ed25519.verify signature message) (.verification "InvalidSignature")

/-- What the handler of `_verify` makes of an error. -/
def ReleaseError.mismatch : ReleaseError → ReleaseError
  | verification _ => verification "signed evidence does not match its content"
  | other => other

/-- `_verify`. -/
def verifyEvidence (model : ReleaseEvidence) : Except ReleaseError Unit :=
  if model.signature = [] then .error (.verification "signed evidence is required")
  else (checkSignature model).mapError ReleaseError.mismatch

/-! ## 2. Bundles and bindings -/

def signReleaseBundle (bundle : ReleaseBundle) : Except ReleaseError ReleaseBundle := do
  let signature ← signEvidence (.bundle bundle)
  pure { bundle with signature := signature }

def signDeploymentBinding (binding : DeploymentBinding) :
    Except ReleaseError DeploymentBinding := do
  let signature ← signEvidence (.binding binding)
  pure { binding with signature := signature }

/-- `ReleaseBundleInput`. -/
structure ReleaseBundleInput where
  releaseId : Identifier
  changesetId : Identifier
  changesetVersion : ℤ
  workItemId : Identifier
  artifacts : List (PyStr × Digest)
  infrastructure : List (PyStr × Digest)
  codeModelSnapshot : Digest
  approvedIntentDigest : Digest
  containmentContractDigest : Digest
  sbomDigest : Digest
  provenanceDigest : Digest
  versionPositive : 1 ≤ changesetVersion
  artifactsNonempty : artifacts ≠ []
  artifactsDistinct : (artifacts.map Prod.fst).Nodup
  infrastructureDistinct : (infrastructure.map Prod.fst).Nodup

/-- `dict(…)` of digests, as the texts of a bundle. -/
def digestMap (digests : List (PyStr × Digest)) (h : (digests.map Prod.fst).Nodup) : StrMap where
  members := digests.map fun d => (d.1, pyText d.2.text)
  distinct := by
    rw [List.map_map]
    exact h

/-- `build_release_bundle`. -/
def buildReleaseBundle (source : ReleaseBundleInput) : Except ReleaseError ReleaseBundle :=
  signReleaseBundle {
    releaseId := pyStr source.releaseId.text
    changesetId := pyStr source.changesetId.text
    changesetVersion := source.changesetVersion
    workItemId := pyStr source.workItemId.text
    artifacts := digestMap source.artifacts source.artifactsDistinct
    infrastructure := digestMap source.infrastructure source.infrastructureDistinct
    migrationBundle := none
    codeModelSnapshot := pyText source.codeModelSnapshot.text
    approvedIntentDigest := pyText source.approvedIntentDigest.text
    containmentContractDigest := pyText source.containmentContractDigest.text
    sbomDigest := pyText source.sbomDigest.text
    provenanceDigest := pyText source.provenanceDigest.text
    signature := [] }

/-- `build_deployment_binding`. -/
def buildDeploymentBinding (releaseId environment configDigest : PyStr)
    (secretVersionRefs : List PyStr) (deploymentPolicyVersion approvedBy : PyStr)
    (infrastructureParametersDigest featureFlagStateDigest : Option PyStr) :
    Except ReleaseError DeploymentBinding := do
  guardThat (∀ reference ∈ secretVersionRefs, pyStr "secret://" <+: reference)
    (.value "deployment bindings accept secret references, not secret values")
  signDeploymentBinding {
    releaseId := releaseId
    environment := environment
    configDigest := configDigest
    secretVersionRefs := secretVersionRefs
    infrastructureParametersDigest := infrastructureParametersDigest
    featureFlagStateDigest := featureFlagStateDigest
    deploymentPolicyVersion := deploymentPolicyVersion
    approvedBy := approvedBy
    signature := [] }

/-- What the handler of `verify_promotion` makes of an error. -/
def ReleaseError.refused : ReleaseError → ReleaseError
  | verification _ => promotion "release or deployment signature is invalid"
  | other => other

/-- `verify_promotion`. -/
def verifyPromotion (bundle : ReleaseBundle) (binding : DeploymentBinding)
    (expectedEnvironment : PyStr) : Except ReleaseError Unit := do
  (do
    verifyEvidence (.bundle bundle)
    verifyEvidence (.binding binding)).mapError ReleaseError.refused
  guardThat (bundle.releaseId = binding.releaseId)
    (.promotion "deployment binding targets a different release")
  guardThat (binding.environment = expectedEnvironment)
    (.promotion "deployment binding environment mismatch")

end

end NokincFactory
