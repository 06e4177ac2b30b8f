/-
  File:      NokincFactory/Domain/Authorization.lean
  Subject:   `authorization.py`: authorizations, the approvals of a decision, and the checks
             made at use.

  * `Timestamp`, `windowContains`: a `datetime` as it is kept, its ISO text, and the half-open
    window;
  * `TargetBinding`, `HumanApproval`, `Authorization`: the artefacts;
  * `Authorization.payload`, `decisionDigest`: what an approver agrees to;
  * `checkTwoPerson`, `checkValidity`, `revalidate`: the checks, in the order of the source.
-/
import NokincFactory.Domain.PyValue
import NokincFactory.Domain.ReviewBase

namespace NokincFactory

/-! ## 1. Time -/

def isLeap (year : ℕ) : Bool := year % 4 = 0 && (year % 100 ≠ 0 || year % 400 = 0)

def daysInMonth (year month : ℕ) : ℕ :=
  if month = 2 then (if isLeap year then 29 else 28)
  else if month = 4 ∨ month = 6 ∨ month = 9 ∨ month = 11 then 30 else 31

def daysBeforeMonth (year month : ℕ) : ℕ :=
  ((List.range (month - 1)).map fun m => daysInMonth year (m + 1)).sum

def daysBeforeYear (year : ℕ) : ℕ :=
  (year - 1) * 365 + (year - 1) / 4 - (year - 1) / 100 + (year - 1) / 400

/-- A `datetime`: a clock in the calendar and, when it is aware, its offset in microseconds. -/
structure Timestamp where
  year : ℕ
  month : ℕ
  day : ℕ
  hour : ℕ
  minute : ℕ
  second : ℕ
  microsecond : ℕ
  offset : Option Int
  yearRange : 1 ≤ year ∧ year ≤ 9999
  monthRange : 1 ≤ month ∧ month ≤ 12
  dayRange : 1 ≤ day ∧ day ≤ daysInMonth year month
  hourRange : hour < 24
  minuteRange : minute < 60
  secondRange : second < 60
  microsecondRange : microsecond < 1000000
  offsetRange : ∀ o ∈ offset, o.natAbs < 86400000000
deriving DecidableEq

namespace Timestamp

/-- `str(utcoffset)`, as `isoformat` appends it. -/
def offsetText (offset : Int) : List Char :=
  let seconds := offset.natAbs / 1000000
  let fraction := offset.natAbs % 1000000
  (if offset < 0 then '-' else '+') :: (padded 2 (seconds / 3600) ++ ':' ::
    (padded 2 (seconds / 60 % 60) ++
      (if seconds % 60 = 0 ∧ fraction = 0 then []
      else ':' :: (padded 2 (seconds % 60) ++
        (if fraction = 0 then [] else '.' :: padded 6 fraction)))))

def offsetPart : Option Int → List Char
  | none => []
  | some offset => offsetText offset

/-- `isoformat()`. -/
def isoformat (t : Timestamp) : List Char :=
  padded 4 t.year ++ '-' :: (padded 2 t.month ++ '-' :: (padded 2 t.day ++ 'T' ::
    (padded 2 t.hour ++ ':' :: (padded 2 t.minute ++ ':' :: (padded 2 t.second ++
      ((if t.microsecond = 0 then [] else '.' :: padded 6 t.microsecond) ++
        offsetPart t.offset))))))

/-- The clock in microseconds, from the epoch on the same clock. -/
def wall (t : Timestamp) : Int :=
  let ordinal := daysBeforeYear t.year + daysBeforeMonth t.year t.month + t.day
  (((ordinal : Int) - 719163) * 86400 + (t.hour * 3600 + t.minute * 60 + t.second : ℕ)) * micro +
    t.microsecond

/-- `astimezone(UTC)` of an aware `datetime`. -/
def astimezone (t : Timestamp) (offset : Int) : Except PyError Moment :=
  if h : earliest ≤ t.wall - offset ∧ t.wall - offset ≤ latest then
    .ok ⟨t.wall - offset, h.1, h.2⟩
  else .error (.overflow "date value out of range")

end Timestamp

/-- `_window_contains`. -/
def windowContains (issued expires now : Timestamp) : Except PyError Bool :=
  match issued.offset, expires.offset, now.offset with
  | some issuedOffset, some expiresOffset, some nowOffset => do
      let i ← issued.astimezone issuedOffset
      let n ← now.astimezone nowOffset
      if i ≤ n then do
        let e ← expires.astimezone expiresOffset
        pure (decide (n < e))
      else pure false
  | _, _, _ => pure false

/-! ## 2. Artefacts -/

inductive OnExpiry where
  | restorePrevious | holdAndEscalate | failClosed
deriving DecidableEq

def OnExpiry.value : OnExpiry → String
  | .restorePrevious => "RESTORE_PREVIOUS"
  | .holdAndEscalate => "HOLD_AND_ESCALATE"
  | .failClosed => "FAIL_CLOSED"

inductive ActuatorClass where
  | cooperative | operationalExternal | securityExternal
deriving DecidableEq

def ActuatorClass.value : ActuatorClass → String
  | .cooperative => "COOPERATIVE"
  | .operationalExternal => "OPERATIONAL_EXTERNAL"
  | .securityExternal => "SECURITY_EXTERNAL"

structure TargetBinding where
  service : PyStr
  targetRuntimeUid : PyStr
  containerId : Option PyStr
  deploymentRevision : Option PyStr
  imageDigest : Option PyStr
  configFingerprint : Option PyStr
deriving DecidableEq

/-- An optional part of a binding, where it is named. -/
def agrees (bound observed : Option PyStr) : Bool :=
  match bound with
  | none => true
  | some value => observed = some value

/-- `TargetBinding.matches`. -/
def TargetBinding.matches (bound observed : TargetBinding) : Bool :=
  bound.service = observed.service && bound.targetRuntimeUid = observed.targetRuntimeUid &&
    agrees bound.containerId observed.containerId &&
    agrees bound.deploymentRevision observed.deploymentRevision &&
    agrees bound.imageDigest observed.imageDigest &&
    agrees bound.configFingerprint observed.configFingerprint

/-- A member that is dumped when it is there (`exclude_none`). -/
def present (key : String) : Option PyStr → List (PyStr × PyValue)
  | none => []
  | some value => [(pyStr key, .str value)]

/-- The fields of a binding. -/
def TargetBinding.fields (t : TargetBinding) : List (String × Option PyStr) := [
  ("service", some t.service),
  ("target_runtime_uid", some t.targetRuntimeUid),
  ("container_id", t.containerId),
  ("deployment_revision", t.deploymentRevision),
  ("image_digest", t.imageDigest),
  ("config_fingerprint", t.configFingerprint)]

/-- `model_dump(exclude_none=True)`. -/
def TargetBinding.dump (t : TargetBinding) : List (PyStr × PyValue) :=
  t.fields.flatMap fun field => present field.1 field.2

/-- An approval, as far as it is read. -/
structure HumanApproval where
  approverIdentity : PyStr
  decisionDigest : PyStr
  action : PyStr
  target : TargetBinding
  approvedAt : Timestamp
  expiresAt : Timestamp

/-- `is_valid_for`. -/
def HumanApproval.isValidFor (approval : HumanApproval) (digest : PyStr) (now : Timestamp) :
    Except PyError Bool :=
  if approval.decisionDigest = digest then
    windowContains approval.approvedAt approval.expiresAt now
  else pure false

/-- An authorization, as far as it is read: nonce and signature enter nothing. -/
structure Authorization where
  decisionId : PyStr
  action : PyStr
  actuatorClass : ActuatorClass
  target : TargetBinding
  parameters : List (PyStr × PyValue)
  evidenceSnapshot : PyStr
  coverageSnapshot : PyStr
  codeModelSnapshot : Option PyStr
  policyVersion : PyStr
  authorizedAt : Timestamp
  expiresAt : Timestamp
  maxStalenessSeconds : Int
  onExpiry : OnExpiry
  humanApprovals : List HumanApproval

/-- `ExpiredAuthorization`, `StaleAuthorization`, or what else is raised. -/
inductive AuthorizationError where
  | expired (message : PyStr)
  | stale (message : PyStr)
  | raised (error : PyError)

/-- Run what raises Python's own errors. -/
def authorizationRaising {α : Type} : Except PyError α → Except AuthorizationError α :=
  Except.liftWith .raised

namespace Authorization

/-! ## 3. The digest -/

def optionalStr : Option PyStr → PyValue
  | none => .none
  | some value => .str value

/-- The payload of `decision_digest`. -/
def payload (a : Authorization) : List (PyStr × PyValue) := [
  (pyStr "decision_id", .str a.decisionId),
  (pyStr "action", .str a.action),
  (pyStr "actuator_class", .str (pyStr a.actuatorClass.value)),
  (pyStr "target", .dict a.target.dump),
  (pyStr "parameters", .dict a.parameters),
  (pyStr "evidence_snapshot", .str a.evidenceSnapshot),
  (pyStr "coverage_snapshot", .str a.coverageSnapshot),
  (pyStr "code_model_snapshot", optionalStr a.codeModelSnapshot),
  (pyStr "policy_version", .str a.policyVersion),
  (pyStr "authorized_at", .str (pyText a.authorizedAt.isoformat)),
  (pyStr "expires_at", .str (pyText a.expiresAt.isoformat)),
  (pyStr "max_staleness_seconds", .int a.maxStalenessSeconds),
  (pyStr "on_expiry", .str (pyStr a.onExpiry.value))]

/-- What is hashed: the encoded payload. -/
def encoded (a : Authorization) : List Char := (PyValue.dict a.payload).dumps

/-- What `int.__repr__` raises. -/
def digitLimit : PyError := .value (.message
  ("Exceeds the limit (4300 digits) for integer string conversion; " ++
    "use sys.set_int_max_str_digits() to increase the limit"))

variable [Sha256]

/-- `decision_digest`. -/
def decisionDigest (a : Authorization) : Except PyError PyStr := do
  guardThat ((PyValue.dict a.payload).printable = true) digitLimit
  pure (pyText (Sha256.digest a.encoded).hex)

/-! ## 4. The checks -/

omit [Sha256] in
/-- The message of an expired authorization. -/
def refusal (a : Authorization) (text : String) : AuthorizationError :=
  .expired (a.decisionId ++ pyStr (": " ++ text))

omit [Sha256] in
/-- The refusal of a stale authorization, whose message writes the bound. -/
def staleness (a : Authorization) : AuthorizationError :=
  if (PyValue.int a.maxStalenessSeconds).printable then
    a.refusal ("exceeded max_staleness of " ++
      String.ofList (Json.intText a.maxStalenessSeconds) ++ "s")
  else .raised digitLimit

omit [Sha256] in
/-- `now - authorized_at` in microseconds. -/
def age (a : Authorization) (now : Timestamp) : Except PyError Int :=
  match a.authorizedAt.offset, now.offset with
  | some authorizedOffset, some nowOffset => do
      let n ← now.astimezone nowOffset
      let i ← a.authorizedAt.astimezone authorizedOffset
      pure (n.micros - i.micros)
  -- the window has been checked
  | _, _ => .error (.value (.message "astimezone() of a naive datetime"))

omit [Sha256] in
/-- `_check_validity`. -/
def checkValidity (a : Authorization) (now : Timestamp) : Except AuthorizationError Unit := do
  let current ← authorizationRaising (windowContains a.authorizedAt a.expiresAt now)
  guardThat (current = true)
    (a.refusal "authorization window is invalid or not current")
  let age ← authorizationRaising (a.age now)
  guardThat (¬ (a.maxStalenessSeconds < 0 ∨ a.maxStalenessSeconds * micro < age)) a.staleness
  guardThat (¬ (a.actuatorClass = .securityExternal ∧
      a.onExpiry ≠ .holdAndEscalate ∧ a.onExpiry ≠ .failClosed))
    (a.refusal "security containment requires a safe expiry policy")

omit [Sha256] in
/-- The comprehension of `check_two_person`. -/
def validApprovals (a : Authorization) (digest : PyStr) (now : Timestamp) :
    List HumanApproval → Except PyError (List HumanApproval)
  | [] => pure []
  | approval :: rest => do
      let valid ← approval.isValidFor digest now
      let others ← a.validApprovals digest now rest
      if valid = true ∧ approval.action = a.action ∧ approval.target = a.target then
        pure (approval :: others)
      else pure others

/-- `check_two_person`. -/
def checkTwoPerson (a : Authorization) (now : Timestamp) : Except AuthorizationError Unit := do
  a.checkValidity now
  let digest ← authorizationRaising a.decisionDigest
  let valid ← authorizationRaising (a.validApprovals digest now a.humanApprovals)
  let identities := (valid.map (·.approverIdentity)).dedup
  guardThat (2 ≤ identities.length)
    (a.refusal ("two-person control requires 2 distinct valid approvers, found " ++
      toString identities.length))

omit [Sha256] in
/-- `revalidate`. -/
def revalidate (a : Authorization) (observed : TargetBinding) (now : Timestamp) :
    Except AuthorizationError Unit := do
  a.checkValidity now
  guardThat (a.target.matches observed = true) (.stale (a.decisionId ++
    pyStr ": target identity changed since authorization"))

end Authorization

end NokincFactory
