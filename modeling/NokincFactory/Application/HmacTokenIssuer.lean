/-
  File:      NokincFactory/Application/HmacTokenIssuer.lean
  Subject:   `HmacTokenIssuer` and the dependency `principal` of the service.

  The float of `datetime.timestamp()` is taken as exact. Of the hash nothing is assumed but that it
  gives bytes, and of the stack that the two levels of a token are there.

  * `Interpreter`: the keyed hash of the standard library, and the room for nested brackets;
  * `TokenError`, `TokenError.caught`: what a verification can raise, and what the dependency
    turns into status 401;
  * `VerifiedPrincipal`: a principal with the names and the times of its token;
  * `HmacTokenIssuer.issue`, `HmacTokenIssuer.verify`;
  * `principal`: the dependency.
-/
import NokincFactory.Domain.Chat
import NokincFactory.Domain.CompactJson
import NokincFactory.Domain.ReviewBase
import NokincFactory.Lib.Shlex

namespace NokincFactory

/-! ## 1. Errors and principals -/

/-- `hmac.new(key, message, sha256).digest()`, how many brackets `json.loads` can open one in
another, and how many of these levels are called for between the brackets at the front of a text,
beside those of brackets within. What is called for fits in with the two levels of a token. -/
class Interpreter where
  digest : List Byte → List Byte → List Byte
  levels : ℕ
  call : PyStr → ℕ
  spare : ℕ
  levels_eq : levels = spare + 2
  call_le : ∀ text, call text ≤ spare

/-- `invalid` is pydantic's `ValidationError` and `encode` a `UnicodeEncodeError`; both are kinds
of `ValueError`. -/
inductive TokenError where
  | value (error : ValueError)
  | invalid
  | encode
  | overflow
  | type (text : String)
  | recursion
deriving DecidableEq

/-- What `except (ValueError, OverflowError)` catches. -/
def TokenError.caught : TokenError → Bool
  | value _ | invalid | encode | overflow => true
  | type _ | recursion => false

def tokenFault (text : String) : TokenError := .value (.message text)

def Role.value : Role → String
  | .viewer => "viewer"
  | .operator => "operator"
  | .admin => "admin"

def Role.all : List Role := [.viewer, .operator, .admin]

/-- The role of a name. -/
def Role.ofText (s : PyStr) : Option Role := Role.all.find? fun role => pyStr role.value = s

/-- A string that an `Identifier` field takes. -/
def Identifier.ofText (s : PyStr) : Option Identifier :=
  let text := String.ofList (s.map fun c => Char.ofNat c.val)
  if h : pyStr text = s ∧ identifierPattern text.toList = true then some ⟨text, h.2⟩ else none

/-- `Field(min_length=1, max_length=200)`. -/
def boundedName (s : PyStr) : Bool := encodable s && 1 ≤ s.length && s.length ≤ 200

/-- `Principal`, with the names and the times that its token carries. -/
structure VerifiedPrincipal extends Principal where
  issuer : PyStr
  audience : PyStr
  issuedAt : Moment
  expiresAt : Moment
  issuerBounded : boundedName issuer
  audienceBounded : boundedName audience
  rolesBounded : 1 ≤ roles.length ∧ roles.length ≤ 3
  rolesDistinct : roles.Nodup
deriving DecidableEq

/-- `Principal.model_validate`. -/
def modelValidatePrincipal (tenant subject issuer audience : PyStr) (roles : List PyStr)
    (issuedAt expiresAt : Moment) : Except TokenError VerifiedPrincipal :=
  match Identifier.ofText tenant, Identifier.ofText subject, roles.mapM Role.ofText with
  | some tenantId, some subjectId, some roles =>
    if h : (boundedName issuer ∧ boundedName audience) ∧
        (1 ≤ roles.length ∧ roles.length ≤ 3) ∧ roles.Nodup then
      .ok ⟨⟨tenantId, subjectId, roles⟩, issuer, audience, issuedAt, expiresAt, h.1.1, h.1.2, h.2.1,
        h.2.2⟩
    else .error .invalid
  | _, _, _ => .error .invalid

/-! ## 2. Segments -/

/-- A character of `_TOKEN_SEGMENT`. -/
def segmentChar (c : CodePoint) : Bool :=
  (48 ≤ c.val && c.val ≤ 57) || (65 ≤ c.val && c.val ≤ 90) || (97 ≤ c.val && c.val ≤ 122) ||
    c.val = 95 || c.val = 45

/-- What `_decode` makes of an error in the text: a `RecursionError` is none of its cases. -/
def LoadError.toToken : LoadError → TokenError
  | value | digits => tokenFault "invalid token JSON"
  | recursion => .recursion

/-- `hmac.compare_digest` of two strings. -/
def compareDigest (a b : PyStr) : Except TokenError Bool :=
  if a.all (·.val < 128) ∧ b.all (·.val < 128) then .ok (a = b)
  else .error (.type "comparing strings with non-ASCII characters is not supported")

namespace Loaded

/-- Whether a value is a string, and this one. -/
def isText (s : PyStr) : Option Loaded → Bool
  | some (str t) => t = s
  | _ => false

/-- The strings of a list, if it holds nothing else. -/
def texts : List Loaded → Option (List PyStr)
  | [] => some []
  | str s :: values => (texts values).map (s :: ·)
  | _ :: _ => Option.none

end Loaded

/-- `datetime.fromtimestamp(seconds, UTC)`. -/
def fromTimestamp (seconds : ℤ) : Except TokenError Moment :=
  if h : earliest ≤ seconds * micro ∧ seconds * micro ≤ latest then .ok ⟨seconds * micro, h.1, h.2⟩
  else .error (tokenFault "token timestamp is invalid")

/-- `int(moment.timestamp())`. The float of `timestamp` is taken as exact. -/
def timestamp (micros : ℤ) : ℤ := micros.tdiv micro

/-! ## 3. The issuer -/

structure HmacTokenIssuer where
  secret : List Byte
  issuer : PyStr
  audience : PyStr
  secretLong : 16 ≤ secret.length
  named : pyStrip issuer ≠ [] ∧ pyStrip audience ≠ []

namespace HmacTokenIssuer

variable [Interpreter]

/-- `_encode`. -/
def encode (value : Loaded) : Except TokenError PyStr :=
  if encodable value.compact then .ok (base64Text (utf8 value.compact)) else .error .encode

/-- `_unique_object`, as the scanner calls it. -/
def uniqueHook : Hook := ⟨uniqueObject, Interpreter.call⟩

/-- `_decode`. -/
def decode (segment : PyStr) : Except TokenError Loaded :=
  if segment = [] ∨ ¬ segment.all segmentChar then .error (tokenFault "invalid token segment")
  else match base64Bytes segment with
    | none => .error (tokenFault "invalid token JSON")
    | some raw => Except.liftWith LoadError.toToken (loads uniqueHook Interpreter.levels raw)

/-- The header of a token, before it is written. -/
def tokenHeader : List (PyStr × Loaded) :=
  [(pyStr "alg", .str (pyStr "HS256")), (pyStr "typ", .str (pyStr "JWT"))]

/-- Whether a value equals the header. -/
def isTokenHeader : Loaded → Bool
  | .dict members =>
    members.length = 2 && Loaded.isText (pyStr "HS256") (Loaded.get members "alg") &&
      Loaded.isText (pyStr "JWT") (Loaded.get members "typ")
  | _ => false

variable (a : HmacTokenIssuer)

/-- The signature of a header and a payload, as it is written. -/
def signature (header body : PyStr) : PyStr :=
  base64Text (Interpreter.digest a.secret (utf8 (header ++ pyStr "." ++ body)))

/-- The claims of a token. -/
def tokenClaims (tenantId subjectId : PyStr) (roles : List Role) (issued expires : ℤ) :
    List (PyStr × Loaded) :=
  [(pyStr "iss", .str a.issuer), (pyStr "aud", .str a.audience), (pyStr "sub", .str subjectId),
    (pyStr "tenant", .str tenantId),
    (pyStr "roles", .list (roles.map fun role => .str (pyStr role.value))),
    (pyStr "iat", .int issued), (pyStr "exp", .int expires)]

/-- `issue`. -/
def issue (tenantId subjectId : PyStr) (roles : List Role) (now : Datetime)
    (expiresInSeconds : ℤ) : Except TokenError PyStr := do
  let current ← Except.liftWith .value (utc now)
  guardThat (0 < expiresInSeconds) (tokenFault "token lifetime must be positive")
  let expires := current.micros + expiresInSeconds * micro
  -- a lifetime that no `timedelta` holds ends in the same way
  guardThat (expires ≤ latest) .overflow
  let header ← encode (.dict tokenHeader)
  let body ← encode (.dict (a.tokenClaims tenantId subjectId roles (timestamp current.micros)
    (timestamp expires)))
  pure (header ++ pyStr "." ++ body ++ pyStr "." ++ a.signature header body)

/-- What `verify` makes of the claims of a token with the right signature. -/
def principalOf (claims : List (PyStr × Loaded)) (now : Datetime) :
    Except TokenError VerifiedPrincipal := do
  guardThat (Loaded.isText a.issuer (Loaded.get claims "iss") ∧
    Loaded.isText a.audience (Loaded.get claims "aud"))
    (tokenFault "token issuer or audience mismatch")
  match Loaded.get claims "iat", Loaded.get claims "exp" with
  | some (.int issued), some (.int expires) => do
    let issuedAt ← fromTimestamp issued
    let expiresAt ← fromTimestamp expires
    let current ← Except.liftWith .value (utc now)
    guardThat (issuedAt ≤ current) (tokenFault "token was issued in the future")
    guardThat (current < expiresAt) (tokenFault "token is expired")
    match Loaded.get claims "sub", Loaded.get claims "tenant", Loaded.get claims "roles" with
    | some (.str subject), some (.str tenant), some (.list roles) =>
      match Loaded.texts roles with
      | none => .error (tokenFault "token roles are invalid")
      | some roles =>
        modelValidatePrincipal tenant subject a.issuer a.audience roles issuedAt expiresAt
    | _, _, _ => .error (tokenFault "required token claims are invalid")
  | _, _ => .error (tokenFault "token timestamps must be integers")

/-- What `verify` makes of two values that were decoded, and a signature. -/
def checkParts (headerValue payloadValue signatureValue : PyStr) (header payload : Loaded)
    (now : Datetime) : Except TokenError VerifiedPrincipal := do
  guardThat (isTokenHeader header) (tokenFault "unsupported token header")
  match payload with
  | .dict claims => do
    let same ← compareDigest (a.signature headerValue payloadValue) signatureValue
    guardThat same (tokenFault "invalid token signature")
    a.principalOf claims now
  | _ => .error (tokenFault "invalid token claims")

/-- `verify`. -/
def verify (token : PyStr) (now : Datetime) : Except TokenError VerifiedPrincipal :=
  match splitAt '.' token with
  | [headerValue, payloadValue, signatureValue] => do
    let header ← decode headerValue
    let payload ← decode payloadValue
    a.checkParts headerValue payloadValue signatureValue header payload now
  | _ => .error (tokenFault "invalid bearer token")

end HmacTokenIssuer

/-! ## 4. The dependency -/

/-- An `HTTPException`, or an exception that the dependency lets pass: an internal error. -/
inductive AuthRefusal where
  | http (status : ℕ) (detail : String)
  | uncaught (error : TokenError)
deriving DecidableEq

/-- What the dependency reads of a request. -/
structure AuthRequest where
  method : String
  origin : Option PyStr
  authorization : Option PyStr
  sessionCookie : Option PyStr

/-- The token that a request presents. -/
def presentedToken (browserLogin : Bool) (cookieAuthOrigin : Option PyStr) (request : AuthRequest) :
    Except AuthRefusal PyStr :=
  match request.authorization.filter (fun value => pyStr "Bearer " <+: value),
      request.sessionCookie.filter (fun _ => browserLogin) with
  | some value, _ => .ok (value.drop 7)
  | none, some cookie =>
    if request.method ∉ ["GET", "HEAD", "OPTIONS"] ∧ request.origin ≠ cookieAuthOrigin then
      .error (.http 403 "same-origin request required")
    else .ok cookie
  | none, none => .error (.http 401 "authentication required")

/-- What the dependency makes of a verification. -/
def authenticated : Except TokenError VerifiedPrincipal → Except AuthRefusal VerifiedPrincipal
  | .ok verified => .ok verified
  | .error error =>
    if error.caught then .error (.http 401 "invalid authentication") else .error (.uncaught error)

/-- `principal`, with a token issuer as its authenticator. -/
def principal [Interpreter] (authenticator : Option HmacTokenIssuer) (browserLogin : Bool)
    (cookieAuthOrigin : Option PyStr) (request : AuthRequest) (now : Datetime) :
    Except AuthRefusal VerifiedPrincipal :=
  match authenticator with
  | none => .error (.http 503 "authentication not configured")
  | some authenticator => do
    let token ← presentedToken browserLogin cookieAuthOrigin request
    authenticated (authenticator.verify token now)

end NokincFactory
