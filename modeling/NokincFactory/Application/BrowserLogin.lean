/-
  File:      NokincFactory/Application/BrowserLogin.lean
  Subject:   Signing in with a browser: `cognito_login.py`, and the pages under `/auth` of
             `service.py`.

  A page is a program over random bytes, the time, the token endpoint and the verifier of
  identities. Its answer is a status, where it sends the browser, and the cookies it sets.

  * `CognitoLoginSettings`, `start`, `exchangeCode`: `CognitoHostedLogin`;
  * `LoginCookie`, `SetCookie`, `LoginResponse`: what a page answers;
  * `authLogin`, `authCallback`, `authLogout`: the pages.
-/
import NokincFactory.Application.HmacTokenIssuer
import NokincFactory.Domain.Preflight
import NokincFactory.Lib.Form
import NokincFactory.Lib.Programs

namespace NokincFactory

/-- `hashlib.sha256(…).digest()`. -/
def Digest.bytes (d : Digest) : List Byte :=
  (List.range 32).map fun i => Fin.ofNat _ (d.bits.toNat / 256 ^ (31 - i))

namespace Login

/-! ## 1. The hosted login -/

structure CognitoLoginSettings where
  hostedUiBaseUrl : PyStr
  clientId : PyStr
  callbackUrl : PyStr
  logoutUrl : PyStr

structure CognitoLoginStart where
  authorizationUrl : PyStr
  state : PyStr
  nonce : PyStr
  codeVerifier : PyStr

/-- What the token client is called with. -/
structure CodeExchange where
  tokenEndpointUrl : PyStr
  clientId : PyStr
  code : PyStr
  redirectUri : PyStr
  codeVerifier : PyStr

/-- What a `datetime` can hold: a time of its years, and an offset of less than a day. -/
structure Holds (time : Datetime) : Prop where
  wall : earliest ≤ time.wall ∧ time.wall ≤ latest
  offset : ∀ offset, time.offset = some offset → |offset| < 86400 * micro

abbrev CallbackTime : Type := {time : Datetime // Holds time}

/-- Something asked while a browser signs in. -/
inductive LoginAsk where
  | tokenBytes (count : ℕ)
  | exchangeCode (request : CodeExchange)
  | now
  | verify (token : PyStr) (now : Datetime) (expectedNonce : PyStr)

@[reducible] def LoginAsk.Answer : LoginAsk → Type
  | .tokenBytes count => {bytes : List Byte // bytes.length = count}
  | .exchangeCode _ => Except TokenError PyStr
  | .now => CallbackTime
  | .verify _ _ _ => Except TokenError VerifiedPrincipal

abbrev LoginProg (α : Type) : Type := Prog LoginAsk LoginAsk.Answer TokenError α

/-- `secrets.token_urlsafe`. -/
def tokenUrlsafe (count : ℕ) : LoginProg PyStr :=
  .ask (.tokenBytes count) fun bytes => pure (base64Text bytes.val)

/-- The base URL, without the slashes at its end. -/
def CognitoLoginSettings.base (settings : CognitoLoginSettings) : PyStr :=
  settings.hostedUiBaseUrl.rdropWhile fun c => isChar c '/'

section

variable [Hashlib]

/-- The challenge of a verifier, by the method `S256`. -/
def codeChallenge (verifier : PyStr) : PyStr := base64Text (Hashlib.sha256 (utf8 verifier)).bytes

/-- The fields of an authorization request. -/
def authorizationFields (settings : CognitoLoginSettings) (state nonce verifier : PyStr) :
    List (PyStr × PyStr) :=
  [(pyStr "client_id", settings.clientId), (pyStr "response_type", pyStr "code"),
    (pyStr "scope", pyStr "openid email profile"), (pyStr "redirect_uri", settings.callbackUrl),
    (pyStr "state", state), (pyStr "nonce", nonce),
    (pyStr "code_challenge", codeChallenge verifier), (pyStr "code_challenge_method", pyStr "S256")]

def authorizationUrl (settings : CognitoLoginSettings) (state nonce verifier : PyStr) : PyStr :=
  settings.base ++ pyStr "/oauth2/authorize?" ++
    pyText (urlencode (authorizationFields settings state nonce verifier))

/-- `CognitoHostedLogin.start`. -/
def start (settings : CognitoLoginSettings) : LoginProg CognitoLoginStart := do
  let state ← tokenUrlsafe 32
  let nonce ← tokenUrlsafe 32
  let verifier ← tokenUrlsafe 64
  pure ⟨authorizationUrl settings state nonce verifier, state, nonce, verifier⟩

end

/-- `CognitoHostedLogin.exchange_code`. -/
def exchangeCode (settings : CognitoLoginSettings) (code codeVerifier : PyStr) :
    LoginProg PyStr := do
  .insist (code ≠ [] ∧ code.length ≤ 8192 ∧ codeVerifier ≠ [] ∧ codeVerifier.length ≤ 128)
    (tokenFault "invalid Cognito authorization response")
  .ask (.exchangeCode ⟨settings.base ++ pyStr "/oauth2/token", settings.clientId, code,
    settings.callbackUrl, codeVerifier⟩) .ofExcept

def verifyIdToken (token : PyStr) (now : Datetime) (expectedNonce : PyStr) :
    LoginProg VerifiedPrincipal :=
  .ask (.verify token now expectedNonce) .ofExcept

/-- `CognitoHostedLogin.logout_url`. -/
def logoutUrl (settings : CognitoLoginSettings) : PyStr :=
  settings.base ++ pyStr "/logout?" ++
    pyText (urlencode [(pyStr "client_id", settings.clientId),
      (pyStr "logout_uri", settings.logoutUrl)])

/-! ## 2. Answers -/

inductive LoginCookie where
  /-- `__Host-factory_oidc_state` -/
  | state
  /-- `__Host-factory_oidc_nonce` -/
  | nonce
  /-- `__Host-factory_oidc_verifier` -/
  | verifier
  /-- `__Host-factory_id_token` -/
  | idToken
deriving DecidableEq

/-- One of the `Set-Cookie` headers, which are all for `/`, secure, `HttpOnly` and lax. -/
inductive SetCookie where
  | set (name : LoginCookie) (value : PyStr) (maxAge : ℕ)
  | delete (name : LoginCookie)

structure LoginResponse where
  status : ℕ
  location : Option PyStr
  cookies : List SetCookie
  noStore : Bool
  noReferrer : Bool

/-- `clear_login_cookies`. -/
def clearLoginCookies : List SetCookie := [.delete .state, .delete .nonce, .delete .verifier]

/-- The answer of a sign-in that failed. -/
def signInFailed : LoginResponse := ⟨400, none, clearLoginCookies, false, false⟩

/-- The answer of a sign-in that is complete. -/
def signedIn (idToken : PyStr) (maxAge : ℕ) : LoginResponse :=
  ⟨303, some (pyStr "/chat"), clearLoginCookies ++ [.set .idToken idToken maxAge], true, true⟩

/-! ## 3. The pages -/

/-- The values of a field of a query. -/
def queryValues (query : List (PyStr × PyStr)) (name : String) : List PyStr :=
  (query.filter (·.1 = pyStr name)).map Prod.snd

/-- The parameter of a page: the last value of the field. -/
def queryValue (query : List (PyStr × PyStr)) (name : String) : Option PyStr :=
  (queryValues query name).getLast?

/-- `auth_login`. -/
def authLogin [Hashlib] (settings : CognitoLoginSettings) : LoginProg LoginResponse := do
  let attempt ← start settings
  pure ⟨302, some attempt.authorizationUrl, [.set .state attempt.state 300,
    .set .nonce attempt.nonce 300, .set .verifier attempt.codeVerifier 300], true, true⟩

/-- `int(….total_seconds())` of a span in microseconds: the double nearest to its seconds, cut
off. -/
def wholeSeconds (span : ℤ) : ℤ := Binary64.truncate (Binary64.round ((span : ℚ) / 1000000))

/-- `int((identity.expires_at - callback_time).total_seconds())`. -/
def remainingSeconds (expiresAt : Moment) (callbackTime : Datetime) : Except TokenError ℤ :=
  match callbackTime.offset with
  | none => .error (.type "can't subtract offset-naive and offset-aware datetimes")
  | some offset => .ok (wholeSeconds (expiresAt.micros - (callbackTime.wall - offset)))

/-- `now`. -/
def askTime : LoginProg CallbackTime := .send LoginAsk.now

/-- What is in the `try` of `auth_callback`. -/
def identify (settings : CognitoLoginSettings) (code savedNonce savedVerifier : PyStr) :
    LoginProg (PyStr × CallbackTime × VerifiedPrincipal) := do
  let idToken ← exchangeCode settings code savedVerifier
  let callbackTime ← askTime
  let identity ← verifyIdToken idToken callbackTime.val savedNonce
  pure (idToken, callbackTime, identity)

/-- `auth_callback`, once its parameters are checked. -/
def completeSignIn (settings : CognitoLoginSettings) (code savedNonce savedVerifier : PyStr) :
    LoginProg LoginResponse := do
  let outcome ← (identify settings code savedNonce savedVerifier).attempt
  match outcome with
  | .error error => if error.caught then pure signInFailed else .raise error
  | .ok (idToken, callbackTime, identity) => do
      let maxAge ← .ofExcept (remainingSeconds identity.expiresAt callbackTime.val)
      if maxAge ≤ 0 then pure signInFailed else pure (signedIn idToken maxAge.toNat)

/-- `auth_callback`. -/
def authCallback (settings : CognitoLoginSettings) (query : List (PyStr × PyStr))
    (saved : LoginCookie → Option PyStr) : LoginProg LoginResponse :=
  match queryValue query "error", queryValue query "code", queryValue query "state",
    saved .state, saved .nonce, saved .verifier with
  | none, some code, some state, some savedState, some savedNonce, some savedVerifier =>
      if 8192 < code.length ∨ 256 < state.length ∨ (queryValues query "code").length ≠ 1 ∨
          (queryValues query "state").length ≠ 1 then pure signInFailed
      else do
        let same ← .ofExcept (compareDigest state savedState)
        if same then completeSignIn settings code savedNonce savedVerifier else pure signInFailed
  | _, _, _, _, _, _ => pure signInFailed

/-- `auth_logout`. -/
def authLogout (settings : CognitoLoginSettings) : LoginResponse :=
  ⟨303, some (logoutUrl settings), [.delete .idToken], true, false⟩

/-- `auth_signed_out`. -/
def authSignedOut : LoginResponse := ⟨200, none, [], false, false⟩

inductive LoginPage where
  | login
  | callback (query : List (PyStr × PyStr))
  | logout
  | signedOut

/-- The handler of a page, with the cookies that came with the request. -/
def handlePage [Hashlib] (settings : CognitoLoginSettings) (saved : LoginCookie → Option PyStr) :
    LoginPage → LoginProg LoginResponse
  | .login => authLogin settings
  | .callback query => authCallback settings query saved
  | .logout => pure (authLogout settings)
  | .signedOut => pure authSignedOut

end Login

end NokincFactory
