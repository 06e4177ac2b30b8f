/-
  File:      NokincFactory/Api/LoginRoundTrip.lean
  Subject:   A sign-in that is begun can be completed.

  The provider is assumed to grant the code that it is shown, with the verifier of the attempt, and
  the verifier to accept its token at that time; no key or signature of a token is modelled here.

  * `Attempt.Drawn`: an attempt with its random bytes;
  * `authLogin_run`, `receive_sent`: what a browser is given, and what it sends;
  * `Grants`: a token endpoint and a verifier that accept a code;
  * `matching_signsIn`: a matching callback with a code that is granted signs in;
  * `login_completes`: the address of a sign-in says what the server will ask for, and a provider
    that keeps to it signs the browser in.
-/
import NokincFactory.Api.Login

namespace NokincFactory.Login

/-! ## 1. Random texts -/

theorem sextets_length : ∀ bytes : List Byte, (sextets bytes).length = (bytes.length * 4 + 2) / 3
  | [] => rfl
  | [_] => by simp [sextets]
  | [_, _] => by simp [sextets]
  | a :: b :: c :: rest => by
      have ih := sextets_length rest
      simp only [sextets, List.length_cons, ih]
      omega

theorem base64Text_length (bytes : List Byte) :
    (base64Text bytes).length = (bytes.length * 4 + 2) / 3 := by
  unfold base64Text pyText urlsafeEncode toLetters
  rw [List.length_map, List.length_map, sextets_length]

/-- A random text is found to be the same as itself. -/
theorem compareDigest_self (bytes : List Byte) :
    compareDigest (base64Text bytes) (base64Text bytes) = .ok true := by
  have hascii : (base64Text bytes).all (·.val < 128) = true := by
    rw [List.all_eq_true]
    intro c hc
    obtain ⟨a, -, rfl, ha, -⟩ := base64_letter hc
    exact decide_eq_true ha
  rw [compareDigest, if_pos ⟨hascii, hascii⟩, decide_eq_true rfl]

/-- An attempt with as many random bytes as the login draws. -/
def Attempt.Drawn (a : Attempt) : Prop :=
  ∃ state nonce verifier : List Byte, state.length = 32 ∧ verifier.length = 64 ∧
    a = ⟨base64Text state, base64Text nonce, base64Text verifier⟩

/-! ## 2. A sign-in -/

section

variable {W : Type} {settings : CognitoLoginSettings}
  {respond : W → (request : LoginAsk) → LoginAsk.Answer request × W}

/-- A page sends the browser away with the cookies of an attempt, to an address with its
fields. -/
theorem authLogin_run [Hashlib] (settings : CognitoLoginSettings)
    (respond : W → (request : LoginAsk) → LoginAsk.Answer request × W) (w : W) :
    ∃ a : Attempt, ∃ response w', a.Drawn ∧
      (authLogin settings).run respond w = (.ok response, w') ∧ response.cookies = a.cookies ∧
        response.location = some (authorizationUrl settings a.state a.nonce a.verifier) := by
  let state := respond w (.tokenBytes 32)
  let nonce := respond state.2 (.tokenBytes 32)
  let verifier := respond nonce.2 (.tokenBytes 64)
  exact ⟨⟨base64Text state.1.val, base64Text nonce.1.val, base64Text verifier.1.val⟩, _, _,
    ⟨state.1.val, nonce.1.val, verifier.1.val, state.1.property, verifier.1.property, rfl⟩,
    rfl, rfl, rfl⟩

/-- A browser that has received the cookies of an attempt sends them. -/
theorem receive_sent {response : LoginResponse} {a : Attempt} (h : response.cookies = a.cookies)
    (jar : Jar) :
    ∀ name ≠ LoginCookie.idToken, (jar.receive response).sent name = a.value name := by
  intro name hname
  unfold Jar.receive
  rw [h]
  cases name with
  | state => rfl
  | nonce => rfl
  | verifier => rfl
  | idToken => exact absurd rfl hname

/-- The token endpoint gives the token for the code and the verifier of the attempt, and the
verifier of identities takes it with the nonce, for an identity that lasts so many microseconds. -/
inductive Grants (settings : CognitoLoginSettings)
    (respond : W → (request : LoginAsk) → LoginAsk.Answer request × W) (a : Attempt)
    (code token : PyStr) (left : ℤ) (w w' : W) : Prop where
  | intro (w₁ w₂ : W) (time : CallbackTime) (offset : ℤ) (identity : VerifiedPrincipal)
      (hexchange : respond w (.exchangeCode (codeExchange settings code a.verifier)) =
        (.ok token, w₁))
      (htime : respond w₁ .now = (time, w₂))
      (hverify : respond w₂ (.verify token time.val a.nonce) = (.ok identity, w'))
      (hoffset : time.val.offset = some offset)
      (hleft : identity.expiresAt.micros = time.val.wall - offset + left)

variable {a : Attempt} {code token : PyStr} {left : ℤ} {w w' : W}

/-- Where a second is left, a session lasts for some. -/
theorem Grants.seconds (h : Grants settings respond a code token left w w') (hleft : micro ≤ left) :
    0 < wholeSeconds left ∧ SecondsOf left (wholeSeconds left) := by
  obtain ⟨_, _, time, offset, identity, -, -, -, hoffset, hspan⟩ := h
  have hheld := span_held identity hoffset
  have hsame : identity.expiresAt.micros - (time.val.wall - offset) = left := by omega
  rw [hsame] at hheld
  have hnonneg : 0 ≤ left := le_trans (by decide) hleft
  have hseconds := secondsOf_wholeSeconds hnonneg hheld
  refine ⟨?_, hseconds⟩
  have hcut := hseconds.1
  unfold micro at hcut hleft
  omega

theorem identify_run (ha : a.Drawn) (hne : code ≠ []) (hlength : code.length ≤ 8192)
    (h : Grants settings respond a code token left w w') :
    ∃ time identity, (identify settings code a.nonce a.verifier).run respond w =
        (.ok (token, time, identity), w') ∧
      remainingSeconds identity.expiresAt time.val = .ok (wholeSeconds left) := by
  obtain ⟨w₁, w₂, time, offset, identity, hexchange, htime, hverify, hoffset, hleft⟩ := h
  have hspan : identity.expiresAt.micros - (time.val.wall - offset) = left := by omega
  have hremaining : remainingSeconds identity.expiresAt time.val = .ok (wholeSeconds left) := by
    unfold remainingSeconds
    rw [hoffset, ← hspan]
  refine ⟨time, identity, ?_, hremaining⟩
  have hverifier : a.verifier ≠ [] ∧ a.verifier.length ≤ 128 := by
    obtain ⟨_, _, verifier, -, hbytes, rfl⟩ := ha
    have h86 : (base64Text verifier).length = 86 := by rw [base64Text_length, hbytes]
    refine ⟨List.ne_nil_of_length_pos (h86 ▸ by decide), ?_⟩
    show (base64Text verifier).length ≤ 128
    rw [h86]
    decide
  have hcode : (exchangeCode settings code a.verifier).run respond w = (.ok token, w₁) := by
    unfold exchangeCode Prog.insist
    rw [if_pos ⟨hne, hlength, hverifier⟩]
    show (Prog.ofExcept (respond w (.exchangeCode (codeExchange settings code a.verifier))).1).run
      respond (respond w (.exchangeCode (codeExchange settings code a.verifier))).2 = _
    rw [hexchange]
    rfl
  have hnow : askTime.run respond w₁ = (.ok time, w₂) := by
    unfold askTime
    rw [Prog.run_send, htime]
  have hidentity : (verifyIdToken token time.val a.nonce).run respond w₂ = (.ok identity, w') := by
    show (Prog.ofExcept (respond w₂ (.verify _ _ _)).1).run respond _ = _
    rw [hverify]
    rfl
  unfold identify
  rw [Prog.run_bind_ok _ _ hcode, Prog.run_bind_ok _ _ hnow, Prog.run_bind_ok _ _ hidentity]
  rfl

/-- A matching callback with a code that is granted signs in. -/
theorem matching_signsIn [Hashlib] {β : Type} {request : PageRequest β}
    {query : List (PyStr × PyStr)} (ha : a.Drawn) (hrequest : Matching a request query code)
    (hne : code ≠ []) (hlength : code.length ≤ 8192) (hpositive : 0 < wholeSeconds left)
    (h : Grants settings respond a code token left w w') :
    (handlePage settings request.saved request.page).run respond w =
      (.ok (signedIn token (wholeSeconds left).toNat), w') := by
  obtain ⟨time, identity, hidentify, hremaining⟩ := identify_run ha hne hlength h
  have hcomplete : (completeSignIn settings code a.nonce a.verifier).run respond w =
      (.ok (signedIn token (wholeSeconds left).toNat), w') := by
    unfold completeSignIn
    rw [Prog.run_bind_ok _ _ (Prog.run_attempt_of _ _ hidentify)]
    show (Prog.bind (Prog.ofExcept (remainingSeconds _ _)) _).run respond w' = _
    rw [hremaining]
    show (ite _ _ _ : LoginProg LoginResponse).run respond w' = _
    rw [if_neg (by omega)]
    rfl
  have hsame : compareDigest a.state a.state = .ok true ∧ a.state.length = 43 := by
    obtain ⟨state, _, _, hbytes, -, rfl⟩ := ha
    exact ⟨compareDigest_self state, by rw [base64Text_length, hbytes]⟩
  have hnoError : queryValue query "error" = none := by
    rw [queryValue, hrequest.error]
    rfl
  have hcode : queryValue query "code" = some code := by
    rw [queryValue, hrequest.code]
    rfl
  have hstate : queryValue query "state" = some a.state := by
    rw [queryValue, hrequest.state]
    rfl
  have hone : ¬ (8192 < code.length ∨ 256 < a.state.length ∨
      (queryValues query "code").length ≠ 1 ∨ (queryValues query "state").length ≠ 1) := by
    rw [hrequest.code, hrequest.state, hsame.2]
    simp only [List.length_singleton, ne_eq, not_true_eq_false, or_false]
    omega
  rw [hrequest.page]
  show (authCallback settings query request.saved).run respond w = _
  unfold authCallback
  rw [hnoError, hcode, hstate, hrequest.saved .state (by decide), hrequest.saved .nonce (by decide),
    hrequest.saved .verifier (by decide)]
  show (ite _ _ _ : LoginProg LoginResponse).run respond w = _
  rw [if_neg hone, hsame.1]
  exact hcomplete

/-- **Signing in can be completed**: whatever random bytes are drawn, the page of the login gives
the browser the cookies of an attempt and sends it to an address whose query is read as the fields
of an authorization request, with the state, the nonce and the challenge of the verifier that are
in these cookies; and a callback that brings back this state once, with a code that the provider
grants for an identity that lasts a second or more, from a browser that sends these cookies, is
answered with a session that lasts as long as the identity, in whole seconds of a float. -/
theorem login_completes [Hashlib] (settings : CognitoLoginSettings)
    (respond : W → (request : LoginAsk) → LoginAsk.Answer request × W) (w : W) (jar : Jar) :
    ∃ a : Attempt, ∃ response w' form, (authLogin settings).run respond w = (.ok response, w') ∧
      response.cookies = a.cookies ∧
      response.location = some (settings.base ++ pyStr "/oauth2/authorize?" ++ pyText form) ∧
      readForm form = some (authorizationFields settings a.state a.nonce a.verifier) ∧
      ∀ query code token left w w',
        queryValues query "error" = [] → queryValues query "code" = [code] →
        queryValues query "state" = [a.state] → code ≠ [] → code.length ≤ 8192 →
        micro ≤ left → Grants settings respond a code token left w w' →
          ∃ maxAge : ℕ, 0 < maxAge ∧ SecondsOf left maxAge ∧
            (authCallback settings query (jar.receive response).sent).run respond w =
              (.ok (signedIn token maxAge), w') := by
  obtain ⟨a, response, w', ha, hrun, hcookies, hlocation⟩ := authLogin_run settings respond w
  refine ⟨a, response, w', _, hrun, hcookies, hlocation, readForm_urlencode (List.cons_ne_nil _ _),
    ?_⟩
  intro query code token left w w' herror hcode hstate hne hlength hleft hgrants
  obtain ⟨hpositive, hseconds⟩ := hgrants.seconds hleft
  have hmatching : Matching a
      (⟨(), .callback query, (jar.receive response).sent⟩ : PageRequest Unit) query code :=
    ⟨rfl, receive_sent hcookies jar, herror, hcode, hstate⟩
  refine ⟨(wholeSeconds left).toNat, by omega, ?_,
    matching_signsIn ha hmatching hne hlength hpositive hgrants⟩
  rwa [Int.toNat_of_nonneg hpositive.le]

end

namespace LoginFixture

/-- A provider that grants every code. -/
def respond (_ : Unit) : (request : LoginAsk) → LoginAsk.Answer request × Unit
  | .tokenBytes count => (zeros count, ())
  | .exchangeCode _ => (.ok token, ())
  | .now => (time, ())
  | .verify _ _ _ => (.ok identity, ())

end LoginFixture

open LoginFixture in
theorem login_completes_signedIn : ∃ query saved maxAge,
    (authCallback settings query saved).run respond () = (.ok (signedIn token maxAge), ()) := by
  obtain ⟨a, response, w', form, -, -, -, -, hcompletes⟩ :=
    login_completes settings respond () fun _ => none
  obtain ⟨maxAge, -, -, hrun⟩ := hcompletes [(pyStr "code", pyStr "c"), (pyStr "state", a.state)]
    (pyStr "c") token micro () () rfl rfl rfl (List.cons_ne_nil _ _) (by decide) le_rfl
    ⟨(), (), time, 0, identity, rfl, rfl, rfl, rfl, by decide⟩
  exact ⟨_, _, maxAge, hrun⟩

end NokincFactory.Login
