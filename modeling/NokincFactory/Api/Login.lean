/-
  File:      NokincFactory/Api/Login.lean
  Subject:   Many browsers signing in at once, with everything on its way between them and the
             server.

  A browser may send a request for any page at any time, whoever made it do so; it sends the
  cookies it has then, takes answers in any order, and loses cookies at any time. Cookies that
  another site plants are not covered, and neither is what the token endpoint and the verifier do:
  they answer anything. The time that an identity lasts is a float of seconds, as in the server.

  * `Jar`, `Web`, `Browses`: browsers, and what is on its way;
  * `serveOne`, `web`: the server, one program a request;
  * `loginGuard`, `serveOne_guarded`: what the server asks for, and what it answers;
  * `SecondsOf`, `secondsOf_wholeSeconds`: the seconds for which a session is kept;
  * `Attempted`, `SignedIn`: what a run shows of a browser;
  * `logins_bound`: a session is of a sign-in that its own browser began.
-/
import NokincFactory.Application.BrowserLogin
import NokincFactory.Lib.Layers

namespace NokincFactory.Login

open Protocol

/-! ## 1. Browsers -/

/-- The cookies of a browser, each with the seconds for which it is kept. -/
abbrev Jar : Type := LoginCookie → Option (PyStr × ℕ)

def Jar.set (jar : Jar) : SetCookie → Jar
  | .set name value maxAge => Function.update jar name (some (value, maxAge))
  | .delete name => Function.update jar name none

/-- The cookies after an answer. -/
def Jar.receive (jar : Jar) (response : LoginResponse) : Jar := response.cookies.foldl Jar.set jar

/-- The cookies that are sent. -/
def Jar.sent (jar : Jar) (name : LoginCookie) : Option PyStr := (jar name).map Prod.fst

/-- A request, with the cookies that come with it. -/
structure PageRequest (β : Type) where
  browser : β
  page : LoginPage
  saved : LoginCookie → Option PyStr

/-- The browsers, and what is on its way from and to them. -/
structure Web (β : Type) where
  jars : β → Jar
  requests : List (PageRequest β)
  responses : List (β × LoginResponse)

/-- What browsers do by themselves. -/
inductive Browses {β : Type} [DecidableEq β] : Web β → Web β → Prop where
  | sends (w : Web β) (browser : β) (page : LoginPage) :
      Browses w { w with requests := ⟨browser, page, (w.jars browser).sent⟩ :: w.requests }
  | receives (w : Web β) (browser : β) (response : LoginResponse)
      (earlier later : List (β × LoginResponse))
      (h : w.responses = earlier ++ (browser, response) :: later) :
      Browses w { w with
        jars := Function.update w.jars browser ((w.jars browser).receive response)
        responses := earlier ++ later }
  | forgets (w : Web β) (browser : β) (name : LoginCookie) :
      Browses w { w with
        jars := Function.update w.jars browser ((w.jars browser).set (.delete name)) }

/-! ## 2. The server -/

/-- Something asked by the server: the next request, what a page asks, or the sending of an
answer. -/
inductive ServerAsk (β : Type) where
  | receive
  | page (request : LoginAsk)
  | respond (browser : β) (response : LoginResponse)

@[reducible] def ServerAsk.Answer {β : Type} : ServerAsk β → Type
  | .receive => PageRequest β
  | .page request => LoginAsk.Answer request
  | .respond _ _ => Unit

abbrev ServerProg (β α : Type) : Type := Prog (ServerAsk β) ServerAsk.Answer TokenError α

/-- Something asked, with its answer. -/
abbrev Exchange (β : Type) : Type := Σ request : ServerAsk β, ServerAsk.Answer request

section Server

variable {ι β : Type}

/-- The answer where a page raised what it does not catch. -/
def internalError : LoginResponse := ⟨500, none, [], false, false⟩

def responseOf : Except TokenError LoginResponse → LoginResponse
  | .ok response => response
  | .error _ => internalError

/-- A page, as a part of the server. -/
def asServer {α : Type} (p : LoginProg α) : ServerProg β α :=
  p.over fun request => .send (ServerAsk.page request)

/-- One request, from its receipt to its answer. -/
def serveOne [Hashlib] (settings : CognitoLoginSettings) : ServerProg β Unit :=
  .ask .receive fun request =>
    (asServer (handlePage settings request.saved request.page)).attempt >>= fun outcome =>
      .ask (.respond request.browser (responseOf outcome)) fun _ => .ret ()

/-- The server among the browsers: requests are received in any order, and whatever the token
endpoint and the verifier answer. -/
def web [DecidableEq β] : Surroundings ι (ServerAsk β) ServerAsk.Answer (Web β) where
  start w := w = ⟨fun _ _ => none, [], []⟩
  answers w _
    | .receive, request, w' => ∃ earlier later, w.requests = earlier ++ request :: later ∧
        w' = { w with requests := earlier ++ later }
    | .page _, _, w' => w' = w
    | .respond browser response, _, w' =>
        w' = { w with responses := (browser, response) :: w.responses }
  changes := Browses

/-! ## 3. What the server asks for, and what it answers -/

/-- What a browser is given when it begins to sign in. -/
structure Attempt where
  state : PyStr
  nonce : PyStr
  verifier : PyStr

/-- The value of a cookie of an attempt. -/
def Attempt.value (a : Attempt) : LoginCookie → Option PyStr
  | .state => some a.state
  | .nonce => some a.nonce
  | .verifier => some a.verifier
  | .idToken => none

def Attempt.cookies (a : Attempt) : List SetCookie :=
  [.set .state a.state 300, .set .nonce a.nonce 300, .set .verifier a.verifier 300]

/-- What a program of the server has asked and was answered when it began a sign-in. -/
def Began (browser : β) (a : Attempt) (asked : List (Exchange β)) : Prop :=
  ∃ saved, ∃ state : {bytes : List Byte // bytes.length = 32},
    ∃ nonce : {bytes : List Byte // bytes.length = 32},
      ∃ verifier : {bytes : List Byte // bytes.length = 64},
        asked = [⟨.receive, ⟨browser, .login, saved⟩⟩, ⟨.page (.tokenBytes 32), state⟩,
          ⟨.page (.tokenBytes 32), nonce⟩, ⟨.page (.tokenBytes 64), verifier⟩] ∧
        a = ⟨base64Text state.val, base64Text nonce.val, base64Text verifier.val⟩

/-- The parameters of the exchange of a code. -/
def codeExchange (settings : CognitoLoginSettings) (code verifier : PyStr) : CodeExchange :=
  ⟨settings.base ++ pyStr "/oauth2/token", settings.clientId, code, settings.callbackUrl, verifier⟩

/-- A callback with one code and one state, which is that of the attempt whose cookies came with
it. -/
structure Matching (a : Attempt) (request : PageRequest β) (query : List (PyStr × PyStr))
    (code : PyStr) : Prop where
  page : request.page = .callback query
  saved : ∀ name ≠ LoginCookie.idToken, request.saved name = a.value name
  error : queryValues query "error" = []
  code : queryValues query "code" = [code]
  state : queryValues query "state" = [a.state]

/-- The seconds of a span in microseconds, as a double gives them: at most one is cut off, and only
from `2 ^ 34` seconds on may one be rounded up. -/
def SecondsOf (span seconds : ℤ) : Prop :=
  span - micro < seconds * micro ∧ seconds * micro < span + micro ∧
    (span < 2 ^ 34 * micro → seconds * micro ≤ span)

/-- A session that begins at a time ends with the identity, as a float gives its seconds. -/
def LastsUntil (identity : VerifiedPrincipal) (time : Datetime) (maxAge : ℕ) : Prop :=
  0 < maxAge ∧ ∃ offset, time.offset = some offset ∧
    SecondsOf (identity.expiresAt.micros - (time.wall - offset)) maxAge

/-- What a program of the server has asked and was answered when it completed a sign-in: the code
was exchanged with the verifier of the attempt, and the token verified with its nonce. -/
def Completed (settings : CognitoLoginSettings) (browser : β) (a : Attempt) (token : PyStr)
    (maxAge : ℕ) (asked : List (Exchange β)) : Prop :=
  ∃ request : PageRequest β, ∃ query code, ∃ time : CallbackTime, ∃ identity : VerifiedPrincipal,
    request.browser = browser ∧ Matching a request query code ∧
      asked = [⟨.receive, request⟩,
        ⟨.page (.exchangeCode (codeExchange settings code a.verifier)), .ok token⟩,
        ⟨.page .now, time⟩, ⟨.page (.verify token time.val a.nonce), .ok identity⟩] ∧
      LastsUntil identity time.val maxAge

/-- An answer that sets no cookie. -/
def Clears (response : LoginResponse) : Prop :=
  ∀ cookie ∈ response.cookies, ∃ name, cookie = .delete name

/-- What may be answered after what was asked. -/
inductive Answers (settings : CognitoLoginSettings) (browser : β) (asked : List (Exchange β))
    (response : LoginResponse) : Prop where
  | clears (h : Clears response)
  | began (a : Attempt) (h : Began browser a asked) (hcookies : response.cookies = a.cookies)
  | completed (a : Attempt) (token : PyStr) (maxAge : ℕ)
      (h : Completed settings browser a token maxAge asked)
      (hcookies : response.cookies = clearLoginCookies ++ [.set .idToken token maxAge])

/-- What a page may ask for: codes are exchanged with the verifier of a matching callback. -/
def Asks (settings : CognitoLoginSettings) (asked : List (Exchange β)) : LoginAsk → Prop
  | .exchangeCode exchange => ∃ request : PageRequest β, ∃ a query code,
      asked = [⟨.receive, request⟩] ∧ Matching a request query code ∧
        exchange = codeExchange settings code a.verifier
  | _ => True

/-- The protocol of the server; its stage is what was asked, with the answers. -/
def loginGuard (settings : CognitoLoginSettings) :
    Protocol (ServerAsk β) ServerAsk.Answer (List (Exchange β)) where
  allows asked
    | .receive => asked = []
    | .page request => Asks settings asked request
    | .respond browser response => Answers settings browser asked response
  next asked request answer := asked ++ [⟨request, answer⟩]

/-- The same for a page. -/
def pageGuard (settings : CognitoLoginSettings) :
    Protocol LoginAsk LoginAsk.Answer (List (Exchange β)) where
  allows asked request := Asks settings asked request
  next asked request answer := asked ++ [⟨.page request, answer⟩]

/-- What a page does after a request was received: it answers as it may, or raises. -/
def Handles (settings : CognitoLoginSettings) (request : PageRequest β)
    (p : LoginProg LoginResponse) : Prop :=
  (pageGuard settings).Follows [⟨.receive, request⟩] p fun r asked =>
    Answers settings request.browser asked (responseOf r)

variable {settings : CognitoLoginSettings} {request : PageRequest β}

theorem clears_failed : Clears signInFailed := by
  intro cookie h
  simp only [signInFailed, clearLoginCookies, List.mem_cons, List.not_mem_nil, or_false] at h
  rcases h with rfl | rfl | rfl
  · exact ⟨_, rfl⟩
  · exact ⟨_, rfl⟩
  · exact ⟨_, rfl⟩

theorem clears_internalError : Clears internalError := fun _ h => absurd h List.not_mem_nil

theorem handles_failed : Handles settings request (pure signInFailed) := .clears clears_failed

theorem authLogin_handles [Hashlib] (h : request.page = .login) :
    Handles settings request (authLogin settings) := by
  obtain ⟨browser, page, saved⟩ := request
  cases h
  refine ⟨trivial, fun state => ⟨trivial, fun nonce => ⟨trivial, fun verifier => ?_⟩⟩⟩
  exact .began ⟨base64Text state.val, base64Text nonce.val, base64Text verifier.val⟩
    ⟨saved, state, nonce, verifier, rfl, rfl⟩ rfl

theorem compareDigest_same {a b : PyStr} (h : compareDigest a b = .ok true) : a = b := by
  unfold compareDigest at h
  split at h
  · exact of_decide_eq_true (Except.ok.inj h)
  · cases h

theorem one_value {values : List PyStr} {value : PyStr} (hlast : values.getLast? = some value)
    (hlength : values.length = 1) : values = [value] := by
  obtain ⟨only, rfl⟩ := List.length_eq_one_iff.mp hlength
  rw [List.getLast?_singleton] at hlast
  rw [Option.some.inj hlast]

/-- The seconds of a span that a `datetime` can hold the ends of. -/
theorem secondsOf_wholeSeconds {span : ℤ} (hnonneg : 0 ≤ span)
    (hspan : span ≤ (2 ^ 52 - 1) * micro) : SecondsOf span (wholeSeconds span) := by
  unfold micro at hspan
  have hcut : ((span / 1000000 : ℤ) : ℚ) ≤ (span : ℚ) / 1000000 := by
    rw [le_div_iff₀ (by norm_num)]
    exact_mod_cast Int.ediv_mul_le span (by norm_num)
  have hraised : (span : ℚ) / 1000000 ≤ ((-(-span / 1000000) : ℤ) : ℚ) := by
    rw [div_le_iff₀ (by norm_num)]
    exact_mod_cast (by omega : span ≤ -(-span / 1000000) * 1000000)
  have hlow := Binary64.le_round (abs_lt.mpr ⟨by omega, by omega⟩) hcut
  have hhigh := Binary64.round_le (abs_lt.mpr ⟨by omega, by omega⟩) hraised
  generalize hq : (span : ℚ) / 1000000 = q at hlow hhigh
  have hwhole : wholeSeconds span = ⌊Binary64.round q⌋ := by
    have hpos : (0 : ℚ) ≤ ((span / 1000000 : ℤ) : ℚ) := by
      exact_mod_cast Int.ediv_nonneg hnonneg (by norm_num)
    unfold wholeSeconds Binary64.truncate
    rw [hq, if_pos (hpos.trans hlow)]
  have hbelow : span / 1000000 ≤ ⌊Binary64.round q⌋ := Int.le_floor.mpr hlow
  have habove : ⌊Binary64.round q⌋ ≤ -(-span / 1000000) :=
    Int.floor_le_iff.mpr (hhigh.trans_lt (lt_add_one _))
  rw [hwhole]
  unfold SecondsOf micro
  refine ⟨by omega, by omega, fun hsmall => ?_⟩
  -- below `2 ^ 34` seconds a double is nearer than a microsecond
  by_contra hmore
  have hsucc : span + 1 ≤ ⌊Binary64.round q⌋ * 1000000 := by omega
  have hcast : (span : ℚ) + 1 ≤ (⌊Binary64.round q⌋ : ℚ) * 1000000 := by exact_mod_cast hsucc
  have hbits : |q| < 2 ^ 34 := by
    rw [← hq, abs_of_nonneg (div_nonneg (by exact_mod_cast hnonneg) (by norm_num)),
      div_lt_iff₀ (by norm_num)]
    exact_mod_cast hsmall
  have hspanq : (span : ℚ) = q * 1000000 := by
    rw [← hq, div_mul_cancel₀ _ (by norm_num)]
  have hnear := (abs_lt.mp (Binary64.abs_round_sub_lt hbits)).2
  have hfloor := Int.floor_le (Binary64.round q)
  linarith

/-- A span with some seconds is positive. -/
theorem pos_of_wholeSeconds {span : ℤ} (h : 0 < wholeSeconds span) : 0 ≤ span := by
  by_contra hneg
  have hle : (span : ℚ) / 1000000 ≤ ((0 : ℤ) : ℚ) := by
    rw [div_le_iff₀ (by norm_num)]
    exact_mod_cast (by omega : span ≤ 0 * 1000000)
  have hround := Binary64.round_le (by norm_num) hle
  unfold wholeSeconds Binary64.truncate at h
  split_ifs at h with hpos
  · rw [le_antisymm hround (by exact_mod_cast hpos)] at h
    simp at h
  · exact absurd (Int.ceil_le.mpr hround) (by omega)

/-- No time is further from the end of an identity than a double can count. -/
theorem span_held (identity : VerifiedPrincipal) {time : CallbackTime} {offset : ℤ}
    (hoffset : time.val.offset = some offset) :
    identity.expiresAt.micros - (time.val.wall - offset) ≤ (2 ^ 52 - 1) * micro := by
  have hwall := time.property.wall
  have hday := abs_lt.mp (time.property.offset offset hoffset)
  have hend := identity.expiresAt.upper
  unfold NokincFactory.earliest NokincFactory.latest micro at *
  omega

/-- The lifetime of a session, as it is computed. -/
theorem lastsUntil_remaining {identity : VerifiedPrincipal} {time : CallbackTime} {seconds : ℤ}
    (h : remainingSeconds identity.expiresAt time.val = .ok seconds) (hpositive : 0 < seconds) :
    LastsUntil identity time.val seconds.toNat := by
  unfold remainingSeconds at h
  cases hoffset : time.val.offset with
  | none =>
      rw [hoffset] at h
      cases h
  | some offset =>
      rw [hoffset] at h
      have hseconds := Except.ok.inj h
      have hnonneg := pos_of_wholeSeconds (hseconds ▸ hpositive)
      have hcounted := secondsOf_wholeSeconds hnonneg (span_held identity hoffset)
      rw [hseconds] at hcounted
      refine ⟨by omega, offset, hoffset, ?_⟩
      rwa [Int.toNat_of_nonneg hpositive.le]

section Callback

variable {a : Attempt} {query : List (PyStr × PyStr)} {code : PyStr}

theorem exchangeCode_follows (h : Matching a request query code) :
    (pageGuard settings).Follows [⟨.receive, request⟩] (exchangeCode settings code a.verifier)
      fun r asked => ∀ token, r = .ok token → asked = [⟨.receive, request⟩,
        ⟨.page (.exchangeCode (codeExchange settings code a.verifier)), .ok token⟩] := by
  unfold exchangeCode
  refine follows_checked (fun _ h => by cases h) fun _ => ?_
  refine ⟨⟨request, a, query, code, rfl, h, rfl⟩, fun answer => ?_⟩
  cases answer with
  | error error => exact fun _ h => by cases h
  | ok token =>
      intro token' h
      cases h
      rfl

theorem identify_follows (h : Matching a request query code) :
    (pageGuard settings).Follows [⟨.receive, request⟩] (identify settings code a.nonce a.verifier)
      fun r asked => ∀ token time identity, r = .ok (token, time, identity) →
        asked = [⟨.receive, request⟩,
          ⟨.page (.exchangeCode (codeExchange settings code a.verifier)), .ok token⟩,
          ⟨.page .now, time⟩, ⟨.page (.verify token time.val a.nonce), .ok identity⟩] := by
  unfold identify
  refine Follows.seq (exchangeCode_follows h) (fun _ _ _ _ _ _ h => by cases h)
    fun token asked hasked => ?_
  obtain rfl := hasked token rfl
  refine ⟨trivial, fun time => ⟨trivial, fun answer => ?_⟩⟩
  cases answer with
  | error error => exact fun _ _ _ h => by cases h
  | ok identity =>
      intro token' time' identity' h
      cases h
      rfl

theorem completeSignIn_handles (h : Matching a request query code) :
    Handles settings request (completeSignIn settings code a.nonce a.verifier) := by
  have hattempt : (pageGuard settings).Follows [⟨.receive, request⟩]
      (identify settings code a.nonce a.verifier).attempt
      fun (outcome : Except TokenError
          (Except TokenError (PyStr × CallbackTime × VerifiedPrincipal)))
        asked => ∀ token time identity, outcome = .ok (.ok (token, time, identity)) →
          asked = [⟨.receive, request⟩,
            ⟨.page (.exchangeCode (codeExchange settings code a.verifier)), .ok token⟩,
            ⟨.page .now, time⟩, ⟨.page (.verify token time.val a.nonce), .ok identity⟩] :=
    follows_attempt.mpr ((identify_follows h).weaken fun r asked hr token time identity hsame =>
      hr token time identity (Except.ok.inj hsame))
  unfold Handles completeSignIn
  refine Follows.seq hattempt (fun _ _ _ => .clears clears_internalError)
    fun outcome asked hasked => ?_
  cases outcome with
  | error error =>
      dsimp only
      split
      · exact Answers.clears clears_failed
      · exact Answers.clears clears_internalError
  | ok found =>
      obtain ⟨token, time, identity⟩ := found
      obtain rfl := hasked token time identity rfl
      refine follows_computed (fun _ => .clears clears_internalError) fun seconds hseconds => ?_
      split
      · exact Answers.clears clears_failed
      · rename_i hpositive
        exact Answers.completed a token seconds.toNat ⟨request, query, code, time, identity, rfl, h,
          rfl, lastsUntil_remaining hseconds (by omega)⟩ rfl

end Callback

theorem authCallback_handles {query : List (PyStr × PyStr)} (h : request.page = .callback query) :
    Handles settings request (authCallback settings query request.saved) := by
  unfold authCallback
  split
  · rename_i code state savedState savedNonce savedVerifier herror hcode hstate hstate' hnonce
      hverifier
    split
    · exact handles_failed
    · rename_i hchecked
      simp only [not_or, not_not] at hchecked
      refine follows_computed (fun _ => .clears clears_internalError) fun same hsame => ?_
      cases same with
      | false => exact handles_failed
      | true =>
          obtain rfl := compareDigest_same hsame
          have hmatching : Matching ⟨state, savedNonce, savedVerifier⟩ request query code := by
            refine ⟨h, fun name hname => ?_, List.getLast?_eq_none_iff.mp herror,
              one_value hcode hchecked.2.2.1, one_value hstate hchecked.2.2.2⟩
            cases name with
            | state => exact hstate'
            | nonce => exact hnonce
            | verifier => exact hverifier
            | idToken => exact absurd rfl hname
          exact completeSignIn_handles hmatching
  · exact handles_failed

theorem handlePage_handles [Hashlib] (settings : CognitoLoginSettings) (request : PageRequest β) :
    Handles settings request (handlePage settings request.saved request.page) := by
  cases hpage : request.page with
  | login => exact authLogin_handles hpage
  | callback query => exact authCallback_handles hpage
  | logout =>
      refine Answers.clears fun cookie h => ⟨.idToken, ?_⟩
      exact List.mem_singleton.mp h
  | signedOut => exact Answers.clears fun cookie h => absurd h List.not_mem_nil

/-- The server asks and answers as it may. -/
theorem serveOne_guarded [Hashlib] (settings : CognitoLoginSettings) :
    (loginGuard settings).Follows [] (serveOne settings : ServerProg β Unit) fun _ _ => True := by
  refine ⟨rfl, fun request => ?_⟩
  have hlifted : (loginGuard settings).Follows [⟨.receive, request⟩]
      (asServer (handlePage settings request.saved request.page))
      fun r asked => ∃ asked', asked' = asked ∧
        Answers settings request.browser asked' (responseOf r) := by
    refine (handlePage_handles settings request).over rfl fun asked asked' request hsame h => ?_
    rw [← hsame]
    exact ⟨h, fun answer => ⟨answer, rfl, rfl⟩⟩
  have hattempt : (loginGuard settings).Follows [⟨.receive, request⟩]
      (asServer (handlePage settings request.saved request.page)).attempt
      fun (outcome : Except TokenError (Except TokenError LoginResponse)) asked =>
        ∀ r, outcome = .ok r → Answers settings request.browser asked (responseOf r) := by
    refine follows_attempt.mpr (hlifted.weaken fun r asked hr r' hsame => ?_)
    obtain ⟨_, rfl, h⟩ := hr
    rw [← Except.ok.inj hsame]
    exact h
  exact Follows.seq hattempt (fun _ _ _ => trivial) fun outcome asked hasked =>
    ⟨hasked outcome rfl, fun _ => trivial⟩

end Server

/-! ## 4. What a run shows -/

section Runs

variable {ι β : Type} [DecidableEq ι] {settings : CognitoLoginSettings}

/-- The runs of the server among the browsers. -/
abbrev WebRun (ι β : Type) : Type := List (Deed ι (ServerAsk β) ServerAsk.Answer)

/-- The browser began the attempt. -/
def Attempted (run : WebRun ι β) (browser : β) (a : Attempt) : Prop :=
  ∃ i asked, Began browser a asked ∧ asked <+: Deed.ofProgram i run

/-- The browser completed a sign-in that it began itself, and its session is the token that was
issued and verified for this very attempt. -/
def SignedIn (settings : CognitoLoginSettings) (run : WebRun ι β) (browser : β) (token : PyStr)
    (maxAge : ℕ) : Prop :=
  ∃ i asked a, Completed settings browser a token maxAge asked ∧
    asked <+: Deed.ofProgram i run ∧ Attempted run browser a

/-- Cookies of one attempt of the browser: none of another, and never of two. -/
def OfAttempt (run : WebRun ι β) (browser : β) (saved : LoginCookie → Option PyStr) : Prop :=
  ∃ a : Attempt, ∀ name ≠ LoginCookie.idToken, ∀ value, saved name = some value →
    Attempted run browser a ∧ a.value name = some value

structure SoundJar (settings : CognitoLoginSettings) (run : WebRun ι β) (browser : β)
    (jar : Jar) : Prop where
  attempt : OfAttempt run browser jar.sent
  session : ∀ token maxAge, jar .idToken = some (token, maxAge) →
    SignedIn settings run browser token maxAge

/-- An answer that may be on its way to a browser. -/
inductive SoundResponse (settings : CognitoLoginSettings) (run : WebRun ι β) (browser : β)
    (response : LoginResponse) : Prop where
  | clears (h : Clears response)
  | began (a : Attempt) (h : Attempted run browser a) (hcookies : response.cookies = a.cookies)
  | completed (token : PyStr) (maxAge : ℕ) (h : SignedIn settings run browser token maxAge)
      (hcookies : response.cookies = clearLoginCookies ++ [.set .idToken token maxAge])

structure SoundWeb (settings : CognitoLoginSettings) (run : WebRun ι β) (w : Web β) : Prop where
  jars : ∀ browser, SoundJar settings run browser (w.jars browser)
  requests : ∀ request ∈ w.requests, OfAttempt run request.browser request.saved
  responses : ∀ browser response, (browser, response) ∈ w.responses →
    SoundResponse settings run browser response
  received : ∀ i request, [⟨.receive, request⟩] <+: Deed.ofProgram i run →
    OfAttempt run request.browser request.saved

variable {run run' : WebRun ι β} {browser : β} {w w' : Web β}

theorem Attempted.later {a : Attempt} (h : Attempted run browser a) (hrun : run <+: run') :
    Attempted run' browser a := by
  obtain ⟨i, asked, hbegan, hasked⟩ := h
  exact ⟨i, asked, hbegan, hasked.trans (Deed.ofProgram_prefix i hrun)⟩

theorem SignedIn.later {token : PyStr} {maxAge : ℕ}
    (h : SignedIn settings run browser token maxAge) (hrun : run <+: run') :
    SignedIn settings run' browser token maxAge := by
  obtain ⟨i, asked, a, hcompleted, hasked, hattempted⟩ := h
  exact ⟨i, asked, a, hcompleted, hasked.trans (Deed.ofProgram_prefix i hrun),
    hattempted.later hrun⟩

theorem OfAttempt.later {saved : LoginCookie → Option PyStr} (h : OfAttempt run browser saved)
    (hrun : run <+: run') : OfAttempt run' browser saved := by
  obtain ⟨a, ha⟩ := h
  exact ⟨a, fun name hname value hvalue =>
    ⟨(ha name hname value hvalue).1.later hrun, (ha name hname value hvalue).2⟩⟩

theorem SoundJar.later {jar : Jar} (h : SoundJar settings run browser jar) (hrun : run <+: run') :
    SoundJar settings run' browser jar :=
  ⟨h.attempt.later hrun, fun token maxAge hjar => (h.session token maxAge hjar).later hrun⟩

theorem SoundResponse.later {response : LoginResponse}
    (h : SoundResponse settings run browser response) (hrun : run <+: run') :
    SoundResponse settings run' browser response := by
  cases h with
  | clears h => exact .clears h
  | began a h hcookies => exact .began a (h.later hrun) hcookies
  | completed token maxAge h hcookies => exact .completed token maxAge (h.later hrun) hcookies

/-- A cookie that is lost does no harm. -/
theorem SoundJar.delete {jar : Jar} (h : SoundJar settings run browser jar) (name : LoginCookie) :
    SoundJar settings run browser (jar.set (.delete name)) := by
  have hkept : ∀ other kept, jar.set (.delete name) other = some kept → jar other = some kept := by
    intro other kept hother
    change Function.update jar name none other = some kept at hother
    by_cases hsame : other = name
    · rw [hsame, Function.update_self] at hother
      cases hother
    · rwa [Function.update_of_ne hsame] at hother
  obtain ⟨⟨a, ha⟩, hsession⟩ := h
  refine ⟨⟨a, fun other hother value hvalue => ha other hother value ?_⟩,
    fun token maxAge hjar => hsession token maxAge (hkept _ _ hjar)⟩
  obtain ⟨kept, hjar, rfl⟩ := Option.map_eq_some_iff.mp hvalue
  exact Option.map_eq_some_iff.mpr ⟨kept, hkept other kept hjar, rfl⟩

theorem SoundJar.deletes {jar : Jar} (h : SoundJar settings run browser jar) :
    ∀ cookies : List SetCookie, (∀ cookie ∈ cookies, ∃ name, cookie = .delete name) →
      SoundJar settings run browser (cookies.foldl Jar.set jar) := by
  intro cookies hcookies
  induction cookies generalizing jar with
  | nil => exact h
  | cons cookie cookies ih =>
      obtain ⟨name, rfl⟩ := hcookies cookie List.mem_cons_self
      exact ih (h.delete name) fun other hother => hcookies other (List.mem_cons_of_mem _ hother)

theorem SoundJar.receive {jar : Jar} {response : LoginResponse}
    (h : SoundJar settings run browser jar)
    (hresponse : SoundResponse settings run browser response) :
    SoundJar settings run browser (jar.receive response) := by
  unfold Jar.receive
  cases hresponse with
  | clears hclears => exact h.deletes _ hclears
  | began a ha hcookies =>
      rw [hcookies]
      refine ⟨⟨a, fun name hname value hvalue => ⟨ha, ?_⟩⟩, fun token maxAge hjar => ?_⟩
      · cases name with
        | state => exact hvalue
        | nonce => exact hvalue
        | verifier => exact hvalue
        | idToken => exact absurd rfl hname
      · exact h.session token maxAge hjar
  | completed token maxAge hsigned hcookies =>
      rw [hcookies, List.foldl_append]
      have hcleared : SoundJar settings run browser (clearLoginCookies.foldl Jar.set jar) :=
        h.deletes _ clears_failed
      obtain ⟨⟨a, ha⟩, -⟩ := hcleared
      refine ⟨⟨a, fun name hname value hvalue => ha name hname value ?_⟩,
        fun token' maxAge' hjar => ?_⟩
      · cases name with
        | state => exact hvalue
        | nonce => exact hvalue
        | verifier => exact hvalue
        | idToken => exact absurd rfl hname
      · obtain ⟨rfl, rfl⟩ : token = token' ∧ maxAge = maxAge' :=
          Prod.mk.inj (Option.some.inj hjar)
        exact hsigned

/-- What browsers do keeps everything sound. -/
theorem SoundWeb.browses [DecidableEq β] (h : SoundWeb settings run w) (hw : Browses w w') :
    SoundWeb settings run w' := by
  have hmoved : ∀ browser jar, SoundJar settings run browser jar → ∀ other,
      SoundJar settings run other (Function.update w.jars browser jar other) := by
    intro browser jar hjar other
    by_cases hsame : other = browser
    · rw [hsame, Function.update_self]
      exact hjar
    · rw [Function.update_of_ne hsame]
      exact h.jars other
  cases hw with
  | sends browser page =>
      refine ⟨h.jars, fun request hrequest => ?_, h.responses, h.received⟩
      rcases List.mem_cons.mp hrequest with rfl | hrequest
      · exact (h.jars browser).attempt
      · exact h.requests request hrequest
  | receives browser response earlier later hresponses =>
      have hmem : (browser, response) ∈ w.responses := by
        rw [hresponses]
        exact List.mem_append_right _ List.mem_cons_self
      have hfewer : List.Sublist (earlier ++ later) w.responses := by
        rw [hresponses]
        exact (List.sublist_cons_self _ _).append_left _
      exact ⟨hmoved browser _ ((h.jars browser).receive (h.responses _ _ hmem)), h.requests,
        fun other kept hkept => h.responses other kept (hfewer.mem hkept), h.received⟩
  | forgets browser name =>
      exact ⟨hmoved browser _ ((h.jars browser).delete name), h.requests, h.responses, h.received⟩

/-- What is sound stays so while the run goes on, but for what is received. -/
theorem SoundWeb.goes {deed : Deed ι (ServerAsk β) ServerAsk.Answer} (h : SoundWeb settings run w)
    (hreceived : ∀ i request, [⟨.receive, request⟩] <+: Deed.ofProgram i (run ++ [deed]) →
      OfAttempt (run ++ [deed]) request.browser request.saved) :
    SoundWeb settings (run ++ [deed]) w :=
  ⟨fun browser => (h.jars browser).later (List.prefix_append _ _),
    fun request hrequest => (h.requests request hrequest).later (List.prefix_append _ _),
    fun browser response hresponse =>
      (h.responses browser response hresponse).later (List.prefix_append _ _), hreceived⟩

/-- The same for what a program asks. -/
theorem SoundWeb.asked {i : ι} {asked : ServerAsk β} {answer : ServerAsk.Answer asked}
    (h : SoundWeb settings run w)
    (hfirst : ∀ request : PageRequest β, Deed.ofProgram i run = [] →
      (⟨asked, answer⟩ : Exchange β) = ⟨.receive, request⟩ →
        OfAttempt run request.browser request.saved) :
    SoundWeb settings (run ++ [.asked i asked answer]) w := by
  refine h.goes fun j request hprefix => ?_
  have hgrows : run <+: run ++ [.asked i asked answer] := List.prefix_append _ _
  rw [Deed.ofProgram_asked] at hprefix
  by_cases hj : j = i
  · rw [hj, Function.update_self] at hprefix
    rcases List.prefix_concat_iff.mp hprefix with hsame | hbefore
    · obtain ⟨hnil, hlast⟩ := List.append_inj' ((List.nil_append _).trans hsame) rfl
      exact (hfirst request hnil.symm (List.singleton_inj.mp hlast).symm).later hgrows
    · exact (h.received i request hbefore).later hgrows
  · rw [Function.update_of_ne hj] at hprefix
    exact (h.received j request hprefix).later hgrows

/-- A program that has asked something has nothing to receive. -/
theorem SoundWeb.asked_other {i : ι} {asked : ServerAsk β} {answer : ServerAsk.Answer asked}
    (h : SoundWeb settings run w)
    (hother : ∀ request, (⟨asked, answer⟩ : Exchange β) ≠ ⟨.receive, request⟩) :
    SoundWeb settings (run ++ [.asked i asked answer]) w :=
  h.asked fun request _ hsame => absurd hsame (hother request)

/-- The attempt of a matching callback is one that its browser began. -/
theorem Matching.attempted {i : ι} {a : Attempt} {request : PageRequest β}
    {query : List (PyStr × PyStr)} {code : PyStr} (h : Matching a request query code)
    (hweb : SoundWeb settings run w) (hfirst : [⟨.receive, request⟩] <+: Deed.ofProgram i run) :
    Attempted run request.browser a := by
  obtain ⟨a', ha'⟩ := hweb.received i request hfirst
  obtain ⟨hattempted, hstate⟩ := ha' .state (by decide) a.state (h.saved .state (by decide))
  have hnonce := (ha' .nonce (by decide) a.nonce (h.saved .nonce (by decide))).2
  have hverifier := (ha' .verifier (by decide) a.verifier (h.saved .verifier (by decide))).2
  have hsame : a' = a := by
    obtain ⟨state, nonce, verifier⟩ := a'
    obtain rfl : state = a.state := Option.some.inj hstate
    obtain rfl : nonce = a.nonce := Option.some.inj hnonce
    obtain rfl : verifier = a.verifier := Option.some.inj hverifier
    rfl
  exact hsame ▸ hattempted

/-- What the server may answer is sound. -/
theorem Answers.sound {i : ι} {response : LoginResponse} (hweb : SoundWeb settings run w)
    (h : Answers settings browser (Deed.ofProgram i run) response) :
    SoundResponse settings run browser response := by
  cases h with
  | clears h => exact .clears h
  | began a h hcookies => exact .began a ⟨i, _, h, List.prefix_rfl⟩ hcookies
  | completed a token maxAge h hcookies =>
      refine .completed token maxAge ⟨i, _, a, h, List.prefix_rfl, ?_⟩ hcookies
      obtain ⟨request, query, code, time, identity, rfl, hmatching, hasked, -⟩ := h
      refine hmatching.attempted hweb (i := i) ?_
      rw [hasked]
      exact ⟨_, rfl⟩

/-- The exchange of a code is for a callback whose state, and whose verifier, are those of one
attempt that the same browser began. -/
def Exchanges (settings : CognitoLoginSettings) (run : WebRun ι β) (i : ι)
    (exchange : CodeExchange) : Prop :=
  ∃ request : PageRequest β, ∃ a query code, Deed.ofProgram i run = [⟨.receive, request⟩] ∧
    Matching a request query code ∧ Attempted run request.browser a ∧
      exchange = codeExchange settings code a.verifier

/-- Every exchange in a run was so. -/
def AllExchanges (settings : CognitoLoginSettings) (run : WebRun ι β) : Prop :=
  ∀ earlier i exchange answer,
    earlier ++ [.asked i (.page (.exchangeCode exchange)) answer] <+: run →
      Exchanges settings earlier i exchange

theorem AllExchanges.snoc {deed : Deed ι (ServerAsk β) ServerAsk.Answer}
    (h : AllExchanges settings run)
    (hlast : ∀ i exchange answer, deed = .asked i (.page (.exchangeCode exchange)) answer →
      Exchanges settings run i exchange) : AllExchanges settings (run ++ [deed]) := by
  intro earlier i exchange answer hprefix
  rcases List.prefix_concat_iff.mp hprefix with hsame | hbefore
  · obtain ⟨rfl, hdeed⟩ := List.append_inj' hsame rfl
    exact hlast i exchange answer (List.singleton_inj.mp hdeed).symm
  · exact h earlier i exchange answer hbefore

/-- The invariant of the server among the browsers. -/
structure LoginInvariant (settings : CognitoLoginSettings) (run : WebRun ι β) (w : Web β)
    (stage : ι → List (Exchange β)) : Prop where
  stages : stage = fun i => Deed.ofProgram i run
  sound : SoundWeb settings run w
  exchanges : AllExchanges settings run

theorem loginInvariant_start :
    LoginInvariant settings ([] : WebRun ι β) ⟨fun _ _ => none, [], []⟩ fun _ => [] := by
  refine ⟨rfl, ⟨fun browser => ⟨⟨⟨[], [], []⟩, fun _ _ _ h => by cases h⟩,
    fun _ _ h => by cases h⟩, fun _ h => absurd h List.not_mem_nil,
    fun _ _ h => absurd h List.not_mem_nil, fun i request h => ?_⟩, fun _ _ _ _ h => ?_⟩
  · exact absurd (List.prefix_nil.mp h) (by simp)
  · exact absurd (List.prefix_nil.mp h) (by simp)

/-- What the server asks keeps the invariant. -/
theorem LoginInvariant.step [DecidableEq β] {stage : ι → List (Exchange β)} {i : ι}
    {asked : ServerAsk β} {answer : ServerAsk.Answer asked} {w' : Web β}
    (h : LoginInvariant settings run w stage)
    (hallowed : (loginGuard settings).allows (stage i) asked)
    (hanswer : (web : Surroundings ι _ _ (Web β)).answers w i asked answer w') :
    LoginInvariant settings (run ++ [.asked i asked answer]) w'
      (Function.update stage i ((loginGuard settings).next (stage i) asked answer)) := by
  obtain ⟨rfl, hweb, hexchanges⟩ := h
  have hstages : Function.update (fun j => Deed.ofProgram j run) i
      ((loginGuard settings).next (Deed.ofProgram i run) asked answer) =
        fun j => Deed.ofProgram j (run ++ [.asked i asked answer]) :=
    funext fun j => (Deed.ofProgram_asked i j asked answer).symm
  cases asked with
  | receive =>
      obtain ⟨earlier, later, hrequests, rfl⟩ := hanswer
      have hfewer : List.Sublist (earlier ++ later) w.requests := by
        rw [hrequests]
        exact (List.sublist_cons_self _ _).append_left _
      have hgone : SoundWeb settings (run ++ [.asked i .receive answer]) w := by
        refine hweb.asked fun request _ hsame => ?_
        cases hsame
        refine hweb.requests _ ?_
        rw [hrequests]
        exact List.mem_append_right _ List.mem_cons_self
      exact ⟨hstages, ⟨hgone.jars, fun request hrequest => hgone.requests request
        (hfewer.mem hrequest), hgone.responses, hgone.received⟩,
        hexchanges.snoc fun _ _ _ hdeed => by cases hdeed⟩
  | page asked =>
      obtain rfl : w' = w := hanswer
      refine ⟨hstages, hweb.asked_other fun _ hsame => (by cases hsame),
        hexchanges.snoc fun j exchange answer' hdeed => ?_⟩
      cases hdeed
      obtain ⟨request, a, query, code, hfirst, hmatching, hexchange⟩ := hallowed
      refine ⟨request, a, query, code, hfirst, hmatching, ?_, hexchange⟩
      refine hmatching.attempted hweb (i := i) ?_
      rw [show Deed.ofProgram i run = _ from hfirst]
  | respond browser response =>
      obtain rfl : w' = { w with responses := (browser, response) :: w.responses } := hanswer
      have hgone : SoundWeb settings (run ++ [.asked i (.respond browser response) answer]) w :=
        hweb.asked_other fun _ hsame => by cases hsame
      refine ⟨hstages, ⟨hgone.jars, hgone.requests, fun other kept hkept => ?_, hgone.received⟩,
        hexchanges.snoc fun _ _ _ hdeed => by cases hdeed⟩
      rcases List.mem_cons.mp hkept with hsame | hkept
      · cases hsame
        exact (Answers.sound hweb hallowed).later (List.prefix_append _ _)
      · exact hgone.responses other kept hkept

/-- So does what browsers do. -/
theorem LoginInvariant.browses [DecidableEq β] {stage : ι → List (Exchange β)} {w' : Web β}
    (h : LoginInvariant settings run w stage) (hw : Browses w w') :
    LoginInvariant settings (run ++ [.changed]) w' stage := by
  obtain ⟨rfl, hweb, hexchanges⟩ := h
  have hsound := hweb.browses hw
  refine ⟨funext fun i => (Deed.ofProgram_changed i).symm, hsound.goes fun i request hprefix => ?_,
    hexchanges.snoc fun _ _ _ hdeed => by cases hdeed⟩
  rw [Deed.ofProgram_changed] at hprefix
  exact (hsound.received i request hprefix).later (List.prefix_append _ _)

end Runs

/-- **Signing in**: in every run of any number of requests of any browsers, made by whoever,
received and answered in any order, over a token endpoint and a verifier that answer anything: the
session of a browser is a token that was issued for a code which a callback of this very browser
brought, under the state of an attempt that this browser began, exchanged with the verifier and
verified with the nonce of the same attempt; it is kept for a positive number of seconds, those
that the identity lasts up to a float's rounding, by which it is not kept longer below `2 ^ 34`
seconds. No code is exchanged but for such a callback. -/
theorem logins_bound {ι β : Type} [DecidableEq ι] [DecidableEq β] [Hashlib]
    (settings : CognitoLoginSettings) :
    ∀ run s, (web.crew fun _ : ι => (serveOne settings : ServerProg β Unit)).Trace run s →
      (∀ browser token maxAge, s.1.jars browser .idToken = some (token, maxAge) →
        SignedIn settings run browser token maxAge) ∧ AllExchanges settings run := by
  intro run s h
  obtain ⟨stage, hinvariant, -⟩ := Surroundings.crew_invariant
    (P := fun _ => loginGuard settings) (I := LoginInvariant settings) []
    (fun _ => serveOne_guarded settings)
    (fun w hw => by
      obtain rfl : w = ⟨fun _ _ => none, [], []⟩ := hw
      exact loginInvariant_start)
    (fun run w stage i asked answer w' h hallowed hanswer => h.step hallowed hanswer)
    (fun run w stage w' h hw => h.browses hw) h
  exact ⟨fun browser token maxAge hjar => (hinvariant.sound.jars browser).session token maxAge hjar,
    hinvariant.exchanges⟩

namespace LoginFixture

scoped instance hashlib : Hashlib where
  sha256 _ := ⟨0⟩

def settings : CognitoLoginSettings :=
  ⟨pyStr "https://login.test", pyStr "client", pyStr "https://app.test/auth/callback",
    pyStr "https://app.test/auth/signed-out"⟩

def zeros (count : ℕ) : {bytes : List Byte // bytes.length = count} :=
  ⟨List.replicate count 0, List.length_replicate⟩

def attempt : Attempt :=
  ⟨base64Text (zeros 32).val, base64Text (zeros 32).val, base64Text (zeros 64).val⟩

def query : List (PyStr × PyStr) :=
  [(pyStr "code", pyStr "c"), (pyStr "state", attempt.state)]

def token : PyStr := pyStr "t"

theorem second_lower : earliest ≤ 1000000 := by decide

theorem second_upper : 1000000 ≤ latest := by decide

theorem user_valid : identifierPattern "user".toList = true := by decide

theorem issuer_bounded : boundedName token = true := rfl

theorem one_role : 1 ≤ [Role.viewer].length ∧ [Role.viewer].length ≤ 3 := by decide

def user : Identifier := ⟨"user", user_valid⟩

theorem time_holds : Holds ⟨0, some 0⟩ := by
  refine ⟨by decide, fun offset h => ?_⟩
  cases h
  decide

/-- The time of the callback. -/
def time : CallbackTime := ⟨⟨0, some 0⟩, time_holds⟩

/-- An identity that expires a second after the time of the callback. -/
def identity : VerifiedPrincipal :=
  ⟨⟨user, user, [.viewer]⟩, token, token, ⟨1000000, second_lower, second_upper⟩,
    ⟨1000000, second_lower, second_upper⟩, issuer_bounded, issuer_bounded, one_role,
    List.nodup_singleton _⟩

def begun : LoginResponse :=
  ⟨302, some (authorizationUrl settings attempt.state attempt.nonce attempt.verifier),
    attempt.cookies, true, true⟩

/-- The server at one browser, with a program for the login and one for the callback. -/
abbrev server : Labelled (Deed Bool (ServerAsk Unit) ServerAsk.Answer)
    (Web Unit × (Bool → ServerProg Unit Unit)) :=
  web.crew fun _ => serveOne settings

/-- A run goes on with an answer. -/
theorem asks {run : WebRun Bool Unit} {w w' : Web Unit} {ps : Bool → ServerProg Unit Unit}
    (asked : ServerAsk Unit) (answer : ServerAsk.Answer asked) (h : server.Trace run (w, ps))
    (i : Bool) {next : ServerAsk.Answer asked → ServerProg Unit Unit}
    (hi : ps i = .ask asked next) (ha : web.answers w i asked answer w') :
    server.Trace (run ++ [.asked i asked answer]) (w', Function.update ps i (next answer)) :=
  .step _ h (.asked w w' ps i asked answer next hi ha)

/-- A run goes on with what a browser does. -/
theorem browses {run : WebRun Bool Unit} {w w' : Web Unit} {ps : Bool → ServerProg Unit Unit}
    (h : server.Trace run (w, ps)) (hw : Browses w w') :
    server.Trace (run ++ [.changed]) (w', ps) :=
  .step _ h (.changed w w' ps hw)

/-- What is left of a request when an identity was verified. -/
def verified (maxAge : Except TokenError ℤ) : ServerProg Unit Unit :=
  (asServer (.ofExcept maxAge >>= fun maxAge =>
    if maxAge ≤ 0 then pure signInFailed else pure (signedIn token maxAge.toNat))).attempt >>=
      fun outcome => .ask (.respond () (responseOf outcome)) fun _ => .ret ()

theorem one_second : remainingSeconds identity.expiresAt time.val = .ok 1 := by
  have hspan : ((1000000 : ℤ) : ℚ) / 1000000 = ((1 : ℤ) : ℚ) := by norm_num
  show Except.ok (wholeSeconds 1000000) = _
  unfold wholeSeconds Binary64.truncate
  rw [hspan, Binary64.round_int (by norm_num)]
  simp

theorem signIn_trace : ∃ run w ps, server.Trace run (w, ps) ∧
    w.jars () .idToken = some (token, 1) := by
  have h0 : server.Trace [] (⟨fun _ _ => none, [], []⟩, _) := .start _ ⟨rfl, rfl⟩
  have h1 := browses h0 (.sends _ () .login)
  have h2 := asks .receive _ h1 false rfl ⟨[], [], rfl, rfl⟩
  have h3 := asks (.page (.tokenBytes 32)) (zeros 32) h2 false rfl rfl
  have h4 := asks (.page (.tokenBytes 32)) (zeros 32) h3 false rfl rfl
  have h5 := asks (.page (.tokenBytes 64)) (zeros 64) h4 false rfl rfl
  have h6 := asks (.respond () begun) () h5 false rfl rfl
  have h7 := browses h6 (.receives _ () begun [] [] rfl)
  have h8 := browses h7 (.sends _ () (.callback query))
  have h9 := asks .receive _ h8 true rfl ⟨[], [], rfl, rfl⟩
  have h10 := asks (.page (.exchangeCode (codeExchange settings (pyStr "c") attempt.verifier)))
    (.ok token) h9 true rfl rfl
  have h11 := asks (.page .now) time h10 true rfl rfl
  have h12 := asks (.page (.verify token time.val attempt.nonce)) (.ok identity) h11 true rfl rfl
  have hanswer : verified (remainingSeconds identity.expiresAt time.val) =
      .ask (.respond () (signedIn token 1)) fun _ => .ret () := by
    rw [one_second]
    rfl
  have h13 := asks (.respond () (signedIn token 1)) () h12 true hanswer rfl
  have h14 := browses h13 (.receives _ () (signedIn token 1) [] [] rfl)
  exact ⟨_, _, _, h14, rfl⟩

end LoginFixture

open LoginFixture in
theorem logins_bound_signedIn : ∃ run : WebRun Bool Unit, SignedIn settings run () token 1 := by
  obtain ⟨run, w, ps, h, hjar⟩ := signIn_trace
  exact ⟨run, (logins_bound settings run (w, ps) h).1 () token 1 hjar⟩

end NokincFactory.Login
