/-
  File:      NokincFactory/Token/RoundTrip.lean
  Subject:   What is issued is verified: the principal, and the seconds at which it is.

  Of the keyed hash it is only assumed that it gives bytes: that nobody else can issue a token is
  not covered.

  * `decode_encode`: a segment is read back;
  * `issue_ok`: when a token is issued, and which one;
  * `verify_issued`: the verification of a token comes down to its claims;
  * `GoodAt`, `principalOf_claims`: when they give a principal;
  * `token_round_trip`: and whose.
-/
import NokincFactory.Token.Verification

namespace NokincFactory.Token

/-! ## 1. Segments are read back -/

theorem segment_plain (bytes : List Byte) : ∀ c ∈ base64Text bytes, ¬ isChar c '.' := by
  intro c hc
  obtain ⟨letter, -, -, -, hplain⟩ := base64_letter hc
  exact hplain

theorem segment_letters (bytes : List Byte) : (base64Text bytes).all segmentChar = true := by
  have hall : urlsafeLetters.all fun c => segmentChar ⟨c.toNat, toNat_codePoint c⟩ := by
    decide +kernel
  rw [List.all_eq_true]
  intro c hc
  obtain ⟨letter, hletter, rfl, -⟩ := base64_letter hc
  exact List.all_eq_true.mp hall letter hletter

/-- Members of distinct names are kept. -/
theorem uniqueObject_ok {members : List (PyStr × Loaded)} (h : (members.map Prod.fst).Nodup) :
    uniqueObject members = .ok (.dict members) := by
  have hloop : ∀ (pairs result : List (PyStr × Loaded)),
      ((result ++ pairs).map Prod.fst).Nodup → pairs.foldlM addMember result =
        .ok (result ++ pairs) := by
    intro pairs
    induction pairs with
    | nil =>
      intro result _
      rw [List.append_nil]
      rfl
    | cons pair pairs ih =>
      intro result hnodup
      have hnew : pair.1 ∉ result.map Prod.fst := by
        intro hmem
        rw [List.map_append, List.nodup_append] at hnodup
        exact hnodup.2.2 _ hmem _ (List.mem_map.mpr ⟨pair, List.mem_cons_self, rfl⟩) rfl
      rw [List.append_cons] at hnodup ⊢
      rw [List.foldlM_cons, addMember, if_neg hnew]
      exact ih _ hnodup
  rw [uniqueObject, hloop members [] h]
  rfl

section

variable [Interpreter]

/-- An object that is encoded is read back. -/
theorem decode_encode {m : PyStr × Loaded} {ms : List (PyStr × Loaded)} {segment : PyStr}
    (hread : Readable HmacTokenIssuer.uniqueHook Interpreter.levels (.dict (m :: ms)))
    (h : HmacTokenIssuer.encode (.dict (m :: ms)) = .ok segment) :
    HmacTokenIssuer.decode segment = .ok (.dict (m :: ms)) := by
  rw [HmacTokenIssuer.encode] at h
  by_cases hencodable : encodable (Loaded.compact (.dict (m :: ms)))
  swap
  · rw [if_neg hencodable] at h
    cases h
  rw [if_pos hencodable] at h
  obtain rfl := Except.ok.inj h
  have hne : base64Text (utf8 (Loaded.compact (.dict (m :: ms)))) ≠ [] := by
    have hstart : ∃ rest, Loaded.compact (.dict (m :: ms)) = 123 :: 34 :: rest := by
      rw [Loaded.compact_dict, Loaded.memberText, quoteText]
      simp only [List.append_assoc]
      exact ⟨_, rfl⟩
    obtain ⟨rest, heq⟩ := hstart
    rw [heq, utf8_ascii (by decide), utf8_ascii (by decide)]
    exact base64Text_ne_nil
  rw [HmacTokenIssuer.decode, if_neg fun h => h.elim hne fun h => h (segment_letters _),
    base64Bytes_base64Text]
  show Except.liftWith _ (loads HmacTokenIssuer.uniqueHook Interpreter.levels _) = _
  rw [loads_compact hread]
  rfl

/-! ## 2. Headers and claims -/

/-- What is called for has room between the brackets of a token. -/
theorem hook_room (text : PyStr) :
    HmacTokenIssuer.uniqueHook.call text ≤ Interpreter.spare + 1 :=
  Nat.le_succ_of_le (Interpreter.call_le text)

theorem header_readable :
    Readable HmacTokenIssuer.uniqueHook Interpreter.levels
      (.dict HmacTokenIssuer.tokenHeader) := by
  rw [Interpreter.levels_eq]
  refine .dict hook_room (uniqueObject_ok (by decide +kernel)) fun m hm => ?_
  rcases List.mem_cons.mp hm with rfl | hm
  · exact .str
  · obtain rfl := List.mem_singleton.mp hm
    exact .str

omit [Interpreter] in
/-- From the epoch on, the seconds are those that have passed. -/
theorem timestamp_bounds {micros : ℤ} (h : 0 ≤ micros) :
    0 ≤ timestamp micros ∧ timestamp micros * 1000000 ≤ micros ∧
      micros < timestamp micros * 1000000 + 1000000 := by
  have hdiv : timestamp micros = micros / 1000000 := Int.tdiv_eq_ediv_of_nonneg h
  omega

omit [Interpreter] in
/-- The seconds of a moment have few digits. -/
theorem timestamp_digits {micros : ℤ} (h : 0 ≤ micros ∧ micros ≤ latest) :
    (Nat.toDigits 10 (timestamp micros).natAbs).length ≤ PyValue.maxStrDigits := by
  have hbound : (timestamp micros).natAbs < 10 ^ 12 := by
    have hlatest : latest = 253402300799999999 := rfl
    have hseconds := timestamp_bounds h.1
    omega
  have hlength := (Nat.length_toDigits_le_iff (by decide) (by decide)).mpr hbound
  exact hlength.trans (by decide)

variable (a : HmacTokenIssuer)

omit [Interpreter] in
theorem claims_nodup (tenantId subjectId : PyStr) (roles : List Role) (issued expires : ℤ) :
    ((a.tokenClaims tenantId subjectId roles issued expires).map Prod.fst).Nodup := by
  show [pyStr "iss", pyStr "aud", pyStr "sub", pyStr "tenant", pyStr "roles", pyStr "iat",
    pyStr "exp"].Nodup
  decide +kernel

theorem claims_readable (tenantId subjectId : PyStr) (roles : List Role) {issued expires : ℤ}
    (hissued : (Nat.toDigits 10 issued.natAbs).length ≤ PyValue.maxStrDigits)
    (hexpires : (Nat.toDigits 10 expires.natAbs).length ≤ PyValue.maxStrDigits) :
    Readable HmacTokenIssuer.uniqueHook Interpreter.levels
      (.dict (a.tokenClaims tenantId subjectId roles issued expires)) := by
  rw [Interpreter.levels_eq]
  refine .dict hook_room (uniqueObject_ok (claims_nodup a ..)) fun m hm => ?_
  have hroles : Readable HmacTokenIssuer.uniqueHook (Interpreter.spare + 1)
      (.list (roles.map fun role => .str (pyStr role.value))) := by
    refine .list Interpreter.call_le fun v hv => ?_
    obtain ⟨role, -, rfl⟩ := List.mem_map.mp hv
    exact .str
  simp only [HmacTokenIssuer.tokenClaims, List.mem_cons, List.not_mem_nil, or_false] at hm
  rcases hm with rfl | rfl | rfl | rfl | rfl | rfl | rfl
  · exact .str
  · exact .str
  · exact .str
  · exact .str
  · exact hroles
  · exact .int hissued
  · exact .int hexpires

omit [Interpreter] in
/-- The claims have an encoding iff the names in them do. -/
theorem encodable_claims (tenant subject : Identifier) (roles : List Role) (issued expires : ℤ) :
    encodable (Loaded.compact (.dict (a.tokenClaims (pyStr tenant.text) (pyStr subject.text) roles
      issued expires))) = (encodable a.issuer && encodable a.audience) := by
  have htext : ∀ s : String, encodable (pyStr s) = true := fun s => encodable_pyText _
  have hroles : encodable (Loaded.compact (.list (roles.map fun role =>
      .str (pyStr role.value)))) = true := by
    have hitems : ∀ roles : List Role, encodable (Loaded.compactItems (roles.map fun role =>
        .str (pyStr role.value))) = true := by
      intro roles
      induction roles with
      | nil => rfl
      | cons role roles ih =>
        rw [List.map_cons, Loaded.compactItems, Loaded.compact]
        simp only [encodable_append, encodable_quoteText, htext, ih, Bool.true_and]
    cases roles with
    | nil => rfl
    | cons role roles =>
      rw [List.map_cons, Loaded.compact, Loaded.compact]
      simp only [encodable_append, encodable_quoteText, htext, hitems, Bool.true_and]
  have hint : ∀ n, encodable (Loaded.compact (.int n)) = true := by
    intro n
    rw [Loaded.compact]
    exact encodable_pyText _
  have hstr : ∀ s, encodable (Loaded.compact (.str s)) = encodable s := by
    intro s
    rw [Loaded.compact]
    exact encodable_quoteText s
  rw [HmacTokenIssuer.tokenClaims, Loaded.compact]
  simp only [Loaded.compactMembers, encodable_append, encodable_quoteText, hstr, hint, hroles,
    htext, Bool.true_and, Bool.and_true]

/-! ## 3. Tokens -/

omit [Interpreter] in
/-- The seconds of a token, as instants. -/
theorem fromTimestamp_timestamp {micros : ℤ} (h : 0 ≤ micros ∧ micros ≤ latest) :
    ∃ m, fromTimestamp (timestamp micros) = .ok m ∧ m.micros = timestamp micros * micro := by
  have hrange : earliest ≤ timestamp micros * micro ∧ timestamp micros * micro ≤ latest := by
    have hearliest : earliest = -62135596800000000 := rfl
    have hmicros : timestamp micros * micro = timestamp micros * 1000000 := rfl
    have hseconds := timestamp_bounds h.1
    omega
  refine ⟨⟨_, hrange.1, hrange.2⟩, ?_, rfl⟩
  rw [fromTimestamp, dif_pos hrange]

variable (tenant subject : Identifier) (roles : List Role)

/-- A token is issued iff its names have an encoding and its last second exists, and it is the
three segments. -/
theorem issue_ok {now : Datetime} {current : Moment} {lifetime : ℤ} {token : PyStr}
    (hnow : utc now = .ok current) (hlife : 0 < lifetime) :
    a.issue (pyStr tenant.text) (pyStr subject.text) roles now lifetime = .ok token ↔
      (encodable a.issuer = true ∧ encodable a.audience = true) ∧
      current.micros + lifetime * micro ≤ latest ∧
      ∃ header body, HmacTokenIssuer.encode (.dict HmacTokenIssuer.tokenHeader) = .ok header ∧
        HmacTokenIssuer.encode (.dict (a.tokenClaims (pyStr tenant.text) (pyStr subject.text) roles
          (timestamp current.micros) (timestamp (current.micros + lifetime * micro)))) = .ok body ∧
        token = header ++ pyStr "." ++ body ++ pyStr "." ++ a.signature header body := by
  rw [HmacTokenIssuer.issue, hnow]
  show (guardThat (0 < lifetime) _ >>= fun _ => _) = _ ↔ _
  rw [guardThat_pass hlife, Except.ok_bind, Except.seq_ok, guardThat_ok, Except.bind_ok]
  constructor
  · rintro ⟨hlast, header, hheader, h⟩
    obtain ⟨body, hbody, htoken⟩ := Except.bind_ok.mp h
    refine ⟨?_, hlast, header, body, hheader, hbody, (Except.pure_ok.mp htoken).symm⟩
    have hencodable : encodable (Loaded.compact (.dict (a.tokenClaims (pyStr tenant.text)
        (pyStr subject.text) roles (timestamp current.micros)
        (timestamp (current.micros + lifetime * micro))))) = true := by
      by_contra hnot
      rw [HmacTokenIssuer.encode, if_neg hnot] at hbody
      cases hbody
    rw [encodable_claims] at hencodable
    exact Bool.and_eq_true_iff.mp hencodable
  · rintro ⟨-, hlast, header, body, hheader, hbody, rfl⟩
    exact ⟨hlast, header, hheader, Except.bind_ok.mpr ⟨body, hbody, rfl⟩⟩

theorem issue_exists {now : Datetime} {current : Moment} {lifetime : ℤ}
    (hnow : utc now = .ok current) (hlife : 0 < lifetime) :
    (∃ token, a.issue (pyStr tenant.text) (pyStr subject.text) roles now lifetime = .ok token) ↔
      encodable a.issuer = true ∧ encodable a.audience = true ∧
        current.micros + lifetime * micro ≤ latest := by
  constructor
  · rintro ⟨token, h⟩
    obtain ⟨hnames, hlast, -⟩ := (issue_ok a tenant subject roles hnow hlife).mp h
    exact ⟨hnames.1, hnames.2, hlast⟩
  · rintro ⟨hissuer, haudience, hlast⟩
    have hheader : encodable (Loaded.compact (.dict HmacTokenIssuer.tokenHeader)) = true := by
      decide +kernel
    have hbody := encodable_claims a tenant subject roles (timestamp current.micros)
      (timestamp (current.micros + lifetime * micro))
    rw [hissuer, haudience] at hbody
    refine ⟨_, (issue_ok a tenant subject roles hnow hlife).mpr ⟨⟨hissuer, haudience⟩, hlast, _, _,
      if_pos hheader, if_pos hbody, rfl⟩⟩

theorem signature_plain (header body : PyStr) : ∀ c ∈ a.signature header body, ¬ isChar c '.' :=
  segment_plain _

omit [Interpreter] in
theorem encode_plain {v : Loaded} {segment : PyStr}
    (h : HmacTokenIssuer.encode v = .ok segment) : ∀ c ∈ segment, ¬ isChar c '.' := by
  rw [HmacTokenIssuer.encode] at h
  split at h
  · obtain rfl := Except.ok.inj h
    exact segment_plain _
  · cases h

/-- A signature of one's own is the right one. -/
theorem checkParts_same (headerValue payloadValue : PyStr) (claims : List (PyStr × Loaded))
    (time : Datetime) :
    a.checkParts headerValue payloadValue (a.signature headerValue payloadValue)
      (.dict HmacTokenIssuer.tokenHeader) (.dict claims) time = a.principalOf claims time := by
  have htype : HmacTokenIssuer.isTokenHeader (.dict HmacTokenIssuer.tokenHeader) = true := by
    decide +kernel
  have hascii := signature_ascii a headerValue payloadValue
  rw [HmacTokenIssuer.checkParts, guardThat_pass htype, Except.ok_bind]
  show (compareDigest _ _ >>= fun same => _) = _
  rw [compareDigest, if_pos ⟨hascii, hascii⟩, Except.ok_bind, guardThat_pass (decide_eq_true rfl)]
  rfl

/-- Under one key, what a verification makes of a token is what it makes of its claims. -/
theorem verify_issued {now : Datetime} {current : Moment} {lifetime : ℤ} {token : PyStr}
    (hnow : utc now = .ok current) (hepoch : 0 ≤ current.micros) (hlife : 0 < lifetime)
    (h : a.issue (pyStr tenant.text) (pyStr subject.text) roles now lifetime = .ok token)
    (b : HmacTokenIssuer) (hsecret : b.secret = a.secret) (time : Datetime) :
    b.verify token time = b.principalOf (a.tokenClaims (pyStr tenant.text) (pyStr subject.text) roles
      (timestamp current.micros) (timestamp (current.micros + lifetime * micro))) time := by
  obtain ⟨-, hlast, header, body, hheader, hbody, rfl⟩ :=
    (issue_ok a tenant subject roles hnow hlife).mp h
  have hparts : splitAt '.' (header ++ pyStr "." ++ body ++ pyStr "." ++ a.signature header body) =
      [header, body, a.signature header body] := by
    simp only [List.append_assoc]
    refine (splitAt_part (encode_plain hheader) _).trans ?_
    refine congrArg (List.cons header) ((splitAt_part (encode_plain hbody) _).trans ?_)
    exact congrArg (List.cons body) (splitAt_last (signature_plain a header body))
  have hsame : b.signature header body = a.signature header body := by
    rw [HmacTokenIssuer.signature, HmacTokenIssuer.signature, hsecret]
  have hexpires : 0 ≤ current.micros + lifetime * micro := by
    have hmicros : lifetime * micro = lifetime * 1000000 := rfl
    omega
  have hclaims := decode_encode (claims_readable a (pyStr tenant.text) (pyStr subject.text) roles
    (timestamp_digits ⟨hepoch, current.upper⟩) (timestamp_digits ⟨hexpires, hlast⟩)) hbody
  rw [HmacTokenIssuer.verify, hparts]
  show (HmacTokenIssuer.decode header >>= fun header' => _) = _
  rw [decode_encode header_readable hheader, Except.ok_bind, hclaims, Except.ok_bind, ← hsame]
  exact checkParts_same b header body _ time

end

/-! ## 4. Claims -/

/-- The times from the second of the issue up to, and without, the second of the expiry. -/
def GoodAt (current : Moment) (lifetime : ℤ) (time : Datetime) : Prop :=
  ∃ m, utc time = .ok m ∧ timestamp current.micros * micro ≤ m.micros ∧
    m.micros < timestamp (current.micros + lifetime * micro) * micro

theorem ofText_pyStr (i : Identifier) : Identifier.ofText (pyStr i.text) = some i := by
  have hback : String.ofList ((pyStr i.text).map fun c => Char.ofNat c.val) = i.text := by
    rw [pyStr, pyText, List.map_map]
    have hid : (fun c : CodePoint => Char.ofNat c.val) ∘ (fun c : Char =>
        (⟨c.toNat, toNat_codePoint c⟩ : CodePoint)) = id := funext fun c => Char.ofNat_toNat c
    rw [hid, List.map_id]
    exact String.ofList_toList
  rw [Identifier.ofText]
  simp only [hback]
  rw [dif_pos ⟨trivial, i.pattern⟩]

theorem roles_ofText (roles : List Role) :
    (roles.map fun role => pyStr role.value).mapM Role.ofText = some roles := by
  have hrole : ∀ role : Role, Role.ofText (pyStr role.value) = some role := by
    intro role
    cases role with
    | viewer => decide +kernel
    | operator => decide +kernel
    | admin => decide +kernel
  induction roles with
  | nil => rfl
  | cons role roles ih =>
    rw [List.map_cons, List.mapM_cons, hrole, ih]
    rfl

theorem texts_str (values : List PyStr) : Loaded.texts (values.map .str) = some values := by
  induction values with
  | nil => rfl
  | cons s values ih =>
    rw [List.map_cons, Loaded.texts, ih]
    rfl

theorem length_roles {roles : List Role} (h : roles.Nodup) : roles.length ≤ 3 := by
  have hsub : roles ⊆ Role.all := fun role _ => by cases role <;> decide
  exact (h.subperm hsub).length_le

section

variable (a : HmacTokenIssuer)

/-- What is found under the names of the claims. -/
theorem get_claims (tenantId subjectId : PyStr) (roles : List Role) (issued expires : ℤ) :
    let claims := a.tokenClaims tenantId subjectId roles issued expires
    (Loaded.get claims "iss" = some (.str a.issuer) ∧
      Loaded.get claims "aud" = some (.str a.audience)) ∧
    (Loaded.get claims "iat" = some (.int issued) ∧
      Loaded.get claims "exp" = some (.int expires)) ∧
    Loaded.get claims "sub" = some (.str subjectId) ∧
    Loaded.get claims "tenant" = some (.str tenantId) ∧
    Loaded.get claims "roles" = some (.list (roles.map fun role => .str (pyStr role.value))) :=
  ⟨⟨rfl, rfl⟩, ⟨rfl, rfl⟩, rfl, rfl, rfl⟩

variable (tenant subject : Identifier) (roles : List Role)

/-- With the names of the issuer, the claims give a principal just as long as they are good. -/
theorem principalOf_claims {current : Moment} {lifetime : ℤ} {time : Datetime}
    (hnames : boundedName a.issuer = true ∧ boundedName a.audience = true)
    (hroles : roles ≠ [] ∧ roles.Nodup) (hepoch : 0 ≤ current.micros) (hlife : 0 < lifetime)
    (hlast : current.micros + lifetime * micro ≤ latest) :
    (GoodAt current lifetime time → ∃ p, a.principalOf (a.tokenClaims (pyStr tenant.text)
      (pyStr subject.text) roles (timestamp current.micros)
      (timestamp (current.micros + lifetime * micro))) time = .ok p ∧ p.tenantId = tenant ∧
        p.subjectId = subject ∧ p.roles = roles) ∧
    (¬ GoodAt current lifetime time → ∃ e, a.principalOf (a.tokenClaims (pyStr tenant.text)
      (pyStr subject.text) roles (timestamp current.micros)
      (timestamp (current.micros + lifetime * micro))) time = .error e) := by
  have hexpires : 0 ≤ current.micros + lifetime * micro := by
    have hmicros : lifetime * micro = lifetime * 1000000 := rfl
    omega
  obtain ⟨issuedAt, hissued, hissuedAt⟩ := fromTimestamp_timestamp ⟨hepoch, current.upper⟩
  obtain ⟨expiresAt, hexpired, hexpiresAt⟩ := fromTimestamp_timestamp ⟨hexpires, hlast⟩
  have hrun : a.principalOf (a.tokenClaims (pyStr tenant.text) (pyStr subject.text) roles
      (timestamp current.micros) (timestamp (current.micros + lifetime * micro))) time = (do
        let now ← Except.liftWith .value (utc time)
        guardThat (issuedAt ≤ now) (tokenFault "token was issued in the future")
        guardThat (now < expiresAt) (tokenFault "token is expired")
        modelValidatePrincipal (pyStr tenant.text) (pyStr subject.text) a.issuer a.audience
          (roles.map fun role => pyStr role.value) issuedAt expiresAt) := by
    obtain ⟨⟨hiss, haud⟩, ⟨hiat, hexp⟩, hsub, htenant, hlist⟩ := get_claims a (pyStr tenant.text)
      (pyStr subject.text) roles (timestamp current.micros)
      (timestamp (current.micros + lifetime * micro))
    have htexts : Loaded.texts (roles.map fun role => .str (pyStr role.value)) =
        some (roles.map fun role => pyStr role.value) := by
      rw [← texts_str, List.map_map]
      rfl
    rw [HmacTokenIssuer.principalOf, hiss, haud, hiat, hexp,
      guardThat_pass ⟨decide_eq_true rfl, decide_eq_true rfl⟩, Except.ok_bind]
    simp only [hissued, hexpired, Except.ok_bind, hsub, htenant, hlist]
    show (Except.liftWith TokenError.value (utc time) >>= fun now => _) = _
    refine congrArg (Except.liftWith TokenError.value (utc time) >>= ·) (funext fun now => ?_)
    refine congrArg (guardThat (issuedAt ≤ now) _ >>= ·) (funext fun _ => ?_)
    refine congrArg (guardThat (now < expiresAt) _ >>= ·) (funext fun _ => ?_)
    rw [htexts]
  have hvalid : ∃ p, modelValidatePrincipal (pyStr tenant.text) (pyStr subject.text) a.issuer
      a.audience (roles.map fun role => pyStr role.value) issuedAt expiresAt = .ok p ∧
      p.tenantId = tenant ∧ p.subjectId = subject ∧ p.roles = roles := by
    have hlength : 1 ≤ roles.length ∧ roles.length ≤ 3 :=
      ⟨List.length_pos_iff.mpr hroles.1, length_roles hroles.2⟩
    rw [modelValidatePrincipal, ofText_pyStr, ofText_pyStr, roles_ofText]
    simp only
    rw [dif_pos ⟨hnames, hlength, hroles.2⟩]
    exact ⟨_, rfl, rfl, rfl, rfl⟩
  rw [hrun]
  constructor
  · rintro ⟨m, hutc, hfrom, huntil⟩
    have hissue : issuedAt ≤ m := by
      show issuedAt.micros ≤ m.micros
      rw [hissuedAt]
      exact hfrom
    have hexpiry : m < expiresAt := by
      show m.micros < expiresAt.micros
      rw [hexpiresAt]
      exact huntil
    obtain ⟨p, hp, hfields⟩ := hvalid
    refine ⟨p, ?_, hfields⟩
    rw [hutc]
    show (guardThat (issuedAt ≤ m) _ >>= fun _ => _) = _
    rw [guardThat_pass hissue, Except.ok_bind, guardThat_pass hexpiry, Except.ok_bind]
    exact hp
  · intro hnot
    refine Except.error_of_not_ok fun p hp => hnot ?_
    obtain ⟨m, hutc, hp⟩ := Except.bind_ok.mp hp
    obtain ⟨hissue, hp⟩ := Except.seq_ok.mp hp
    obtain ⟨hexpiry, -⟩ := Except.seq_ok.mp hp
    refine ⟨m, Except.liftWith_ok.mp hutc, ?_, ?_⟩
    · have hissue : issuedAt.micros ≤ m.micros := guardThat_ok.mp hissue
      rwa [hissuedAt] at hissue
    · have hexpiry : m.micros < expiresAt.micros := guardThat_ok.mp hexpiry
      rwa [hexpiresAt] at hexpiry

/-- With another name or audience, they give none. -/
theorem principalOf_other {b : HmacTokenIssuer} (h : b.issuer ≠ a.issuer ∨ b.audience ≠ a.audience)
    (tenantId subjectId : PyStr) (issued expires : ℤ) (time : Datetime) :
    ∃ e, b.principalOf (a.tokenClaims tenantId subjectId roles issued expires) time = .error e := by
  refine Except.error_of_not_ok fun p hp => ?_
  obtain ⟨hnames, -⟩ := Except.seq_ok.mp hp
  obtain ⟨⟨hiss, haud⟩, -⟩ := get_claims a tenantId subjectId roles issued expires
  rw [guardThat_ok, hiss, haud] at hnames
  obtain ⟨hissuer, haudience⟩ := hnames
  have hissuer : a.issuer = b.issuer := of_decide_eq_true hissuer
  have haudience : a.audience = b.audience := of_decide_eq_true haudience
  rcases h with h | h
  · exact h hissuer.symm
  · exact h haudience.symm

/-- The moment of the issue is good, whatever part of its second has passed. -/
theorem goodAt_issue {now : Datetime} {current : Moment} {lifetime : ℤ}
    (hnow : utc now = .ok current) (hepoch : 0 ≤ current.micros) (hlife : 0 < lifetime) :
    GoodAt current lifetime now := by
  have hmicros : lifetime * micro = lifetime * 1000000 := rfl
  have hissued := timestamp_bounds hepoch
  have hexpires := timestamp_bounds (show 0 ≤ current.micros + lifetime * micro by omega)
  refine ⟨current, hnow, hissued.2.1, ?_⟩
  show current.micros < timestamp (current.micros + lifetime * micro) * 1000000
  omega

/-- A token is issued where its names have an encoding and its last second exists. It is verified,
as that tenant, subject and roles, just from its first second up to its last one, the moment of its
issue among them; and never under another name or for another audience. -/
theorem token_round_trip [Interpreter] {now : Datetime} {current : Moment} {lifetime : ℤ}
    (hnames : a.issuer.length ≤ 200 ∧ a.audience.length ≤ 200)
    (hroles : roles ≠ [] ∧ roles.Nodup) (hnow : utc now = .ok current)
    (hepoch : 0 ≤ current.micros) (hlife : 0 < lifetime) :
    ((∃ token, a.issue (pyStr tenant.text) (pyStr subject.text) roles now lifetime = .ok token) ↔
      encodable a.issuer = true ∧ encodable a.audience = true ∧
        current.micros + lifetime * micro ≤ latest) ∧
    GoodAt current lifetime now ∧
    ∀ token, a.issue (pyStr tenant.text) (pyStr subject.text) roles now lifetime = .ok token →
      (∀ time, GoodAt current lifetime time → ∃ p, a.verify token time = .ok p ∧
        p.tenantId = tenant ∧ p.subjectId = subject ∧ p.roles = roles) ∧
      (∀ time, ¬ GoodAt current lifetime time → ∃ e, a.verify token time = .error e) ∧
      ∀ (b : HmacTokenIssuer) (time : Datetime), b.secret = a.secret →
        b.issuer ≠ a.issuer ∨ b.audience ≠ a.audience → ∃ e, b.verify token time = .error e := by
  refine ⟨issue_exists a tenant subject roles hnow hlife, goodAt_issue hnow hepoch hlife,
    fun token htoken => ?_⟩
  have hverify := verify_issued a tenant subject roles hnow hepoch hlife htoken
  obtain ⟨⟨hissuer, haudience⟩, hlast, -⟩ := (issue_ok a tenant subject roles hnow hlife).mp htoken
  have hbounded : ∀ {s : PyStr}, encodable s = true → s.length ≤ 200 → pyStrip s ≠ [] →
      boundedName s = true := by
    intro s hencodable hlength hstrip
    have hne : s ≠ [] := by
      rintro rfl
      exact hstrip rfl
    have hpos := List.length_pos_iff.mpr hne
    simp only [boundedName, hencodable, Bool.true_and, Bool.and_eq_true, decide_eq_true_eq]
    exact ⟨hpos, hlength⟩
  have hboth : boundedName a.issuer = true ∧ boundedName a.audience = true :=
    ⟨hbounded hissuer hnames.1 a.named.1, hbounded haudience hnames.2 a.named.2⟩
  have hclaims := fun time => @principalOf_claims a tenant subject roles current lifetime time hboth
    hroles hepoch hlife hlast
  refine ⟨fun time hgood => ?_, fun time hbad => ?_, fun b time hsecret hother => ?_⟩
  · rw [hverify a rfl time]
    exact (hclaims time).1 hgood
  · rw [hverify a rfl time]
    exact (hclaims time).2 hbad
  · rw [hverify b hsecret time]
    exact principalOf_other a roles hother ..

end

/-! ## 5. A token of one minute -/

/-- The hash of the header and the claims of that token. -/
def minuteHash : List Byte :=
  [181, 244, 39, 79, 11, 113, 193, 173, 41, 101, 154, 244, 21, 12, 163, 231, 12, 191, 149, 6, 95,
    79, 3, 12, 4, 250, 211, 144, 179, 138, 241, 53]

def acme : Identifier := ⟨"acme", by decide⟩
def ann : Identifier := ⟨"ann", by decide⟩

/-- The last microsecond of a second. -/
def late : Moment := ⟨1700000000999999, by decide, by decide⟩

/-- A token that is issued just before its second has passed is verified at once. -/
theorem token_round_trip_late :
    ∃ token p, @HmacTokenIssuer.issue (oneMessage minuteHash) keeper (pyStr acme.text)
      (pyStr ann.text) [.operator] late.datetime 60 = .ok token ∧
      @HmacTokenIssuer.verify (oneMessage minuteHash) keeper token late.datetime = .ok p ∧
      p.tenantId = acme ∧ p.subjectId = ann ∧ p.roles = [.operator] := by
  obtain ⟨hissue, hgood, hverify⟩ := @token_round_trip keeper acme ann [.operator]
    (oneMessage minuteHash) late.datetime late 60 (by decide) (by decide) (utc_datetime late)
    (by decide) (by decide)
  obtain ⟨token, htoken⟩ := hissue.mpr (by decide)
  obtain ⟨p, hp, hfields⟩ := (hverify token htoken).1 late.datetime hgood
  exact ⟨token, p, htoken, hp, hfields⟩

end NokincFactory.Token
