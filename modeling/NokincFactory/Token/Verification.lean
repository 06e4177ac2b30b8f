/-
  File:      NokincFactory/Token/Verification.lean
  Subject:   What the verification of a token can raise.

  `verify` has two ways past `except (ValueError, OverflowError)`. The scanner of `json.loads`
  raises a `RecursionError` where the brackets of a segment go too deep, for itself or for what it
  calls between them, and `compare_digest` a `TypeError` where the signature is not ASCII.

  How many levels the stack has, and how many these calls take, are parameters: releases of CPython
  differ in both. Of the keyed hash it is only assumed that it gives bytes.

  * `Caught`: what the dependency turns into a principal or status 401;
  * `decode_recursion`: the segments that the scanner gives up on;
  * `Escapes`: the tokens that get past the dependency;
  * `verify_caught_iff`: and no others do.
-/
import NokincFactory.Application.HmacTokenIssuer

namespace NokincFactory.Token

variable {α β : Type}

/-! ## 1. What is caught -/

/-- A call that returns, or raises what the dependency catches. -/
def Caught (x : Except TokenError α) : Prop := ∀ e, x = .error e → e.caught = true

instance (x : Except TokenError α) : Decidable (Caught x) :=
  match x with
  | .ok _ => .isTrue fun _ h => (nomatch h)
  | .error e => decidable_of_iff (e.caught = true) ⟨fun h _ he => Except.error.inj he ▸ h,
      fun h => h e rfl⟩

theorem caught_ok (x : α) : Caught (.ok x : Except TokenError α) := fun _ h => (nomatch h)

theorem caught_error {e : TokenError} : Caught (.error e : Except TokenError α) ↔ e.caught = true :=
  ⟨fun h => h e rfl, fun h _ he => Except.error.inj he ▸ h⟩

theorem caught_fault (text : String) : Caught (.error (tokenFault text) : Except TokenError α) :=
  caught_error.mpr rfl

theorem caught_guard {p : Prop} [Decidable p] {e : TokenError} (he : e.caught = true) :
    Caught (guardThat p e) := by
  intro e' h
  rw [← (guardThat_error.mp h).2]
  exact he

/-- A composition is caught iff each half is, the second wherever the first one returns. -/
theorem caught_bind {x : Except TokenError α} {f : α → Except TokenError β} :
    Caught (x >>= f) ↔ Caught x ∧ ∀ a, x = .ok a → Caught (f a) := by
  cases x with
  | error e =>
    refine ⟨fun h => ⟨caught_error.mpr (h e rfl), fun a ha => (nomatch ha)⟩, fun h => ?_⟩
    exact caught_error.mpr (h.1 e rfl)
  | ok a =>
    refine ⟨fun h => ⟨caught_ok a, fun b hb => ?_⟩, fun h => h.2 a rfl⟩
    obtain rfl := Except.ok.inj hb
    exact h

theorem caught_guarded {p : Prop} [Decidable p] {e : TokenError} (he : e.caught = true)
    {x : Except TokenError β} : Caught (guardThat p e >>= fun _ => x) ↔ (p → Caught x) := by
  rw [caught_bind]
  refine ⟨fun h hp => h.2 () (guardThat_pass hp), fun h => ⟨caught_guard he, fun u hu => ?_⟩⟩
  exact h (guardThat_ok.mp hu)

theorem caught_utc (now : Datetime) : Caught (Except.liftWith TokenError.value (utc now)) := by
  intro e h
  cases hutc : utc now with
  | ok m =>
    rw [hutc] at h
    cases h
  | error reason =>
    rw [hutc] at h
    cases h
    rfl

theorem caught_fromTimestamp (seconds : ℤ) : Caught (fromTimestamp seconds) := by
  rw [fromTimestamp]
  split
  · exact caught_ok _
  · exact caught_fault _

theorem caught_modelValidate (tenant subject issuer audience : PyStr) (roles : List PyStr)
    (issuedAt expiresAt : Moment) :
    Caught (modelValidatePrincipal tenant subject issuer audience roles issuedAt expiresAt) := by
  rw [modelValidatePrincipal]
  split
  · split
    · exact caught_ok _
    · exact caught_error.mpr rfl
  · exact caught_error.mpr rfl

/-! ## 2. Segments -/

/-- The hook raises no `RecursionError`. -/
theorem uniqueObject_flat (members : List (PyStr × Loaded)) :
    uniqueObject members ≠ .error .recursion := by
  have hloop : ∀ (pairs result : List (PyStr × Loaded)),
      pairs.foldlM addMember result ≠ .error .recursion := by
    intro pairs
    induction pairs with
    | nil => exact fun result h => (nomatch h)
    | cons pair pairs ih =>
      intro result
      rw [List.foldlM_cons]
      refine Except.bind_ne_error ?_ fun next => ih next
      rw [addMember]
      split
      · exact fun h => (nomatch h)
      · exact fun h => (nomatch h)
  exact Except.bind_ne_error (hloop members []) fun _ h => (nomatch h)

section

variable [Interpreter]

/-- A segment with a JSON text whose brackets go too deep for the scanner and what it calls. -/
structure OverNested (segment : PyStr) : Prop where
  letters : segment ≠ [] ∧ segment.all segmentChar
  nested : ∃ raw text, base64Bytes segment = some raw ∧ decodeText raw = some text ∧
    TooDeep HmacTokenIssuer.uniqueHook Interpreter.levels (skipBlank text)

/-- What `_decode` raises is caught, except over such a segment. -/
theorem decode_caught_iff (segment : PyStr) :
    Caught (HmacTokenIssuer.decode segment) ↔ ¬ OverNested segment := by
  rw [HmacTokenIssuer.decode]
  by_cases hletters : segment = [] ∨ ¬ segment.all segmentChar
  · rw [if_pos hletters]
    refine iff_of_true (caught_fault _) fun h => ?_
    rcases hletters with hnil | hchar
    · exact h.letters.1 hnil
    · exact hchar h.letters.2
  rw [if_neg hletters]
  obtain ⟨hne, hall⟩ := not_or.mp hletters
  cases hbytes : base64Bytes segment with
  | none =>
    refine iff_of_true (caught_fault _) fun h => ?_
    obtain ⟨raw, text, hraw, -⟩ := h.nested
    rw [hbytes] at hraw
    cases hraw
  | some raw =>
    have hdeep :=
      @loads_recursion HmacTokenIssuer.uniqueHook Interpreter.levels uniqueObject_flat raw
    show Caught (Except.liftWith LoadError.toToken
      (loads HmacTokenIssuer.uniqueHook Interpreter.levels raw)) ↔ _
    have hnested : OverNested segment ↔
        loads HmacTokenIssuer.uniqueHook Interpreter.levels raw = .error .recursion := by
      rw [hdeep]
      constructor
      · rintro ⟨-, raw', text, hraw, hnested⟩
        obtain rfl := Option.some.inj (hbytes.symm.trans hraw)
        exact ⟨text, hnested⟩
      · rintro ⟨text, hnested⟩
        exact ⟨⟨hne, not_not.mp hall⟩, raw, text, hbytes, hnested⟩
    rw [hnested]
    cases loads HmacTokenIssuer.uniqueHook Interpreter.levels raw with
    | ok value => exact iff_of_true (caught_ok _) fun h => (nomatch h)
    | error e =>
      cases e with
      | value => exact iff_of_true (caught_fault _) fun h => (nomatch h)
      | digits => exact iff_of_true (caught_fault _) fun h => (nomatch h)
      | recursion => exact iff_of_false (fun h => (nomatch h .recursion rfl)) (not_not.mpr rfl)

/-! ## 3. Signatures and claims -/

theorem signature_ascii (a : HmacTokenIssuer) (header body : PyStr) :
    (a.signature header body).all (·.val < 128) = true := by
  rw [List.all_eq_true]
  intro c hc
  obtain ⟨letter, -, rfl, hascii, -⟩ := base64_letter hc
  exact decide_eq_true hascii

omit [Interpreter] in
theorem compareDigest_caught_iff {x y : PyStr} (hx : x.all (·.val < 128) = true) :
    Caught (compareDigest x y) ↔ y.all (·.val < 128) = true := by
  rw [compareDigest]
  by_cases hy : y.all (·.val < 128) = true
  · rw [if_pos ⟨hx, hy⟩]
    exact iff_of_true (caught_ok _) hy
  · rw [if_neg fun h => hy h.2]
    refine iff_of_false (fun h => ?_) hy
    cases h _ rfl

omit [Interpreter] in
theorem principalOf_caught (a : HmacTokenIssuer) (claims : List (PyStr × Loaded)) (now : Datetime) :
    Caught (a.principalOf claims now) := by
  refine (caught_guarded rfl).mpr fun _ => ?_
  split
  · refine caught_bind.mpr ⟨caught_fromTimestamp _, fun issuedAt _ => ?_⟩
    refine caught_bind.mpr ⟨caught_fromTimestamp _, fun expiresAt _ => ?_⟩
    refine caught_bind.mpr ⟨caught_utc now, fun current _ => ?_⟩
    refine (caught_guarded rfl).mpr fun _ => (caught_guarded rfl).mpr fun _ => ?_
    split
    · split
      · exact caught_fault _
      · exact caught_modelValidate _ _ _ _ _ _ _
    · exact caught_fault _
  · exact caught_fault _

/-- Behind the decoding, only a signature that is not ASCII is let pass. -/
theorem checkParts_caught_iff (a : HmacTokenIssuer)
    {headerValue payloadValue signatureValue : PyStr} {header payload : Loaded} {now : Datetime} :
    Caught (a.checkParts headerValue payloadValue signatureValue header payload now) ↔
      ¬ (HmacTokenIssuer.isTokenHeader header = true ∧ (∃ claims, payload = .dict claims) ∧
        ¬ signatureValue.all (·.val < 128) = true) := by
  refine (caught_guarded rfl).trans ?_
  cases payload with
  | dict claims =>
    have hcompare := compareDigest_caught_iff (y := signatureValue)
      (signature_ascii a headerValue payloadValue)
    constructor
    · rintro h ⟨hheader, -, hsignature⟩
      exact hsignature (hcompare.mp (caught_bind.mp (h hheader)).1)
    · intro h hheader
      have hsignature : signatureValue.all (·.val < 128) = true := by
        by_contra hnot
        exact h ⟨hheader, ⟨claims, rfl⟩, hnot⟩
      refine caught_bind.mpr ⟨hcompare.mpr hsignature, fun same _ => ?_⟩
      exact (caught_guarded rfl).mpr fun _ => principalOf_caught a claims now
  | _ =>
    refine iff_of_true (fun _ => caught_fault _) ?_
    rintro ⟨-, ⟨claims, hclaims⟩, -⟩
    cases hclaims

/-! ## 4. Tokens -/

/-- The tokens of three segments of which the first or the second goes too deep, or the third one
is not ASCII, where nothing before it is refused. -/
inductive Escapes (token : PyStr) : Prop
  | header {h p s : PyStr} : splitAt '.' token = [h, p, s] → OverNested h → Escapes token
  | payload {h p s : PyStr} {header : Loaded} : splitAt '.' token = [h, p, s] →
      HmacTokenIssuer.decode h = .ok header → OverNested p → Escapes token
  | signature {h p s : PyStr} {header : Loaded} {claims : List (PyStr × Loaded)} :
      splitAt '.' token = [h, p, s] → HmacTokenIssuer.decode h = .ok header →
      HmacTokenIssuer.isTokenHeader header = true →
      HmacTokenIssuer.decode p = .ok (.dict claims) → ¬ s.all (·.val < 128) = true → Escapes token

theorem verify_caught_iff (a : HmacTokenIssuer) (token : PyStr) (now : Datetime) :
    Caught (a.verify token now) ↔ ¬ Escapes token := by
  rw [HmacTokenIssuer.verify]
  have hother : (∀ h p s, splitAt '.' token ≠ [h, p, s]) → ¬ Escapes token := by
    rintro hnot (⟨hparts, -⟩ | ⟨hparts, -, -⟩ | ⟨hparts, -, -, -, -⟩)
    · exact hnot _ _ _ hparts
    · exact hnot _ _ _ hparts
    · exact hnot _ _ _ hparts
  split
  case h_2 hnot => exact iff_of_true (caught_fault _) (hother hnot)
  case h_1 h p s hparts =>
    rw [caught_bind, decode_caught_iff]
    constructor
    · rintro ⟨hheader, hrest⟩ (⟨hparts', hnested⟩ | ⟨hparts', hdecode, hnested⟩ |
        ⟨hparts', hdecode, htype, hclaims, hsignature⟩)
      · cases hparts.symm.trans hparts'
        exact hheader hnested
      · cases hparts.symm.trans hparts'
        exact (decode_caught_iff p).mp (caught_bind.mp (hrest _ hdecode)).1 hnested
      · cases hparts.symm.trans hparts'
        have hchecked := (caught_bind.mp (hrest _ hdecode)).2 _ hclaims
        exact (checkParts_caught_iff a).mp hchecked ⟨htype, ⟨_, rfl⟩, hsignature⟩
    · intro hnot
      refine ⟨fun hnested => hnot (.header hparts hnested), fun header hheader => ?_⟩
      refine caught_bind.mpr ⟨?_, fun payload hpayload => ?_⟩
      · exact (decode_caught_iff p).mpr fun hnested => hnot (.payload hparts hheader hnested)
      · refine (checkParts_caught_iff a).mpr ?_
        rintro ⟨htype, ⟨claims, rfl⟩, hsignature⟩
        exact hnot (.signature hparts hheader htype hpayload hsignature)

omit [Interpreter] in
/-- The dependency lets an exception pass iff the verification raises what is not caught. -/
theorem authenticated_uncaught {x : Except TokenError VerifiedPrincipal} :
    (∃ e, authenticated x = .error (.uncaught e)) ↔ ¬ Caught x := by
  cases x with
  | ok verified =>
    refine iff_of_false ?_ (not_not.mpr (caught_ok _))
    rintro ⟨e, he⟩
    cases he
  | error e =>
    rw [caught_error, authenticated]
    by_cases hcaught : e.caught = true
    · rw [if_pos hcaught]
      refine iff_of_false ?_ (not_not.mpr hcaught)
      rintro ⟨e', he⟩
      cases he
    · rw [if_neg hcaught]
      exact iff_of_true ⟨e, rfl⟩ hcaught

/-- A token is verified, or refused with what the dependency turns into status 401, iff it does not
escape; and a request that presents it ends in an internal error iff it does. -/
theorem verification_total_iff (a : HmacTokenIssuer) (token : PyStr) (now : Datetime) :
    (Caught (a.verify token now) ↔ ¬ Escapes token) ∧
    ∀ (browserLogin : Bool) (cookieAuthOrigin : Option PyStr) (request : AuthRequest),
      presentedToken browserLogin cookieAuthOrigin request = .ok token →
      ((∃ e, principal (some a) browserLogin cookieAuthOrigin request now = .error (.uncaught e)) ↔
        Escapes token) := by
  refine ⟨verify_caught_iff a token now, fun browserLogin cookieAuthOrigin request hpresented => ?_⟩
  rw [principal, hpresented, Except.ok_bind, authenticated_uncaught, verify_caught_iff, not_not]

end

/-! ## 5. A signature that is not ASCII -/

/-- An interpreter that hashes one message, to what it hashes to. -/
@[reducible] def oneMessage (hash : List Byte) : Interpreter where
  digest _ _ := hash
  levels := 993
  call _ := 1
  spare := 991
  levels_eq := rfl
  call_le _ := by decide

/-- A key of sixteen zeros, for two names. -/
def keeper : HmacTokenIssuer :=
  ⟨List.replicate 16 0, pyStr "factory", pyStr "web", by decide, by decide⟩

/-- The header of a token, an empty payload, and a letter with an accent for a signature. -/
def accented : PyStr := pyStr "eyJhbGciOiJIUzI1NiIsInR5cCI6IkpXVCJ9.e30." ++ [233]

def accentedHash : List Byte :=
  [47, 8, 166, 48, 144, 55, 166, 225, 119, 138, 129, 158, 75, 235, 95, 115, 52, 119, 223, 189, 6,
    92, 22, 76, 32, 191, 155, 118, 155, 184, 132, 229]

/-- Over this token the verification raises a `TypeError`. -/
theorem accented_not_caught :
    ¬ Caught (@HmacTokenIssuer.verify (oneMessage accentedHash) keeper accented ⟨0, some 0⟩) := by
  decide +kernel

end NokincFactory.Token
