/-
  File:      NokincFactory/Approval/TwoPerson.lean
  Subject:   What two-person control has established when it passes.

  Who a principal is, and that an approval was given by it, is not shown here. Of the hash it is
  assumed only that it tells the two payloads at hand.

  * `InWindow`, `windowContains_ok`: the half-open window;
  * `Held`: an approval of a decision, made for its digest and current;
  * `checkTwoPerson_ok`: two approvers hold one each, in every window at once;
  * `Binds`, `approvals_bind_iff`: an approval is for one decision alone, unless two decisions
    differ only in how a character beyond the basic plane is written.
-/
import NokincFactory.Approval.Digest
import NokincFactory.Session.Replay

namespace NokincFactory

/-! ## 1. Windows -/

/-- The instant of an aware `datetime`. -/
def Timestamp.instant (t : Timestamp) : Option Int := t.offset.map (t.wall - ·)

/-- The instant of `now` is in the half-open window. -/
def InWindow (issued expires now : Timestamp) : Prop :=
  ∃ i e n, issued.instant = some i ∧ expires.instant = some e ∧ now.instant = some n ∧
    i ≤ n ∧ n < e

theorem astimezone_ok {t : Timestamp} {offset : Int} {m : Moment}
    (h : t.astimezone offset = .ok m) : m.micros = t.wall - offset := by
  unfold Timestamp.astimezone at h
  split_ifs at h with hr
  obtain rfl := Except.ok.inj h
  rfl

theorem windowContains_ok {issued expires now : Timestamp}
    (h : windowContains issued expires now = .ok true) : InWindow issued expires now := by
  unfold windowContains at h
  cases hi : issued.offset with
  | none =>
      rw [hi] at h
      cases h
  | some i =>
      cases he : expires.offset with
      | none =>
          rw [hi, he] at h
          cases h
      | some e =>
          cases hn : now.offset with
          | none =>
              rw [hi, he, hn] at h
              cases h
          | some n =>
              rw [hi, he, hn] at h
              obtain ⟨start, hstart, h⟩ := Except.bind_ok.mp h
              obtain ⟨current, hcurrent, h⟩ := Except.bind_ok.mp h
              by_cases hle : start ≤ current
              · rw [if_pos hle] at h
                obtain ⟨last, hlast, h⟩ := Except.bind_ok.mp h
                have hlt : current < last := of_decide_eq_true (Except.pure_ok.mp h)
                have hstart := astimezone_ok hstart
                have hcurrent := astimezone_ok hcurrent
                have hlast := astimezone_ok hlast
                refine ⟨issued.wall - i, expires.wall - e, now.wall - n,
                  by simp [Timestamp.instant, hi], by simp [Timestamp.instant, he],
                  by simp [Timestamp.instant, hn], ?_, ?_⟩
                · rw [← hstart, ← hcurrent]
                  exact hle
                · rw [← hcurrent, ← hlast]
                  exact hlt
              · rw [if_neg hle] at h
                cases h

/-! ## 2. The checks -/

namespace Authorization

variable {a b : Authorization} {digest : PyStr} {now : Timestamp}

/-- `now` is no later than the staleness bound after the authorization. -/
def Fresh (a : Authorization) (now : Timestamp) : Prop :=
  ∃ i n, a.authorizedAt.instant = some i ∧ now.instant = some n ∧
    n - i ≤ a.maxStalenessSeconds * micro

theorem age_ok {age : Int} (h : a.age now = .ok age) :
    ∃ i n, a.authorizedAt.instant = some i ∧ now.instant = some n ∧ age = n - i := by
  unfold Authorization.age at h
  cases hi : a.authorizedAt.offset with
  | none =>
      rw [hi] at h
      cases h
  | some i =>
      cases hn : now.offset with
      | none =>
          rw [hi, hn] at h
          cases h
      | some n =>
          rw [hi, hn] at h
          obtain ⟨current, hcurrent, h⟩ := Except.bind_ok.mp h
          obtain ⟨start, hstart, h⟩ := Except.bind_ok.mp h
          obtain rfl := Except.pure_ok.mp h
          refine ⟨a.authorizedAt.wall - i, now.wall - n, by simp [Timestamp.instant, hi],
            by simp [Timestamp.instant, hn], ?_⟩
          rw [astimezone_ok hcurrent, astimezone_ok hstart]

/-- What the validity check has established. -/
theorem checkValidity_ok (h : a.checkValidity now = .ok ()) :
    InWindow a.authorizedAt a.expiresAt now ∧ a.Fresh now ∧
      (a.actuatorClass = .securityExternal →
        a.onExpiry = .holdAndEscalate ∨ a.onExpiry = .failClosed) := by
  obtain ⟨current, hcurrent, h⟩ := Except.bind_ok.mp h
  obtain ⟨htrue, h⟩ := Except.seq_ok.mp h
  obtain ⟨age, hage, h⟩ := Except.bind_ok.mp h
  obtain ⟨hfresh, h⟩ := Except.seq_ok.mp h
  have hsafe := guardThat_ok.mp h
  rw [guardThat_ok.mp htrue] at hcurrent
  obtain ⟨i, n, hi, hn, rfl⟩ := age_ok (Except.liftWith_ok.mp hage)
  refine ⟨windowContains_ok (Except.liftWith_ok.mp hcurrent), ⟨i, n, hi, hn, ?_⟩, fun hclass => ?_⟩
  · exact not_lt.mp (not_or.mp (guardThat_ok.mp hfresh)).2
  · by_cases hhold : a.onExpiry = .holdAndEscalate
    · exact .inl hhold
    · refine .inr ?_
      by_contra hclosed
      exact hsafe ⟨hclass, hhold, hclosed⟩

/-- The approval is for this digest, action and target, and current. -/
structure Held (a : Authorization) (digest : PyStr) (now : Timestamp)
    (approval : HumanApproval) : Prop where
  digest : approval.decisionDigest = digest
  action : approval.action = a.action
  target : approval.target = a.target
  window : InWindow approval.approvedAt approval.expiresAt now

theorem isValidFor_ok {approval : HumanApproval} (h : approval.isValidFor digest now = .ok true) :
    approval.decisionDigest = digest ∧ InWindow approval.approvedAt approval.expiresAt now := by
  unfold HumanApproval.isValidFor at h
  by_cases hd : approval.decisionDigest = digest
  · rw [if_pos hd] at h
    exact ⟨hd, windowContains_ok h⟩
  · rw [if_neg hd] at h
    cases h

/-- What is counted is held. -/
theorem validApprovals_ok : ∀ {approvals valid : List HumanApproval},
    a.validApprovals digest now approvals = .ok valid →
    ∀ approval ∈ valid, approval ∈ approvals ∧ a.Held digest now approval
  | [], valid, h, approval, hmem => by
      obtain rfl := Except.pure_ok.mp h
      cases hmem
  | first :: rest, valid, h, approval, hmem => by
      obtain ⟨current, hcurrent, h⟩ := Except.bind_ok.mp h
      obtain ⟨others, hothers, h⟩ := Except.bind_ok.mp h
      have hrest : approval ∈ others → approval ∈ first :: rest ∧ a.Held digest now approval := by
        intro hmem
        obtain ⟨hin, hheld⟩ := validApprovals_ok hothers approval hmem
        exact ⟨List.mem_cons_of_mem _ hin, hheld⟩
      by_cases hv : current = true ∧ first.action = a.action ∧ first.target = a.target
      · rw [if_pos hv] at h
        obtain rfl := Except.pure_ok.mp h
        rcases List.mem_cons.mp hmem with rfl | hmem
        · rw [hv.1] at hcurrent
          obtain ⟨hd, hwindow⟩ := isValidFor_ok hcurrent
          exact ⟨List.mem_cons_self, hd, hv.2.1, hv.2.2, hwindow⟩
        · exact hrest hmem
      · rw [if_neg hv] at h
        obtain rfl := Except.pure_ok.mp h
        exact hrest hmem

/-- Two different identities are two approvals. -/
theorem exists_two {valid : List HumanApproval}
    (h : 2 ≤ (valid.map (·.approverIdentity)).dedup.length) :
    ∃ p ∈ valid, ∃ q ∈ valid, p.approverIdentity ≠ q.approverIdentity := by
  generalize hids : (valid.map (·.approverIdentity)).dedup = ids at h
  have hnodup : ids.Nodup := hids ▸ List.nodup_dedup _
  rcases ids with - | ⟨x, - | ⟨y, rest⟩⟩
  · simp at h
  · simp at h
  · have hmem : ∀ z ∈ x :: y :: rest, ∃ p ∈ valid, p.approverIdentity = z := by
      intro z hz
      rw [← hids, List.mem_dedup] at hz
      exact List.mem_map.mp hz
    obtain ⟨p, hp, rfl⟩ := hmem x List.mem_cons_self
    obtain ⟨q, hq, rfl⟩ := hmem y (List.mem_cons_of_mem _ List.mem_cons_self)
    refine ⟨p, hp, q, hq, fun heq => ?_⟩
    rw [heq] at hnodup
    exact (List.nodup_cons.mp hnodup).1 List.mem_cons_self

variable [Sha256]

/-- What two-person control has established. -/
theorem checkTwoPerson_ok (hd : a.decisionDigest = .ok digest) (h : a.checkTwoPerson now = .ok ()) :
    (∃ p ∈ a.humanApprovals, ∃ q ∈ a.humanApprovals,
      p.approverIdentity ≠ q.approverIdentity ∧ a.Held digest now p ∧ a.Held digest now q) ∧
    InWindow a.authorizedAt a.expiresAt now ∧ a.Fresh now := by
  obtain ⟨hvalidity, hrest⟩ := Except.seq_ok.mp h
  obtain ⟨digest', hdigest', hcounted⟩ := Except.bind_ok.mp hrest
  obtain ⟨valid, hvalid, htwo⟩ := Except.bind_ok.mp hcounted
  have hsame := Except.ok.inj (hd.symm.trans (Except.liftWith_ok.mp hdigest'))
  rw [← hsame] at hvalid
  have hheld := validApprovals_ok (Except.liftWith_ok.mp hvalid)
  obtain ⟨p, hp, q, hq, hne⟩ := exists_two (guardThat_ok.mp htwo)
  obtain ⟨hwindow, hfresh, -⟩ := checkValidity_ok hvalidity
  refine ⟨⟨p, (hheld p hp).1, q, (hheld q hq).1, hne, (hheld p hp).2, (hheld q hq).2⟩,
    hwindow, hfresh⟩

/-! ## 3. One decision -/

theorem decisionDigest_ok (h : a.decisionDigest = .ok digest) :
    digest = pyText (Sha256.digest a.encoded).hex := by
  obtain ⟨-, h⟩ := Except.seq_ok.mp h
  exact (Except.pure_ok.mp h).symm

/-- No approval is for both decisions; and where two-person control passes on the first, two
approvers hold an approval each that is for it, and not for the second, and current in every
window. -/
structure Binds (a b : Authorization) (da db : PyStr) : Prop where
  one : ∀ (approval : HumanApproval) (now : Timestamp),
    ¬ (approval.isValidFor da now = .ok true ∧ approval.isValidFor db now = .ok true)
  two : ∀ now : Timestamp, a.checkTwoPerson now = .ok () →
    (∃ p ∈ a.humanApprovals, ∃ q ∈ a.humanApprovals, p.approverIdentity ≠ q.approverIdentity ∧
      (a.Held da now p ∧ p.decisionDigest ≠ db) ∧ (a.Held da now q ∧ q.decisionDigest ≠ db)) ∧
    InWindow a.authorizedAt a.expiresAt now ∧ a.Fresh now

theorem binds_of_ne {da db : PyStr} (hda : a.decisionDigest = .ok da) (hne : da ≠ db) :
    a.Binds b da db := by
  refine ⟨fun approval now ⟨ha, hb⟩ => ?_, fun now h => ?_⟩
  · exact hne ((isValidFor_ok ha).1.symm.trans (isValidFor_ok hb).1)
  · obtain ⟨⟨p, hp, q, hq, hpq, hheld, hheld'⟩, hwindow, hfresh⟩ := checkTwoPerson_ok hda h
    refine ⟨⟨p, hp, q, hq, hpq, ⟨hheld, fun hd => ?_⟩, hheld', fun hd => ?_⟩, hwindow, hfresh⟩
    · exact hne (hheld.digest.symm.trans hd)
    · exact hne (hheld'.digest.symm.trans hd)

/-- One digest is one payload in UTF-16. -/
theorem sameUtf16_of_digest {da db : PyStr} (hda : a.decisionDigest = .ok da)
    (hdb : b.decisionDigest = .ok db)
    (hsha : Sha256.digest a.encoded = Sha256.digest b.encoded → a.encoded = b.encoded)
    (hsame : da = db) : a.SameUtf16 b := by
  rw [decisionDigest_ok hda, decisionDigest_ok hdb] at hsame
  exact encoded_eq_iff.mp (hsha (hex_injective (pyText_injective hsame)))

/-- Decisions of decoded texts that differ are bound to different approvals. -/
theorem binds_of_noSplit {da db : PyStr} (hda : a.decisionDigest = .ok da)
    (hdb : b.decisionDigest = .ok db)
    (hsha : Sha256.digest a.encoded = Sha256.digest b.encoded → a.encoded = b.encoded)
    (ha : a.NoSplit) (hb : b.NoSplit) (hne : ¬ a.SamePayload b) : a.Binds b da db :=
  binds_of_ne hda fun hsame =>
    hne (samePayload_of_unpaired ha hb (sameUtf16_of_digest hda hdb hsha hsame))

/-- Seconds after the epoch. -/
def epochSecond (n : Fin 60) : Timestamp where
  year := 1970
  month := 1
  day := 1
  hour := 0
  minute := 0
  second := n
  microsecond := 0
  offset := some 0
  yearRange := by decide
  monthRange := by decide
  dayRange := by decide
  hourRange := by decide
  minuteRange := by decide
  secondRange := n.isLt
  microsecondRange := by decide
  offsetRange := by decide

/-- An approval for a digest, in the first second of the epoch. -/
def approvalOf (a : Authorization) (digest : PyStr) : HumanApproval where
  approverIdentity := pyStr "user:1"
  decisionDigest := digest
  action := a.action
  target := a.target
  approvedAt := epochSecond 0
  expiresAt := epochSecond 1

omit [Sha256] in
theorem approvalOf_valid (a : Authorization) (digest : PyStr) :
    (approvalOf a digest).isValidFor digest (epochSecond 0) = .ok true := by
  unfold HumanApproval.isValidFor
  rw [if_pos (show (approvalOf a digest).decisionDigest = digest from rfl)]
  show windowContains (epochSecond 0) (epochSecond 1) (epochSecond 0) = .ok true
  decide

end Authorization

open Authorization

/-- **One decision**: two decisions with digests that SHA-256 does not confuse, when they
differ, are bound to different approvals exactly when they also differ in UTF-16. -/
theorem approvals_bind_iff [Sha256] {a b : Authorization} {da db : PyStr}
    (hda : a.decisionDigest = .ok da) (hdb : b.decisionDigest = .ok db)
    (hsha : Sha256.digest a.encoded = Sha256.digest b.encoded → a.encoded = b.encoded) :
    (¬ a.SamePayload b → a.Binds b da db) ↔ (a.SameUtf16 b → a.SamePayload b) := by
  constructor
  · intro hbinds hutf
    by_contra hne
    have hsame : da = db := by
      rw [decisionDigest_ok hda, decisionDigest_ok hdb, encoded_eq_iff.mpr hutf]
    refine (hbinds hne).one (approvalOf a da) (Authorization.epochSecond 0) ⟨approvalOf_valid a da, ?_⟩
    rw [← hsame]
    exact approvalOf_valid a da
  · intro hutf hne
    exact binds_of_ne hda fun hsame => hne (hutf (sameUtf16_of_digest hda hdb hsha hsame))

namespace Fixture

/-- The decision of the tests. -/
def isolation (decisionId action : PyStr) : Authorization where
  decisionId := decisionId
  action := action
  actuatorClass := .securityExternal
  target := ⟨pyStr "payments", pyStr "pod-abc", none, none, none, none⟩
  parameters := []
  evidenceSnapshot := pyStr "e1"
  coverageSnapshot := pyStr "c1"
  codeModelSnapshot := none
  policyVersion := pyStr "1"
  authorizedAt := Authorization.epochSecond 0
  expiresAt := Authorization.epochSecond 59
  maxStalenessSeconds := 60
  onExpiry := .holdAndEscalate
  humanApprovals := []

def digestOf (a : Authorization) : PyStr := pyText (Sha256.digest a.encoded).hex

theorem digestOf_ok {a : Authorization} (h : (PyValue.dict a.payload).printable = true) :
    a.decisionDigest = .ok (digestOf a) := by
  unfold decisionDigest
  rw [guardThat_pass h]
  rfl

def draft : Authorization := isolation (pyStr "d1") (pyStr "isolate_replica")

/-- Approved by two. -/
def replica : Authorization :=
  { draft with humanApprovals := [
      approvalOf draft (digestOf draft),
      { approvalOf draft (digestOf draft) with approverIdentity := pyStr "user:2" }] }

def service : Authorization := isolation (pyStr "d1") (pyStr "isolate_service")

/-- One character, as a code point and as the two surrogates of its pair. -/
def joined : Authorization := isolation [0x1f600] (pyStr "isolate_replica")

def split : Authorization := isolation [0xd83d, 0xde00] (pyStr "isolate_replica")

end Fixture

open Fixture

theorem approvals_bind_replica : replica.checkTwoPerson (epochSecond 0) = .ok () ∧
    replica.Binds service (digestOf replica) (digestOf service) := by
  have hne : Sha256.digest replica.encoded ≠ Sha256.digest service.encoded := by decide +kernel
  refine ⟨by decide +kernel, ?_⟩
  refine (approvals_bind_iff (digestOf_ok (by decide)) (digestOf_ok (by decide))
    (fun h => absurd h hne)).mpr (fun hutf => ?_) (fun hsame => ?_)
  · have haction : utf16 replica.action ≠ utf16 service.action := by decide
    exact absurd hutf.action haction
  · have haction : replica.action ≠ service.action := by decide
    exact absurd hsame.action haction

/-- The two decisions differ, and one approval is for both. -/
theorem approval_for_two : ∃ (a b : Authorization) (da db : PyStr) (approval : HumanApproval)
    (now : Timestamp), a.decisionDigest = .ok da ∧ b.decisionDigest = .ok db ∧
    (Sha256.digest a.encoded = Sha256.digest b.encoded → a.encoded = b.encoded) ∧
    ¬ a.SamePayload b ∧ approval.isValidFor da now = .ok true ∧
    approval.isValidFor db now = .ok true := by
  have hutf : joined.SameUtf16 split :=
    ⟨by decide, rfl, rfl, ⟨rfl, rfl, rfl, rfl, rfl, rfl⟩, rfl, rfl, rfl, rfl, rfl, rfl, rfl, rfl,
      rfl⟩
  have hencoded := encoded_eq_iff.mpr hutf
  have hdigest : digestOf split = digestOf joined := by
    unfold digestOf
    rw [hencoded]
  refine ⟨joined, split, digestOf joined, digestOf split, approvalOf joined (digestOf joined),
    Authorization.epochSecond 0, digestOf_ok (by decide), digestOf_ok (by decide), fun _ => hencoded,
    fun hsame => ?_, approvalOf_valid _ _, ?_⟩
  · have hid : joined.decisionId ≠ split.decisionId := by decide
    exact absurd hsame.decisionId hid
  · rw [hdigest]
    exact approvalOf_valid _ _

end NokincFactory
