/-
  File:      NokincFactory/Workflow/Outbox.lean
  Subject:   The outbox under any interleaving of its callers.

  * `OutboxCall`: a call of a method, and the program that it runs;
  * `OutboxCall.legal`: the only change of a row that a call may commit;
  * `OutboxCall.follows`: it makes no other, and what it returns says what it made;
  * `outbox_sound`: what holds at every place of every run.
-/
import Mathlib.Order.CompletePartialOrder
import NokincFactory.Workflow.BoxRules

namespace NokincFactory

open WorkflowBoxes

/-! ## 1. Calls -/

inductive OutboxCall where
  | enqueue (tenantId workItemId eventId topic : Identifier) (payloadDigest : Digest)
      (now : Datetime)
  | claim (tenantId workerId : String) (now : Datetime) (leaseSeconds : ℤ)
  | ack (tenantId eventId workerId : String)

inductive OutboxResult where
  | entry (entry : OutboxEntry)
  | claimed (entry : Option OutboxEntry)
  | acked (accepted : Bool)
deriving DecidableEq

section Calls

variable [Sha256]

namespace OutboxCall

def program : OutboxCall → BoxProg OutboxRow OutboxResult
  | .enqueue tenantId workItemId eventId topic payloadDigest now => do
      let entry ← enqueueOutbox tenantId workItemId eventId topic payloadDigest now
      pure (.entry entry)
  | .claim tenantId workerId now leaseSeconds => do
      let entry ← claimOutbox tenantId workerId now leaseSeconds
      pure (.claimed entry)
  | .ack tenantId eventId workerId => do
      let accepted ← ackOutbox tenantId eventId workerId
      pure (.acked accepted)

/-- What a call makes of a row: an entry where there was none, a claim of a row that may be
claimed, or an acknowledgement of a row that its worker holds. -/
def legal : OutboxCall → Option OutboxRow → OutboxRow → Prop
  | .enqueue tenantId workItemId eventId topic payloadDigest now, before, after =>
      before = none ∧ ∃ current, utc now = .ok current ∧
        after = newOutboxRow tenantId workItemId eventId topic payloadDigest current
  | .claim tenantId workerId now leaseSeconds, before, after =>
      ∃ row ∈ before, ∃ current expiry, utc now = .ok current ∧ 0 < leaseSeconds ∧
        later current leaseSeconds = .ok expiry ∧ claimable tenantId current row = true ∧
        after = claimedRow row.attempts workerId expiry current row
  | .ack tenantId eventId workerId, before, after =>
      ∃ row ∈ before, KeyedRow.key row = (tenantId, eventId) ∧ heldBy workerId row = true ∧
        after = ackedRow row

/-- A row that is read as an entry. -/
def Readable (row : OutboxRow) : Prop := ∃ entry, readOutbox row = .ok entry

/-- What a call returned, by what it wrote and selected. -/
def returned : OutboxCall → OutboxResult → Option OutboxRow → Option (BoxKey × OutboxRow) → Prop
  | .enqueue tenantId workItemId eventId topic payloadDigest _, .entry entry, _, selected =>
      ∃ row, selected = some ((tenantId.text, eventId.text), row) ∧ readOutbox row = .ok entry ∧
        entry.workItemId = workItemId ∧ entry.topic = topic ∧ entry.payloadDigest = payloadDigest
  | .claim .., .claimed none, written, _ => written = none
  | .claim .., .claimed (some entry), written, _ =>
      ∃ row, written = some row ∧ readOutbox row = .ok entry
  | .ack .., .acked accepted, written, _ => accepted = written.isSome
  | _, _, _, _ => False

/-! ## 2. What a call does -/

omit [Sha256] in
theorem validOptional_ok {text : Option String} {valid : Option Identifier} :
    validOptional text = .ok valid ↔ valid.map (·.text) = text := by
  unfold validOptional validIdentifier
  cases text with
  | none =>
      rw [Except.pure_ok]
      cases valid with
      | none => simp
      | some valid => simp
  | some text =>
      dsimp only
      by_cases h : identifierPattern text.toList = true
      · rw [dif_pos h, Except.ok_bind, Except.pure_ok]
        cases valid with
        | none => simp
        | some valid =>
            constructor
            · intro hsame
              cases hsame
              rfl
            · intro hsame
              cases valid
              cases hsame
              rfl
      · rw [dif_neg h]
        constructor
        · intro hfalse
          cases hfalse
        · intro hsame
          obtain ⟨valid, -, rfl⟩ := Option.map_eq_some_iff.mp hsame
          exact absurd valid.pattern h

/-- What is read of a row, where its worker is an identifier and its digest that of its
identity. -/
theorem readOutbox_ok {row : OutboxRow} {entry : OutboxEntry} : readOutbox row = .ok entry ↔
    ∃ worker, worker.map (·.text) = row.workerId ∧
      outboxIdentity row.eventId row.tenantId row.workItemId row.topic row.payloadDigest =
        row.contentDigest ∧
      entry = ⟨row.eventId, row.tenantId, row.workItemId, row.topic, row.payloadDigest, row.status,
        row.attempts, worker, row.leaseExpiresAt, row.createdAt, row.updatedAt⟩ := by
  unfold readOutbox
  rw [Except.bind_ok]
  constructor
  · intro ⟨worker, hworker, h⟩
    obtain ⟨hidentity, h⟩ := Except.seq_ok.mp h
    exact ⟨worker, validOptional_ok.mp hworker, guardThat_ok.mp hidentity,
      (Except.pure_ok.mp h).symm⟩
  · intro ⟨worker, hworker, hidentity, hentry⟩
    exact ⟨worker, validOptional_ok.mpr hworker,
      Except.seq_ok.mpr ⟨guardThat_ok.mpr hidentity, Except.pure_ok.mpr hentry.symm⟩⟩

theorem readable_newOutboxRow (tenantId workItemId eventId topic : Identifier)
    (payloadDigest : Digest) (current : Moment) :
    Readable (newOutboxRow tenantId workItemId eventId topic payloadDigest current) :=
  ⟨_, readOutbox_ok.mpr ⟨none, rfl, rfl, rfl⟩⟩

theorem readable_ackedRow {row : OutboxRow} (h : Readable row) : Readable (ackedRow row) := by
  obtain ⟨entry, hentry⟩ := h
  obtain ⟨worker, hworker, hidentity, -⟩ := readOutbox_ok.mp hentry
  exact ⟨_, readOutbox_ok.mpr ⟨worker, hworker, hidentity, rfl⟩⟩

/-- The protocol of a call. -/
abbrev protocol (call : OutboxCall) : Protocol (RowAsk BoxLook BoxKey OutboxRow)
    (RowAsk.Answer Failure) (RowStage BoxKey OutboxRow) :=
  rowProtocol call.legal Readable

/-- What a call that ended has done. -/
abbrev ends (call : OutboxCall) : Except Failure OutboxResult → RowStage BoxKey OutboxRow → Prop :=
  Returns call.returned

theorem follows_enqueue (tenantId workItemId eventId topic : Identifier) (payloadDigest : Digest)
    (now : Datetime) :
    let call := OutboxCall.enqueue tenantId workItemId eventId topic payloadDigest now
    call.protocol.Follows .first (enqueueOutbox tenantId workItemId eventId topic payloadDigest now)
      (Returns fun entry => call.returned (.entry entry)) := by
  intro call
  unfold enqueueOutbox
  refine Protocol.follows_bind.mpr (Protocol.follows_ofExcept.mpr ?_)
  cases hutc : utc now with
  | error e =>
      cases e with
      | message text => exact fun value hr => (nomatch hr)
      | violation reason => exact fun value hr => (nomatch hr)
  | ok current =>
      have hlegal : call.legal none
          (newOutboxRow tenantId workItemId eventId topic payloadDigest current) :=
        ⟨rfl, current, hutc, rfl⟩
      have hfine : KeepsFine call.legal Readable
          (newOutboxRow tenantId workItemId eventId topic payloadDigest current) :=
        fun _ _ _ => readable_newOutboxRow _ _ _ _ _ _
      refine follows_transaction ?_
      refine Protocol.follows_bind.mpr (follows_execute.mpr ⟨fun _ => trivial, fun a => ?_⟩)
      cases a with
      | error e => exact .raised rfl
      | ok there =>
          refine Protocol.follows_bind.mpr
            (Protocol.follows_insist.mpr ⟨fun _ => ?_, fun _ => .raised rfl⟩)
          refine Protocol.follows_bind.mpr
            (follows_execute.mpr ⟨fun _ => ⟨rfl, hlegal⟩, fun a => ?_⟩)
          cases a with
          | error e => exact .raised rfl
          | ok written =>
              refine (follows_reread rfl fun v hv => ?_).weaken fun r st h => h
              obtain ⟨_, -, rfl⟩ := Option.map_eq_some_iff.mp hv
              exact hfine

theorem follows_claim (tenantId workerId : String) (now : Datetime) (leaseSeconds : ℤ) :
    let call := OutboxCall.claim tenantId workerId now leaseSeconds
    call.protocol.Follows .first (claimOutbox tenantId workerId now leaseSeconds)
      (Returns fun entry => call.returned (.claimed entry)) := by
  intro call
  unfold claimOutbox
  refine Protocol.follows_bind.mpr (Protocol.follows_ofExcept.mpr ?_)
  cases hutc : utc now with
  | error e =>
      cases e with
      | message text => exact fun value hr => by cases hr
      | violation reason => exact fun value hr => by cases hr
  | ok current =>
      refine Protocol.follows_bind.mpr (Protocol.follows_insist.mpr
        ⟨fun hpositive => ?_, fun _ => fun value hr => by cases hr⟩)
      refine Protocol.follows_bind.mpr (Protocol.follows_ofExcept.mpr ?_)
      cases hexpiry : later current leaseSeconds with
      | error e => exact fun value hr => by cases hr
      | ok expiry =>
          refine follows_transaction ?_
          refine Protocol.follows_bind.mpr (follows_execute.mpr ⟨fun _ => ⟨rfl, rfl⟩, fun a => ?_⟩)
          cases a with
          | error e => exact .raised rfl
          | ok rows =>
              let known := True ∧ ∀ v ∈ rows, claimable tenantId current v = true
              change call.protocol.Follows ⟨.within, rows.head?, none, none, known⟩ _ _
              cases hhead : rows.head? with
              | none =>
                  refine ⟨rfl, fun value hr _ => ?_⟩
                  cases hr
                  exact ⟨fun v hv => absurd hv (Option.not_mem_none v), rfl⟩
              | some row =>
                  have hmem : row ∈ rows := List.mem_of_head? hhead
                  let k : BoxKey := (tenantId, row.eventId.text)
                  let f := claimedRow row.attempts workerId expiry current
                  have hkey : known → KeyedRow.key row = k := by
                    intro hknown
                    have hclaimable := of_decide_eq_true (hknown.2 row hmem)
                    exact Prod.ext hclaimable.1 rfl
                  have hlegal : known → call.legal (some row) (f row) := fun hknown =>
                    ⟨row, rfl, current, expiry, hutc, hpositive, hexpiry, hknown.2 row hmem, rfl⟩
                  refine Protocol.follows_bind.mpr
                    (follows_execute.mpr ⟨fun hknown => ⟨rfl, fun v hv hvk _ => ?_⟩, fun a => ?_⟩)
                  · obtain rfl := hv row rfl ((hkey hknown).trans hvk.symm)
                    exact ⟨hvk, hlegal hknown⟩
                  · cases a with
                    | error e => exact .raised rfl
                    | ok written =>
                        refine Protocol.follows_bind.mpr (Protocol.follows_ofExcept.mpr ?_)
                        cases hread : readOutbox (f row) with
                        | error e => exact .raised rfl
                        | ok entry =>
                            refine ⟨rfl, fun value hr hknown => ?_⟩
                            cases hr
                            obtain rfl : written = some (f row) :=
                              hknown.2 row rfl (hkey hknown.1) rfl
                            refine ⟨fun v hv => ?_, f row, rfl, hread⟩
                            cases hv
                            exact fun _ _ _ => ⟨entry, hread⟩

theorem follows_ack (tenantId eventId workerId : String) :
    let call := OutboxCall.ack tenantId eventId workerId
    call.protocol.Follows .first (ackOutbox tenantId eventId workerId)
      (Returns fun accepted => call.returned (.acked accepted)) := by
  intro call
  refine follows_transaction ?_
  refine Protocol.follows_bind.mpr
    (follows_execute.mpr ⟨fun _ => ⟨rfl, fun v _ hvk hheld => ⟨hvk, v, rfl, hvk, hheld, rfl⟩⟩,
      fun a => ?_⟩)
  cases a with
  | error e => exact .raised rfl
  | ok written =>
      refine ⟨rfl, fun value hr _ => ?_⟩
      cases hr
      refine ⟨fun v hv before hlegal hfine => ?_, rfl⟩
      obtain ⟨row, hrow, -, -, rfl⟩ := hlegal
      exact readable_ackedRow (hfine row hrow)

/-- A call makes no change but its own, and what it returns says what it made. -/
theorem follows (call : OutboxCall) : call.protocol.Follows .first call.program call.ends := by
  cases call with
  | enqueue tenantId workItemId eventId topic payloadDigest now =>
      refine (follows_enqueue tenantId workItemId eventId topic payloadDigest now).seq ?_ ?_
      · exact fun e st _ => fun value hr => (nomatch hr)
      · intro entry st h value hr hknown
        cases hr
        exact h entry rfl hknown
  | claim tenantId workerId now leaseSeconds =>
      refine (follows_claim tenantId workerId now leaseSeconds).seq ?_ ?_
      · exact fun e st _ => fun value hr => (nomatch hr)
      · intro entry st h value hr hknown
        cases hr
        exact h entry rfl hknown
  | ack tenantId eventId workerId =>
      refine (follows_ack tenantId eventId workerId).seq ?_ ?_
      · exact fun e st _ => fun value hr => (nomatch hr)
      · intro accepted st h value hr hknown
        cases hr
        exact h accepted rfl hknown

end OutboxCall

/-! ## 3. The versions of an entry -/

section History

variable {ι : Type} {calls : ι → OutboxCall} {l pre post : List (ι × OutboxRow)}
  {i : ι} {row : OutboxRow}

omit [Sha256] in
def OutboxCall.isClaim : OutboxCall → Bool
  | .claim .. => true
  | _ => false

/-- The versions of an entry that claims have written. -/
def claims (calls : ι → OutboxCall) (l : List (ι × OutboxRow)) : List (ι × OutboxRow) :=
  l.filter fun e => (calls e.1).isClaim

/-- The changes that calls make. -/
abbrev legalOf (calls : ι → OutboxCall) (i : ι) : Option OutboxRow → OutboxRow → Prop :=
  (calls i).legal

/-- An entry that is acknowledged stays as it is. -/
theorem acked_last (h : Chained (legalOf calls) (pre ++ (i, row) :: post))
    (hacked : row.status = .acked) : post = [] := by
  cases post with
  | nil => rfl
  | cons e post =>
      obtain ⟨j, row'⟩ := e
      rw [← List.singleton_append, ← List.append_assoc] at h
      have hlegal := h.change
      rw [latestOf_snoc] at hlegal
      change (calls j).legal (some row) row' at hlegal
      cases hcall : calls j with
      | enqueue tenantId workItemId eventId topic payloadDigest now =>
          rw [hcall] at hlegal
          cases hlegal.1
      | claim tenantId workerId now leaseSeconds =>
          rw [hcall] at hlegal
          obtain ⟨_, hrow, current, expiry, -, -, -, hclaimable, -⟩ := hlegal
          cases hrow
          simp [claimable, hacked] at hclaimable
      | ack tenantId eventId workerId =>
          rw [hcall] at hlegal
          obtain ⟨_, hrow, -, hheld, -⟩ := hlegal
          cases hrow
          simp [heldBy, hacked] at hheld

/-- The attempts of an entry are its claims. -/
theorem attempts_claims (h : Chained (legalOf calls) l) :
    ∀ row ∈ latestOf l, row.attempts = (claims calls l).length := by
  induction h with
  | nil => exact fun row hrow => (nomatch hrow)
  | @snoc l i after hl hlegal ih =>
      intro row hrow
      rw [latestOf_snoc] at hrow
      cases hrow
      change (calls i).legal (latestOf l) after at hlegal
      unfold claims
      rw [List.filter_append, List.length_append]
      cases hcall : calls i with
      | enqueue tenantId workItemId eventId topic payloadDigest now =>
          rw [hcall] at hlegal
          obtain ⟨hnone, current, -, rfl⟩ := hlegal
          rw [latestOf_eq_none.mp hnone]
          simp [OutboxCall.isClaim, hcall, newOutboxRow]
      | claim tenantId workerId now leaseSeconds =>
          rw [hcall] at hlegal
          obtain ⟨before, hbefore, current, expiry, -, -, -, -, rfl⟩ := hlegal
          have hcount := ih before hbefore
          unfold claims at hcount
          simp [OutboxCall.isClaim, hcall, claimedRow, hcount]
      | ack tenantId eventId workerId =>
          rw [hcall] at hlegal
          obtain ⟨before, hbefore, -, -, rfl⟩ := hlegal
          have hcount := ih before hbefore
          unfold claims at hcount
          simp [OutboxCall.isClaim, hcall, ackedRow, hcount]

omit [Sha256] in
/-- The time for which an entry is leased. -/
def OutboxRow.lease (row : OutboxRow) : Set Moment :=
  {m | row.updatedAt ≤ m ∧ ∃ expiry ∈ row.leaseExpiresAt, m < expiry}

omit [Sha256] in
theorem lt_later {moment expiry : Moment} {seconds : ℤ} (h : later moment seconds = .ok expiry)
    (hpositive : 0 < seconds) : moment < expiry := by
  unfold later at h
  split at h
  · cases h
    show moment.micros < moment.micros + seconds * micro
    have hmicro : (0 : ℤ) < seconds * micro := Int.mul_pos hpositive (by decide)
    omega
  · cases h

/-- What the leases of an entry are: each ends before the next one starts, the last one is that
of the row while it is claimed, and a row that waits has none. -/
structure Leased (calls : ι → OutboxCall) (l : List (ι × OutboxRow)) : Prop where
  apart : (claims calls l).Pairwise fun e e' => ∀ expiry ∈ e.2.leaseExpiresAt,
    expiry ≤ e'.2.updatedAt
  bounded : ∀ row ∈ latestOf l, row.status = .claimed → ∀ e ∈ claims calls l,
    ∀ expiry ∈ e.2.leaseExpiresAt, ∃ last ∈ row.leaseExpiresAt, expiry ≤ last
  waiting : ∀ row ∈ latestOf l, row.status = .pending → claims calls l = []

theorem leased (h : Chained (legalOf calls) l) : Leased calls l := by
  induction h with
  | nil => exact ⟨.nil, fun row hrow => (nomatch hrow), fun row hrow => (nomatch hrow)⟩
  | @snoc l i after hl hlegal ih =>
      change (calls i).legal (latestOf l) after at hlegal
      have hclaims : claims calls (l ++ [(i, after)]) =
          claims calls l ++ if (calls i).isClaim = true then [(i, after)] else [] := by
        unfold claims
        rw [List.filter_append, List.filter_singleton]
        cases (calls i).isClaim <;> rfl
      cases hcall : calls i with
      | enqueue tenantId workItemId eventId topic payloadDigest now =>
          rw [hcall] at hlegal hclaims
          obtain ⟨hnone, current, -, rfl⟩ := hlegal
          cases latestOf_eq_none.mp hnone
          have hempty : claims calls ([] ++ [(i, newOutboxRow tenantId workItemId eventId topic
              payloadDigest current)]) = [] := hclaims
          refine ⟨?_, fun row hrow hstatus => ?_, fun _ _ _ => hempty⟩
          · rw [hempty]
            exact .nil
          · rw [latestOf_snoc] at hrow
            cases hrow
            cases hstatus
      | claim tenantId workerId now leaseSeconds =>
          rw [hcall] at hlegal hclaims
          obtain ⟨before, hbefore, current, expiry, -, hpositive, hexpiry, hclaimable, rfl⟩ :=
            hlegal
          have hlt := lt_later hexpiry hpositive
          -- every earlier lease has ended by now
          have hended : ∀ e ∈ claims calls l, ∀ m ∈ e.2.leaseExpiresAt, m ≤ current := by
            intro e he m hm
            obtain ⟨-, hpending | ⟨hclaimed, last, hlast, hle⟩⟩ := of_decide_eq_true hclaimable
            · rw [ih.waiting before hbefore hpending] at he
              cases he
            · obtain ⟨last', hlast', hm'⟩ := ih.bounded before hbefore hclaimed e he m hm
              rw [hlast] at hlast'
              cases hlast'
              exact hm'.trans hle
          rw [show (OutboxCall.claim tenantId workerId now leaseSeconds).isClaim = true from rfl,
            if_pos rfl] at hclaims
          refine ⟨?_, fun row hrow _ e he m hm => ?_, fun row hrow hstatus => ?_⟩
          · rw [hclaims]
            refine List.pairwise_append.mpr ⟨ih.apart, List.pairwise_singleton _ _,
              fun e he e' he' m hm => ?_⟩
            rw [List.mem_singleton.mp he']
            exact hended e he m hm
          · rw [latestOf_snoc] at hrow
            cases hrow
            refine ⟨expiry, rfl, ?_⟩
            rw [hclaims] at he
            rcases List.mem_append.mp he with he | he
            · exact (hended e he m hm).trans hlt.le
            · rw [List.mem_singleton.mp he] at hm
              cases hm
              exact le_refl _
          · rw [latestOf_snoc] at hrow
            cases hrow
            cases hstatus
      | ack tenantId eventId workerId =>
          rw [hcall] at hlegal hclaims
          obtain ⟨before, hbefore, -, -, rfl⟩ := hlegal
          have hsame : claims calls (l ++ [(i, ackedRow before)]) = claims calls l :=
            hclaims.trans (List.append_nil _)
          refine ⟨?_, fun row hrow hstatus => ?_, fun row hrow hstatus => ?_⟩
          · rw [hsame]
            exact ih.apart
          · rw [latestOf_snoc] at hrow
            cases hrow
            cases hstatus
          · rw [latestOf_snoc] at hrow
            cases hrow
            cases hstatus

/-- The leases of an entry do not overlap. -/
theorem leases_disjoint (h : Chained (legalOf calls) l) :
    (claims calls l).Pairwise fun e e' => Disjoint e.2.lease e'.2.lease := by
  refine (leased h).apart.imp fun {e e'} hapart => ?_
  refine Set.disjoint_left.mpr fun m hm hm' => ?_
  obtain ⟨-, expiry, hexpiry, hlt⟩ := hm
  exact absurd (lt_of_lt_of_le hlt ((hapart expiry hexpiry).trans hm'.1)) (lt_irrefl m)

/-- A claimed row was written by the claim of its worker. -/
theorem claimed_by (h : Chained (legalOf calls) (pre ++ [(i, row)]))
    (hclaimed : row.status = .claimed) :
    ∃ tenantId workerId now leaseSeconds, calls i = .claim tenantId workerId now leaseSeconds ∧
      row.tenantId.text = tenantId ∧ row.workerId = some workerId := by
  have hlegal := h.change
  change (calls i).legal (latestOf pre) row at hlegal
  cases hcall : calls i with
  | enqueue tenantId workItemId eventId topic payloadDigest now =>
      rw [hcall] at hlegal
      obtain ⟨-, current, -, rfl⟩ := hlegal
      cases hclaimed
  | claim tenantId workerId now leaseSeconds =>
      rw [hcall] at hlegal
      obtain ⟨before, -, current, expiry, -, -, -, hclaimable, rfl⟩ := hlegal
      exact ⟨tenantId, workerId, now, leaseSeconds, rfl, (of_decide_eq_true hclaimable).1, rfl⟩
  | ack tenantId eventId workerId =>
      rw [hcall] at hlegal
      obtain ⟨before, -, -, -, rfl⟩ := hlegal
      cases hclaimed

/-- An entry is what it was enqueued as. -/
theorem same_identity (h : Chained (legalOf calls) l) : ∀ e ∈ l, ∀ row ∈ latestOf l,
    e.2.workItemId = row.workItemId ∧ e.2.topic = row.topic ∧
      e.2.payloadDigest = row.payloadDigest := by
  induction h with
  | nil => exact fun e he => (nomatch he)
  | @snoc l i after hl hlegal ih =>
      intro e he row hrow
      rw [latestOf_snoc] at hrow
      cases hrow
      rcases List.mem_append.mp he with hold | hnew
      · change (calls i).legal (latestOf l) after at hlegal
        cases hcall : calls i with
        | enqueue tenantId workItemId eventId topic payloadDigest now =>
            rw [hcall] at hlegal
            rw [latestOf_eq_none.mp hlegal.1] at hold
            cases hold
        | claim tenantId workerId now leaseSeconds =>
            rw [hcall] at hlegal
            obtain ⟨before, hbefore, current, expiry, -, -, -, -, rfl⟩ := hlegal
            exact ih e hold before hbefore
        | ack tenantId eventId workerId =>
            rw [hcall] at hlegal
            obtain ⟨before, hbefore, -, -, rfl⟩ := hlegal
            exact ih e hold before hbefore
      · rw [List.mem_singleton.mp hnew]
        exact ⟨rfl, rfl, rfl⟩

end History

end Calls

end NokincFactory
