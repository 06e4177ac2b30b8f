/-
  File:      NokincFactory/Workflow/OutboxLeases.lean
  Subject:   What the outbox promises its workers, along every run of their calls.

  A lease is judged by the time that its call was given: the clocks of the callers need not agree.

  * `outboxRuns`: the runs of any calls, statement by statement;
  * `OutboxLeases`: leases, attempts, acknowledgements, and what an event that is enqueued again
    gets (`outbox_leases`).
-/
import NokincFactory.Workflow.Outbox

namespace NokincFactory

open WorkflowBoxes

section Runs

variable {ι : Type} [DecidableEq ι] [Sha256]

/-- The outbox, and where each call is. -/
abbrev OutboxState (ι : Type) : Type :=
  RowTable ι BoxKey OutboxRow × (ι → BoxProg OutboxRow OutboxResult)

/-- The runs of calls, of which any may be under way at a time. -/
def outboxRuns (calls : ι → OutboxCall) :
    Labelled (Deed ι (RowAsk BoxLook BoxKey OutboxRow) (RowAsk.Answer Failure)) (OutboxState ι) :=
  (rowSurroundings ι BoxLook BoxKey OutboxRow Failure).crew fun i => (calls i).program

variable {calls : ι → OutboxCall}
  {run : List (Deed ι (RowAsk BoxLook BoxKey OutboxRow) (RowAsk.Answer Failure))}
  {s : OutboxState ι}

/-- What holds at every place of every run. -/
theorem outbox_sound (h : (outboxRuns calls).Trace run s) :
    ∃ stage, RowsSound (legalOf calls) OutboxCall.Readable s.1 stage ∧ Selected run stage ∧
      ∀ i value, s.2 i = .ret value → (stage i).phase = .over ∧
        (calls i).returned value (stage i).written (stage i).selected := by
  obtain ⟨stage, ⟨hsound, hselected⟩, hfollows⟩ := rows_sound (fun i => (calls i).follows) h
  refine ⟨stage, hsound, hselected, fun i value hi => ?_⟩
  have hend := hfollows i
  rw [hi] at hend
  exact hend value rfl (hsound.fits i).known

variable {stage : ι → RowStage BoxKey OutboxRow} {w : RowTable ι BoxKey OutboxRow} {i : ι}

omit [DecidableEq ι] in
/-- A call that claimed returns the row that it wrote. -/
theorem claim_returned (h : RowsSound (legalOf calls) OutboxCall.Readable w stage)
    {tenantId workerId : String} {now : Datetime} {leaseSeconds : ℤ} {entry : OutboxEntry}
    (hcall : calls i = .claim tenantId workerId now leaseSeconds) (hover : (stage i).phase = .over)
    (hreturned : (calls i).returned (.claimed (some entry)) (stage i).written (stage i).selected) :
    ∃ row, (i, row) ∈ w.versions (tenantId, entry.eventId.text) ∧ readOutbox row = .ok entry := by
  rw [hcall] at hreturned
  obtain ⟨row, hwritten, hread⟩ := hreturned
  have hmem := (h.fits i).committed hover row hwritten
  obtain ⟨-, pre, post, -, hlegal⟩ := h.version_change hmem
  change (calls i).legal _ _ at hlegal
  rw [hcall] at hlegal
  obtain ⟨before, -, current, expiry, -, -, -, hclaimable, hrow⟩ := hlegal
  obtain ⟨worker, -, -, hentry⟩ := OutboxCall.readOutbox_ok.mp hread
  have hkey : KeyedRow.key row = (tenantId, entry.eventId.text) := by
    rw [hentry, hrow]
    exact Prod.ext (of_decide_eq_true hclaimable).1 rfl
  rw [hkey] at hmem
  exact ⟨row, hmem, hread⟩

omit [DecidableEq ι] in
/-- An acknowledgement that was accepted is the last version, right after the claim of its
worker. -/
theorem ack_returned (h : RowsSound (legalOf calls) OutboxCall.Readable w stage)
    {tenantId eventId workerId : String} (hcall : calls i = .ack tenantId eventId workerId)
    {row : OutboxRow} {k : BoxKey} (hmem : (i, row) ∈ w.versions k) :
    k = (tenantId, eventId) ∧ ∃ pre j claimed now leaseSeconds,
      w.versions k = pre ++ [(j, claimed), (i, row)] ∧
        calls j = .claim tenantId workerId now leaseSeconds := by
  obtain ⟨hkey, pre, post, hsplit, hlegal⟩ := h.version_change hmem
  have hchained := h.chained k
  rw [hsplit] at hchained
  change (calls i).legal _ _ at hlegal
  rw [hcall] at hlegal
  obtain ⟨before, hbefore, hkey', hheld, rfl⟩ := hlegal
  obtain rfl := acked_last hchained rfl
  obtain ⟨⟨j, before'⟩, hlast, rfl⟩ := Option.map_eq_some_iff.mp hbefore
  obtain ⟨pre', rfl⟩ : ∃ pre', pre = pre' ++ [(j, before')] :=
    ⟨pre.dropLast, (List.dropLast_append_getLast? _ hlast).symm⟩
  obtain ⟨hclaimed, hworker⟩ := of_decide_eq_true hheld
  obtain ⟨tenantId', workerId', now, leaseSeconds, hclaim, htenant', hworker'⟩ :=
    claimed_by hchained.before hclaimed
  rw [hworker] at hworker'
  cases hworker'
  rw [show tenantId' = tenantId from htenant'.symm.trans (congrArg Prod.fst hkey')] at hclaim
  refine ⟨hkey.symm.trans hkey', pre', j, before', now, leaseSeconds, ?_, hclaim⟩
  rw [hsplit, List.append_assoc]
  rfl

omit [DecidableEq ι] in
/-- A call that enqueues writes the first version of its own entry, or none. -/
theorem enqueued_first (h : RowsSound (legalOf calls) OutboxCall.Readable w stage)
    {tenantId workItemId eventId topic : Identifier} {payloadDigest : Digest} {now : Datetime}
    (hcall : calls i = .enqueue tenantId workItemId eventId topic payloadDigest now)
    {row : OutboxRow} {k : BoxKey} (hmem : (i, row) ∈ w.versions k) :
    k = (tenantId.text, eventId.text) ∧ row.workItemId = workItemId ∧ row.topic = topic ∧
      row.payloadDigest = payloadDigest ∧ ∃ post, w.versions k = (i, row) :: post := by
  obtain ⟨hkey, pre, post, hsplit, hlegal⟩ := h.version_change hmem
  change (calls i).legal _ _ at hlegal
  rw [hcall] at hlegal
  obtain ⟨hnone, current, -, rfl⟩ := hlegal
  rw [latestOf_eq_none.mp hnone] at hsplit
  exact ⟨hkey.symm, rfl, rfl, rfl, post, hsplit⟩

omit [DecidableEq ι] in
/-- All versions of an entry are of one event. -/
theorem versions_same (h : RowsSound (legalOf calls) OutboxCall.Readable w stage) {k : BoxKey}
    {e e' : ι × OutboxRow} (he : e ∈ w.versions k) (he' : e' ∈ w.versions k) :
    e.2.workItemId = e'.2.workItemId ∧ e.2.topic = e'.2.topic ∧
      e.2.payloadDigest = e'.2.payloadDigest := by
  obtain ⟨row, hrow⟩ : ∃ row, latestOf (w.versions k) = some row := by
    cases hlatest : latestOf (w.versions k) with
    | none =>
        rw [latestOf_eq_none.mp hlatest] at he
        cases he
    | some row => exact ⟨row, rfl⟩
  obtain ⟨hitem, htopic, hpayload⟩ := same_identity (h.chained k) e he row hrow
  obtain ⟨hitem', htopic', hpayload'⟩ := same_identity (h.chained k) e' he' row hrow
  exact ⟨hitem.trans hitem'.symm, htopic.trans htopic'.symm, hpayload.trans hpayload'.symm⟩

/-- What an enqueued event gets back: its entry, as it was when it was selected. -/
theorem enqueue_returned (h : (outboxRuns calls).Trace run s)
    {tenantId workItemId eventId topic : Identifier} {payloadDigest : Digest} {now : Datetime}
    {entry : OutboxEntry}
    (hcall : calls i = .enqueue tenantId workItemId eventId topic payloadDigest now)
    (hi : s.2 i = .ret (.entry entry)) :
    ∃ row, readOutbox row = .ok entry ∧ entry.workItemId = workItemId ∧ entry.topic = topic ∧
      entry.payloadDigest = payloadDigest ∧
      (∃ j, (j, row) ∈ s.1.versions (tenantId.text, eventId.text)) ∧
      ∃ earlier s', earlier ++ [.asked i (.select (tenantId.text, eventId.text)) (.ok (some row))]
        <+: run ∧ (outboxRuns calls).Trace earlier s' ∧
        ∀ there ∈ s'.1.row (tenantId.text, eventId.text), there = row := by
  obtain ⟨stage, hsound, hselected, hreturned⟩ := outbox_sound h
  obtain ⟨hover, hvalue⟩ := hreturned i _ hi
  rw [hcall] at hvalue
  obtain ⟨row, hrow, hread, hitem, htopic, hpayload⟩ := hvalue
  refine ⟨row, hread, hitem, htopic, hpayload, (hsound.fits i).there hover hrow, ?_⟩
  refine selected_there (fun i => (calls i).follows) h (fun before v hlegal => ?_) hselected hrow
  change (calls i).legal before v at hlegal
  rw [hcall] at hlegal
  exact hlegal.1

/-! ## 3. Everything that the outbox promises -/

/-- What the outbox promises at each place of a run. -/
structure OutboxLeases (calls : ι → OutboxCall)
    (run : List (Deed ι (RowAsk BoxLook BoxKey OutboxRow) (RowAsk.Answer Failure)))
    (s : OutboxState ι) : Prop where
  acknowledged : ∀ k pre i row post, s.1.versions k = pre ++ (i, row) :: post →
    row.status = .acked → post = []
  apart : ∀ k, (claims calls (s.1.versions k)).Pairwise fun e e' =>
    Disjoint e.2.lease e'.2.lease
  counted : ∀ k pre i row post, s.1.versions k = pre ++ (i, row) :: post →
    row.attempts = (claims calls (pre ++ [(i, row)])).length
  once : ∀ k, ((s.1.versions k).map Prod.fst).Nodup
  claimed : ∀ i tenantId workerId now leaseSeconds entry,
    calls i = .claim tenantId workerId now leaseSeconds → s.2 i = .ret (.claimed (some entry)) →
    ∃ row, (i, row) ∈ s.1.versions (tenantId, entry.eventId.text) ∧ readOutbox row = .ok entry
  unclaimed : ∀ i, s.2 i = .ret (.claimed none) → ∀ k row, (i, row) ∉ s.1.versions k
  acked : ∀ i tenantId eventId workerId, calls i = .ack tenantId eventId workerId →
    s.2 i = .ret (.acked true) → ∃ pre j claimed row now leaseSeconds,
      s.1.versions (tenantId, eventId) = pre ++ [(j, claimed), (i, row)] ∧
        calls j = .claim tenantId workerId now leaseSeconds
  ackedOnce : ∀ i i' tenantId eventId workerId workerId',
    calls i = .ack tenantId eventId workerId → calls i' = .ack tenantId eventId workerId' →
    s.2 i = .ret (.acked true) → s.2 i' = .ret (.acked true) → i = i'
  refused : ∀ i, s.2 i = .ret (.acked false) → ∀ k row, (i, row) ∉ s.1.versions k
  enqueued : ∀ i tenantId workItemId eventId topic payloadDigest now entry,
    calls i = .enqueue tenantId workItemId eventId topic payloadDigest now →
    s.2 i = .ret (.entry entry) → ∃ row, readOutbox row = .ok entry ∧
      entry.workItemId = workItemId ∧ entry.topic = topic ∧ entry.payloadDigest = payloadDigest ∧
      (∃ j, (j, row) ∈ s.1.versions (tenantId.text, eventId.text)) ∧
      ∃ earlier s', earlier ++ [.asked i (.select (tenantId.text, eventId.text)) (.ok (some row))]
        <+: run ∧ (outboxRuns calls).Trace earlier s' ∧
        ∀ there ∈ s'.1.row (tenantId.text, eventId.text), there = row
  unchanged : ∀ i tenantId workItemId eventId topic payloadDigest now,
    calls i = .enqueue tenantId workItemId eventId topic payloadDigest now →
    ∀ k row, (i, row) ∈ s.1.versions k →
      k = (tenantId.text, eventId.text) ∧ ∃ post, s.1.versions k = (i, row) :: post
  collision : ∀ i tenantId workItemId eventId topic payloadDigest now,
    calls i = .enqueue tenantId workItemId eventId topic payloadDigest now →
    ∀ e ∈ s.1.versions (tenantId.text, eventId.text),
      ¬ (e.2.workItemId = workItemId ∧ e.2.topic = topic ∧ e.2.payloadDigest = payloadDigest) →
      (∀ result, s.2 i ≠ .ret result) ∧ ∀ k row, (i, row) ∉ s.1.versions k

theorem outbox_leased (h : (outboxRuns calls).Trace run s) : OutboxLeases calls run s := by
  obtain ⟨stage, hsound, -, hreturned⟩ := outbox_sound h
  have hacked : ∀ i tenantId eventId workerId, calls i = .ack tenantId eventId workerId →
      s.2 i = .ret (.acked true) → ∃ pre j claimed row now leaseSeconds,
        s.1.versions (tenantId, eventId) = pre ++ [(j, claimed), (i, row)] ∧
          calls j = .claim tenantId workerId now leaseSeconds := by
    intro i tenantId eventId workerId hcall hi
    obtain ⟨hover, hvalue⟩ := hreturned i _ hi
    rw [hcall] at hvalue
    obtain ⟨row, hwritten⟩ := Option.isSome_iff_exists.mp hvalue.symm
    obtain ⟨hkey, pre, j, claimed, now, leaseSeconds, hsplit, hclaim⟩ :=
      ack_returned hsound hcall ((hsound.fits i).committed hover row hwritten)
    rw [hkey] at hsplit
    exact ⟨pre, j, claimed, row, now, leaseSeconds, hsplit, hclaim⟩
  refine ⟨?_, fun k => leases_disjoint (hsound.chained k), ?_, hsound.once, ?_, ?_, hacked, ?_,
    ?_, ?_, ?_, ?_⟩
  · intro k pre i row post hsplit hstatus
    have hchained := hsound.chained k
    rw [hsplit] at hchained
    exact acked_last hchained hstatus
  · intro k pre i row post hsplit
    have hchained := hsound.chained k
    rw [hsplit, ← List.singleton_append, ← List.append_assoc] at hchained
    exact attempts_claims hchained.before row latestOf_snoc
  · intro i tenantId workerId now leaseSeconds entry hcall hi
    obtain ⟨hover, hvalue⟩ := hreturned i _ hi
    exact claim_returned hsound hcall hover hvalue
  · intro i hi
    obtain ⟨-, hvalue⟩ := hreturned i _ hi
    refine hsound.wrote_nothing ?_
    cases hcall : calls i with
    | claim tenantId workerId now leaseSeconds =>
        rw [hcall] at hvalue
        exact hvalue
    | _ =>
        rw [hcall] at hvalue
        exact hvalue.elim
  · intro i i' tenantId eventId workerId workerId' hcall hcall' hi hi'
    obtain ⟨pre, j, claimed, row, -, -, hsplit, -⟩ := hacked i _ _ _ hcall hi
    obtain ⟨pre', j', claimed', row', -, -, hsplit', -⟩ := hacked i' _ _ _ hcall' hi'
    rw [hsplit] at hsplit'
    obtain ⟨-, hlast⟩ := List.append_inj' hsplit' rfl
    cases hlast
    rfl
  · intro i hi
    obtain ⟨-, hvalue⟩ := hreturned i _ hi
    refine hsound.wrote_nothing ?_
    cases hcall : calls i with
    | ack tenantId eventId workerId =>
        rw [hcall] at hvalue
        exact Option.isNone_iff_eq_none.mp (Option.isSome_eq_false_iff.mp hvalue.symm)
    | _ =>
        rw [hcall] at hvalue
        exact hvalue.elim
  · intro i tenantId workItemId eventId topic payloadDigest now entry hcall hi
    exact enqueue_returned h hcall hi
  · intro i tenantId workItemId eventId topic payloadDigest now hcall k row hmem
    obtain ⟨hkey, -, -, -, hfirst⟩ := enqueued_first hsound hcall hmem
    exact ⟨hkey, hfirst⟩
  · intro i tenantId workItemId eventId topic payloadDigest now hcall e he hother
    refine ⟨fun result hi => ?_, fun k row hmem => ?_⟩
    · cases result with
      | entry entry =>
          obtain ⟨row, hread, hitem, htopic, hpayload, ⟨j, hj⟩, -⟩ := enqueue_returned h hcall hi
          obtain ⟨worker, -, -, rfl⟩ := OutboxCall.readOutbox_ok.mp hread
          obtain ⟨hitem', htopic', hpayload'⟩ := versions_same hsound he hj
          exact hother ⟨hitem'.trans hitem, htopic'.trans htopic, hpayload'.trans hpayload⟩
      | claimed entry =>
          obtain ⟨-, hvalue⟩ := hreturned i _ hi
          rw [hcall] at hvalue
          exact hvalue
      | acked accepted =>
          obtain ⟨-, hvalue⟩ := hreturned i _ hi
          rw [hcall] at hvalue
          exact hvalue
    · obtain ⟨rfl, hitem, htopic, hpayload, -⟩ := enqueued_first hsound hcall hmem
      obtain ⟨hitem', htopic', hpayload'⟩ := versions_same hsound he hmem
      exact hother ⟨hitem'.trans hitem, htopic'.trans htopic, hpayload'.trans hpayload⟩

end Runs

/-! ## 4. Calls that no other call interrupts -/

section Alone

variable {ι : Type} [DecidableEq ι] [Sha256]
  [∀ (w : RowTable ι BoxKey OutboxRow) (i : ι) (k : BoxKey), Decidable (w.Free i k)]
  {w : RowTable ι BoxKey OutboxRow} {keys : List BoxKey} {looks : BoxLook → Bool} {i : ι}

/-- An event that has an entry is answered with it, if it is the same event, and nothing is
written. -/
theorem run_enqueue_again {tenantId workItemId eventId topic : Identifier} {payloadDigest : Digest}
    {now : Datetime} {current : Moment} {row : OutboxRow} {entry : OutboxEntry}
    (hrole : looks .unsafeRole = false) (hitem : looks (.item tenantId workItemId) = true)
    (hutc : utc now = .ok current) (hrow : w.row (tenantId.text, eventId.text) = some row)
    (hread : readOutbox row = .ok entry) :
    ∃ w', (enqueueOutbox tenantId workItemId eventId topic payloadDigest now).run
        (serves keys looks i) w =
      (if entry.workItemId = workItemId ∧ entry.topic = topic ∧
          entry.payloadDigest = payloadDigest then .ok entry
        else .error (.denied "Outbox event identity collision"), w') ∧
      ∀ k, w'.versions k = w.versions k := by
  have hfound : serves keys looks i (begun w i) (.look (.item tenantId workItemId)) =
      (.ok true, begun w i) := by
    show ((.ok (looks (.item tenantId workItemId)) : Except Failure Bool), begun w i) = _
    rw [hitem]
  unfold enqueueOutbox
  rw [Prog.run_bind_ok _ _ ((Prog.run_ofExcept _ _ _).trans (by rw [hutc]; rfl))]
  refine run_transaction_served hrole ?_
  rw [Prog.run_bind_ok _ _ (run_execute_served hfound),
    Prog.run_bind_ok _ _ ((Prog.run_insist _ _ _ _).trans (by rw [if_pos rfl])),
    Prog.run_bind_ok _ _ (run_insert_served hrow), run_reread_served hrow hread]

omit [Sha256] in
/-- Whoever bears the worker id of a claimed entry acknowledges it. -/
theorem run_ack_claimed {tenantId eventId workerId : String} {row : OutboxRow}
    (hrole : looks .unsafeRole = false) (hrow : w.row (tenantId, eventId) = some row)
    (hclaimed : row.status = .claimed) (hfree : w.Free i (tenantId, eventId)) :
    ((ackOutbox tenantId eventId workerId).run (serves keys looks i) w).1 =
      .ok (decide (row.workerId = some workerId)) := by
  obtain ⟨w', session, hupdate, hsession⟩ :=
    run_update_served keys looks (p := heldBy workerId) (f := ackedRow) hrow hfree
  have hbody : (do
      let written ← execute (.update (tenantId, eventId) (heldBy workerId) ackedRow)
      pure written.isSome : BoxProg OutboxRow Bool).run (serves keys looks i) (begun w i) =
        (.ok (decide (row.workerId = some workerId)), w') := by
    rw [Prog.run_bind_ok _ _ hupdate, Prog.run_pure]
    by_cases hworker : row.workerId = some workerId
    · simp [heldBy, hclaimed, hworker]
    · simp [heldBy, hworker]
  unfold ackOutbox
  rw [run_transaction hrole hbody hsession]

end Alone

/-! ## 5. Leases -/

section Claims

variable {ι : Type} [DecidableEq ι] [Sha256]

/-- What an event that has an entry is answered, when no other call comes between. -/
def AnsweredAgain (w : RowTable ι BoxKey OutboxRow)
    [∀ (w : RowTable ι BoxKey OutboxRow) (i : ι) (k : BoxKey), Decidable (w.Free i k)] : Prop :=
  ∀ (keys : List BoxKey) (looks : BoxLook → Bool) (i : ι)
    (tenantId workItemId eventId topic : Identifier) (payloadDigest : Digest) (now : Datetime)
    (current : Moment) (row : OutboxRow), looks .unsafeRole = false →
    looks (.item tenantId workItemId) = true → utc now = .ok current →
    w.row (tenantId.text, eventId.text) = some row →
    ∃ entry w', readOutbox row = .ok entry ∧
      (enqueueOutbox tenantId workItemId eventId topic payloadDigest now).run
          (serves keys looks i) w =
        (if entry.workItemId = workItemId ∧ entry.topic = topic ∧
            entry.payloadDigest = payloadDigest then .ok entry
          else .error (.denied "Outbox event identity collision"), w') ∧
      ∀ k, w'.versions k = w.versions k

end Claims

/-- The outbox. At every place of every run of calls of any workers, with any failure of the
database: an acknowledged entry is not written again; the leases of its claims do not overlap;
its attempts are its claims; one acknowledgement of it is accepted at most, right after the claim
of the same worker; an event that is enqueued again gets the entry that is there, and is not
written; and another event under its identifier is denied. -/
theorem outbox_leases {ι : Type} [DecidableEq ι] [Sha256]
    [∀ (w : RowTable ι BoxKey OutboxRow) (i : ι) (k : BoxKey), Decidable (w.Free i k)]
    {calls : ι → OutboxCall}
    {run : List (Deed ι (RowAsk BoxLook BoxKey OutboxRow) (RowAsk.Answer Failure))}
    {s : OutboxState ι} (h : (outboxRuns calls).Trace run s) :
    OutboxLeases calls run s ∧ AnsweredAgain s.1 := by
  refine ⟨outbox_leased h, ?_⟩
  intro keys looks i tenantId workItemId eventId topic payloadDigest now current row hrole hitem
    hutc hrow
  obtain ⟨stage, hsound, -⟩ := outbox_sound h
  obtain ⟨e, he, rfl⟩ := Option.map_eq_some_iff.mp hrow
  obtain ⟨entry, hread⟩ := hsound.fine _ e (List.mem_of_getLast? he)
  obtain ⟨w', hrun, hversions⟩ := run_enqueue_again hrole hitem hutc hrow hread
  exact ⟨entry, w', hread, hrun, hversions⟩

/-! ## A worker that claims an entry twice -/

namespace OutboxFixture

scoped instance sha256 : Sha256 where
  digest _ := ⟨1⟩

theorem tenant_valid : identifierPattern "tenant-a".toList = true := by decide
theorem workItem_valid : identifierPattern "wi-1".toList = true := by decide
theorem event_valid : identifierPattern "event-1".toList = true := by decide

def tenant : Identifier := ⟨"tenant-a", tenant_valid⟩

def workItem : Identifier := ⟨"wi-1", workItem_valid⟩

def event : Identifier := ⟨"event-1", event_valid⟩

def topic : Identifier := ⟨"workflow.intake", by decide⟩

def payload : Digest := ⟨1⟩

def key : BoxKey := ("tenant-a", "event-1")

/-- An entry is claimed for a second, claimed again once its lease has expired, and acknowledged
on behalf of the first claim. -/
def calls (second : String) : Fin 4 → OutboxCall
  | 0 => .enqueue tenant workItem event topic payload ⟨0, some 0⟩
  | 1 => .claim "tenant-a" "worker-a" ⟨0, some 0⟩ 1
  | 2 => .claim "tenant-a" second ⟨1000000, some 0⟩ 30
  | 3 => .ack "tenant-a" "event-1" "worker-a"

def looks (question : BoxLook) : Bool := question ≠ .unsafeRole

/-- A call that no other interrupts. -/
def turn (second : String) (w : RowTable (Fin 4) BoxKey OutboxRow) (i : Fin 4) :
    Except Failure OutboxResult × RowTable (Fin 4) BoxKey OutboxRow :=
  (calls second i).program.run (serves [key] looks i) w

/-- The table after calls. -/
@[irreducible] def after (second : String) (l : List (Fin 4)) : RowTable (Fin 4) BoxKey OutboxRow :=
  l.foldl (fun w i => (turn second w i).2) RowTable.empty

theorem after_snoc (second : String) (l : List (Fin 4)) (i : Fin 4) :
    after second (l ++ [i]) = (turn second (after second l) i).2 := by
  unfold after
  rw [List.foldl_append]
  rfl

theorem runs_turn {second : String}
    {run : List (Deed (Fin 4) (RowAsk BoxLook BoxKey OutboxRow) (RowAsk.Answer Failure))}
    {l : List (Fin 4)} {tasks : Fin 4 → BoxProg OutboxRow OutboxResult}
    (h : (outboxRuns (calls second)).Trace run (after second l, tasks)) (i : Fin 4)
    (hi : tasks i = (calls second i).program) :
    ∃ run', (outboxRuns (calls second)).Trace run' (after second (l ++ [i]),
      Function.update tasks i (.ofExcept (turn second (after second l) i).1)) := by
  have hrun := Surroundings.runs_alone (serves [key] looks i)
    (fun w r => RowTable.answer_answers [key] looks Failure.other w i r) h
  rw [hi] at hrun
  rw [after_snoc]
  exact hrun

/-- The calls, one after the other. -/
theorem runs_all (second : String) : ∃ run tasks,
    (outboxRuns (calls second)).Trace run (after second [0, 1, 2, 3], tasks) ∧
      tasks 3 = .ofExcept (turn second (after second [0, 1, 2]) 3).1 := by
  have hstart : (outboxRuns (calls second)).Trace []
      (after second [], fun i => (calls second i).program) :=
    .start _ ⟨by unfold after; rfl, rfl⟩
  obtain ⟨_, h₀⟩ := runs_turn hstart 0 rfl
  obtain ⟨_, h₁⟩ := runs_turn h₀ 1 (Function.update_of_ne (by decide) _ _)
  obtain ⟨_, h₂⟩ := runs_turn h₁ 2 (by
    rw [Function.update_of_ne (by decide), Function.update_of_ne (by decide)])
  obtain ⟨run, h₃⟩ := runs_turn h₂ 3 (by
    rw [Function.update_of_ne (by decide), Function.update_of_ne (by decide),
      Function.update_of_ne (by decide)])
  simp only [List.nil_append, List.cons_append] at h₃
  exact ⟨run, _, h₃, Function.update_self 3 _ _⟩

end OutboxFixture

open OutboxFixture in
theorem outbox_leases_taken : ∃ run s, (outboxRuns (calls "worker-b")).Trace run s ∧
    OutboxLeases (calls "worker-b") run s ∧ AnsweredAgain s.1 := by
  obtain ⟨run, tasks, h, -⟩ := runs_all "worker-b"
  exact ⟨run, _, h, outbox_leases h⟩

/-! ## 6. Fences -/

section Fences

variable {ι : Type} [Sha256] {calls : ι → OutboxCall}

/-- Claims of an entry that another claim came after. -/
def superseded (calls : ι → OutboxCall) (l : List (ι × OutboxRow)) : List (ι × OutboxRow) :=
  (claims calls l).dropLast

omit [Sha256] in
/-- The worker id that a call bears. -/
def OutboxCall.worker : OutboxCall → Option String
  | .enqueue .. => none
  | .claim _ workerId _ _ => some workerId
  | .ack _ _ workerId => some workerId

/-- A call acknowledges an entry on behalf of a claim that was superseded. -/
structure Stale (calls : ι → OutboxCall) (behalf : ι → ι) (s : OutboxState ι) (i : ι)
    (tenantId eventId workerId : String) : Prop where
  ack : calls i = .ack tenantId eventId workerId
  claim : ∃ now leaseSeconds, calls (behalf i) = .claim tenantId workerId now leaseSeconds
  later : ∃ row, (behalf i, row) ∈ superseded calls (s.1.versions (tenantId, eventId))

/-- A call did not return that it was accepted, and wrote nothing. -/
def Refused (s : OutboxState ι) (i : ι) : Prop :=
  s.2 i ≠ .ret (.acked true) ∧ ∀ k row, (i, row) ∉ s.1.versions k

/-- No acknowledgement on behalf of a claim that was superseded is accepted. -/
def Fenced (calls : ι → OutboxCall) (behalf : ι → ι) (s : OutboxState ι) : Prop :=
  ∀ i tenantId eventId workerId, Stale calls behalf s i tenantId eventId workerId → Refused s i

/-- The last claim of an entry bears another worker id. -/
def HeldElsewhere (calls : ι → OutboxCall) (s : OutboxState ι) (tenantId eventId workerId : String) :
    Prop :=
  ∀ e ∈ (claims calls (s.1.versions (tenantId, eventId))).getLast?,
    (calls e.1).worker ≠ some workerId

/-- An acknowledgement that wrote bears the worker id of the last claim. -/
theorem ack_holder {w : RowTable ι BoxKey OutboxRow} {stage : ι → RowStage BoxKey OutboxRow} {i : ι}
    (h : RowsSound (legalOf calls) OutboxCall.Readable w stage)
    {tenantId eventId workerId : String} {row : OutboxRow} {k : BoxKey}
    (hcall : calls i = .ack tenantId eventId workerId) (hmem : (i, row) ∈ w.versions k) :
    ∃ e ∈ (claims calls (w.versions (tenantId, eventId))).getLast?,
      (calls e.1).worker = some workerId := by
  obtain ⟨rfl, pre, j, claimed, now, leaseSeconds, hsplit, hclaim⟩ := ack_returned h hcall hmem
  have hclaims : claims calls (w.versions (tenantId, eventId)) =
      claims calls pre ++ [(j, claimed)] := by
    rw [hsplit]
    simp [claims, hclaim, hcall, OutboxCall.isClaim]
  refine ⟨(j, claimed), ?_, ?_⟩
  · rw [hclaims, List.getLast?_concat]
    rfl
  · show (calls j).worker = some workerId
    rw [hclaim]
    rfl

end Fences

/-- The fences of the outbox. At every place of every run, no acknowledgement on behalf of a claim
that was superseded is accepted, or writes, where the last claim of the entry bears another
worker id. And of a claimed entry, one that no other call interrupts is refused if and only if
the last claim bears another worker id than the one that it is made on behalf of. -/
theorem outbox_fences {ι : Type} [DecidableEq ι] [Sha256]
    [∀ (w : RowTable ι BoxKey OutboxRow) (i : ι) (k : BoxKey), Decidable (w.Free i k)]
    {calls : ι → OutboxCall} {behalf : ι → ι}
    {run : List (Deed ι (RowAsk BoxLook BoxKey OutboxRow) (RowAsk.Answer Failure))}
    {s : OutboxState ι} (h : (outboxRuns calls).Trace run s) :
    (∀ i tenantId eventId workerId, Stale calls behalf s i tenantId eventId workerId →
      HeldElsewhere calls s tenantId eventId workerId → Refused s i) ∧
    ∀ k pre j row, s.1.versions k = pre ++ [(j, row)] → row.status = .claimed →
      ∀ e ∈ claims calls pre, ∀ workerId, (calls e.1).worker = some workerId →
      ∀ keys looks i, looks .unsafeRole = false → s.1.Free i k →
      (((ackOutbox k.1 k.2 workerId).run (serves keys looks i) s.1).1 = .ok false ↔
        (calls e.1).worker ≠ (calls j).worker) := by
  obtain ⟨stage, hsound, -, hreturned⟩ := outbox_sound h
  constructor
  · intro i tenantId eventId workerId hstale helsewhere
    have hnone : ∀ k row, (i, row) ∉ s.1.versions k := by
      intro k row hmem
      obtain ⟨e, he, hworker⟩ := ack_holder hsound hstale.ack hmem
      exact helsewhere e he hworker
    refine ⟨fun hi => ?_, hnone⟩
    obtain ⟨hover, hvalue⟩ := hreturned i _ hi
    rw [hstale.ack] at hvalue
    obtain ⟨row, hwritten⟩ := Option.isSome_iff_exists.mp hvalue.symm
    exact hnone _ row ((hsound.fits i).committed hover row hwritten)
  · intro k pre j row hsplit hclaimed e he workerId hworker keys looks i hrole hfree
    have hrow : s.1.row k = some row := by
      unfold RowTable.row
      rw [hsplit, latestOf_snoc]
    have hchained := hsound.chained k
    rw [hsplit] at hchained
    obtain ⟨tenantId', workerId', now, leaseSeconds, hclaim, -, hrow'⟩ :=
      claimed_by hchained hclaimed
    rw [run_ack_claimed hrole hrow hclaimed hfree, hworker, hclaim, hrow']
    show Except.ok (decide (some workerId' = some workerId)) = .ok false ↔
      some workerId ≠ some workerId'
    simp [eq_comm]

namespace OutboxFixture

theorem superseded_first (second : String) (h : (1 : Fin 4) ∈ (superseded (calls second)
    ((after second [0, 1, 2, 3]).versions ("tenant-a", "event-1"))).map Prod.fst)
    (tasks : Fin 4 → BoxProg OutboxRow OutboxResult) :
    Stale (calls second) (fun _ => 1) (after second [0, 1, 2, 3], tasks) 3 "tenant-a" "event-1"
      "worker-a" := by
  obtain ⟨⟨_, row⟩, hrow, rfl⟩ := List.mem_map.mp h
  exact ⟨rfl, ⟨⟨0, some 0⟩, 1, rfl⟩, row, hrow⟩

theorem held_elsewhere : ∀ e ∈ (claims (calls "worker-b") ((after "worker-b" [0, 1, 2, 3]).versions
    ("tenant-a", "event-1"))).getLast?, (calls "worker-b" e.1).worker ≠ some "worker-a" := by
  decide +kernel

theorem stale_accepted :
    (turn "worker-a" (after "worker-a" [0, 1, 2]) 3).1 = .ok (.acked true) := by
  decide +kernel

end OutboxFixture

open OutboxFixture in
theorem outbox_fences_taken : ∃ run s, (outboxRuns (calls "worker-b")).Trace run s ∧
    Stale (calls "worker-b") (fun _ => 1) s 3 "tenant-a" "event-1" "worker-a" ∧ Refused s 3 := by
  obtain ⟨run, tasks, h, -⟩ := runs_all "worker-b"
  have hstale := superseded_first "worker-b" (by decide +kernel) tasks
  exact ⟨run, _, h, hstale, (outbox_fences h).1 3 _ _ _ hstale held_elsewhere⟩

open OutboxFixture in
theorem outbox_stale_ack : ∃ run s, (outboxRuns (calls "worker-a")).Trace run s ∧
    ¬ Fenced (calls "worker-a") (fun _ => 1) s := by
  obtain ⟨run, tasks, h, hlast⟩ := runs_all "worker-a"
  refine ⟨run, _, h, fun hfenced => ?_⟩
  have hstale := superseded_first "worker-a" (by decide +kernel) tasks
  refine (hfenced 3 _ _ _ hstale).1 ?_
  show tasks 3 = _
  rw [hlast, stale_accepted]
  rfl

end NokincFactory
