/-
  File:      NokincFactory/Store/Settlement.lean
  Subject:   No hold is stranded: a completion of what is stored can be committed.

  The reducer judges a receipt within its session, the store adds what holds across sessions.
  The two agree on every completion but one kind: a receipt whose execution an event of the
  store already records.

  * `Offers`: a call that offers a completion for the snapshot of a unit;
  * `HoldSettled`: the store with the completion committed, the hold given back, the charge spent;
  * `settlement_never_stranded`: which of the two answers the call gets, and that the
    completion without receipt and output always gets the first.
-/
import NokincFactory.Store.History

namespace NokincFactory

section Settlement

variable [Sha256] [Pydantic]

/-! ## 1. Completions -/

/-- A completion that is something new is one of the pending call. -/
theorem settledReceipt_of_completeInvocation {session finished : ReviewSession}
    {invocationId : Identifier} {receipt : Option InvocationReceipt} {output : Option Output}
    {now : Datetime} {failureReason : Option ExecutionStop}
    (h : completeInvocation session invocationId receipt output now failureReason = .ok finished)
    (hne : finished ≠ session) : settledReceipt finished .complete = receipt := by
  obtain ⟨-, finishedAt, previous, -, -, h⟩ := completeInvocation_ok.mp h
  rcases h with ⟨done, -, -, -, -, hsame⟩ | ⟨-, state, -, rfl⟩
  · exact absurd hsame hne
  · unfold settledReceipt
    rw [if_pos rfl, List.getLast?_concat]
    rfl

/-- What a completion of the pending call makes of a recorded session. -/
structure Completes (current finished : ReviewSession) (pending : Invocation)
    (receipt : Option InvocationReceipt) : Prop where
  legal : Legal (some current) .complete finished
  changed : current ≠ finished
  seed : finished.seed = current.seed
  records : settledReceipt finished .complete = receipt
  settles : SettlesHold current.state.budget finished.state.budget pending.reservation
    (attemptCharge current.attempts.dropLast pending receipt)

theorem completes_of_completeInvocation {current finished : ReviewSession}
    {invocationId : Identifier} {receipt : Option InvocationReceipt} {output : Option Output}
    {now : Datetime} {failureReason : Option ExecutionStop} {pending : Invocation}
    (hs : Recorded current) (hp : current.state.pending = some pending)
    (h : completeInvocation current invocationId receipt output now failureReason = .ok finished)
    (hdone : finished.state.pending = none) : Completes current finished pending receipt := by
  have hne : finished ≠ current := fun heq => by
    rw [heq, hp] at hdone
    cases hdone
  have hreceipt := settledReceipt_of_completeInvocation h hne
  obtain ⟨earlier, pending', completion, state, hl, hp', hid, hc, hfinished⟩ :=
    complete_of_completeInvocation h hne
  obtain rfl := Option.some.inj (hp.symm.trans hp')
  rw [hid] at h
  have hcompletion : completion.receipt = receipt := by
    rw [← hreceipt, hfinished]
    unfold settledReceipt
    rw [if_pos rfl, List.getLast?_concat]
    rfl
  refine ⟨.complete _ _ _ _ _ _ _ hp h, fun heq => hne heq.symm, ?_, hreceipt, ?_⟩
  · rw [hfinished]
  · have hsettles := settlesHold_of_complete hs hl hp hc
    rw [hcompletion] at hsettles
    rw [hl, List.dropLast_concat, hfinished]
    exact hsettles

/-- The pending call can always be completed without receipt and output. -/
theorem completeInvocation_missing {current : ReviewSession} {pending : Invocation}
    (hs : Recorded current) (hp : current.state.pending = some pending) {now : Datetime}
    {finishedAt : Moment} (hnow : utc now = .ok finishedAt)
    (failureReason : Option ExecutionStop) :
    ∃ finished, completeInvocation current pending.invocationId none none now failureReason =
      .ok finished ∧ finished.state.pending = none := by
  obtain ⟨earlier, hl⟩ := hs.last_of_pending hp
  have htotal : ∃ state, complete current.seed current.state
      (delivered pending.invocationId none none finishedAt failureReason) = .ok state :=
    complete_total hp rfl
  obtain ⟨state, hc⟩ := htotal
  have h : completeInvocation current pending.invocationId none none now failureReason =
      .ok _ := completeInvocation_ok.mpr ⟨validateSession_iff.mpr ⟨hs, rfl⟩, finishedAt, _, hnow,
    hs.find_pending hl, Or.inr ⟨rfl, state, hc, rfl⟩⟩
  exact ⟨_, h, completeInvocation_pending hp h⟩

/-! ## 2. The call -/

variable [ReviewDocuments]

/-- An event of the store already records the execution that the receipt reports. -/
def ReceiptRecorded (store : Store) (receipt : Option InvocationReceipt) : Prop :=
  ∃ proof, receipt = some proof ∧ ∃ e ∈ store.events, e.kind = .complete ∧
    e.provider = some proof.actualModel.provider ∧ e.executionId = some proof.executionId

/-- A call that offers its value for the snapshot of a unit: the stored digest, the registered
parent, a document and counters within their limits. -/
structure Offers (store : Store) (scope : ReviewScope) (row : SessionRow)
    (current : ReviewSession) (call : Call) : Prop where
  unit : call.scope = scope
  worker : transaction call.worker scope = .ok ()
  expected : call.expectedDigest = some row.digest
  parent : (AList.lookup scope store.registrations).map (·.budgetId) = some call.parentBudgetId
  size : (ReviewDocuments.sessionJson call.updated).utf8ByteSize ≤ maxSessionBytes
  counters : ∀ parent, AList.lookup (scope.tenantId, call.parentBudgetId) store.budgets =
    some parent → ∀ key, movedCounters parent (some current) call.updated key ≤ bigIntegerMax
  sequence : row.sequence + 1 ≤ integerMax

/-- The counters of a parent, before and after a hold was settled at a charge. -/
structure MovesHold (before after : Counter → ℤ) (hold : Reservation) (charge : Usage) :
    Prop where
  invocations : after .invocations = before .invocations
  repairs : after .repairs = before .repairs
  released : ∀ resource, after (Resource.reserved resource) =
    before resource.reserved - hold.amount resource
  spent : ∀ resource, after (Resource.spent resource) =
    before resource.spent + charge.amount resource

/-- The store with a completion committed. -/
structure HoldSettled (store : Store) (call : Call) (hold : Reservation) (charge : Usage)
    (store' : Store) : Prop where
  snapshot : ∃ row, AList.lookup call.scope store'.sessions = some row ∧
    row.document = ReviewDocuments.sessionJson call.updated ∧
    row.digest = contentDigest call.updated
  event : ∃ e, store'.events = store.events ++ [e] ∧ e.kind = .complete
  parent : ∃ row row', AList.lookup (call.scope.tenantId, call.parentBudgetId) store.budgets =
      some row ∧
    AList.lookup (call.scope.tenantId, call.parentBudgetId) store'.budgets = some row' ∧
    row'.limitsJson = row.limitsJson ∧ MovesHold row.counters row'.counters hold charge

variable {store : Store} {scope : ReviewScope} {items : List ReviewSession} {row : SessionRow}
  {current : ReviewSession} {call : Call} {receipt : Option InvocationReceipt}
  {pending : Invocation}

/-- An event of a chain is one `_append_event` made. -/
theorem Chain.event {events : List EventRow} (h : Chain events items) {e : EventRow}
    (he : e ∈ events) : ∃ call updated current kind sequence,
      e = eventOf call updated current kind sequence := by
  induction h with
  | nil => cases he
  | snoc call updated kind h hread hne hk ih =>
      rcases List.mem_append.mp he with he | he
      · exact ih he
      · exact ⟨_, _, _, _, _, List.mem_singleton.mp he⟩

/-- Only completions record executions. -/
theorem Chronicled.complete_of_provider (h : Chronicled store) {e : EventRow}
    (he : e ∈ store.events) (hp : e.provider ≠ none) : e.kind = .complete := by
  obtain ⟨items, hitems⟩ := h e.scope
  have hmem : e ∈ store.events.filter (·.scope = e.scope) :=
    List.mem_filter.mpr ⟨he, decide_eq_true rfl⟩
  obtain ⟨call, updated, current, kind, sequence, rfl⟩ := hitems.chain.event hmem
  by_contra hkind
  have hother : ¬ kind = .complete := hkind
  refine hp ?_
  show (settledReceipt updated kind).map _ = none
  unfold settledReceipt
  rw [if_neg hother]
  rfl

/-- The constraints of the events refuse a completion exactly when its execution is recorded. -/
theorem conflicts_iff (current : ReviewSession) (h : Chronicled store)
    (hitems : Chronicle store call.scope items) (hs : call.updated.seed.scope = call.scope)
    (hreceipt : settledReceipt call.updated .complete = receipt) :
    (∀ e ∈ store.events, ¬ e.conflicts
      (eventOf call call.updated (some current) .complete (items.length + 1))) ↔
      ¬ ReceiptRecorded store receipt := by
  constructor
  · rintro hfree ⟨proof, rfl, e, he, -, hprovider, hexecution⟩
    refine hfree e he (Or.inr (Or.inr ⟨?_, ?_, ?_, ?_⟩))
    · show (settledReceipt call.updated .complete).map _ ≠ none
      rw [hreceipt]
      exact nofun
    · show (settledReceipt call.updated .complete).map _ ≠ none
      rw [hreceipt]
      exact nofun
    · show e.provider = (settledReceipt call.updated .complete).map _
      rw [hreceipt]
      exact hprovider
    · show e.executionId = (settledReceipt call.updated .complete).map _
      rw [hreceipt]
      exact hexecution
  · intro hfresh e he hconflict
    rcases hconflict with ⟨hscope, hsequence⟩ | ⟨hid, -⟩ | ⟨hprovider, -, hsame, hexecution⟩
    · -- the sequence numbers of the unit end below
      have hmem : e ∈ store.events.filter (·.scope = call.scope) :=
        List.mem_filter.mpr ⟨he, decide_eq_true (hscope.trans hs)⟩
      have hle := hitems.chain.sequence_le e hmem
      rw [hsequence] at hle
      exact absurd hle (Nat.not_succ_le_self _)
    · exact hid rfl
    · cases hproof : receipt with
      | none =>
          refine hprovider ?_
          show (settledReceipt call.updated .complete).map _ = none
          rw [hreceipt, hproof]
          rfl
      | some proof =>
          have hprovider' : e.provider = some proof.actualModel.provider := by
            rw [hsame]
            show (settledReceipt call.updated .complete).map _ = _
            rw [hreceipt, hproof]
            rfl
          have hexecution' : e.executionId = some proof.executionId := by
            rw [hexecution]
            show (settledReceipt call.updated .complete).map _ = _
            rw [hreceipt, hproof]
            rfl
          have hkind := h.complete_of_provider he (by rw [hprovider']; exact nofun)
          exact hfresh ⟨proof, hproof, e, he, hkind, hprovider', hexecution'⟩

/-! ## 3. What the store answers -/

/-- A store as calls leave it: aggregated counters, and a chronicle for every unit. -/
structure Kept (store : Store) : Prop where
  audited : Audited store
  chronicled : Chronicled store

theorem Provisioned.kept (h : Provisioned store) {calls : List Call}
    (hread : ∀ call ∈ calls, call.updated.ReadsBack) : Kept (store.served calls) :=
  ⟨h.audited.served hread, (chronicled_empty h.sessions h.events).served hread⟩

/-- What a call reads of the unit it offers a completion for. -/
theorem Offers.opens (hkept : Kept store) (hrow : AList.lookup scope store.sessions = some row)
    (hcurrent : decode row = .ok current) (ho : Offers store scope row current call)
    (hseed : call.updated.seed = current.seed) :
    ∃ parent, openUnit store call call.updated = .ok ⟨parent, some row, some current⟩ := by
  obtain ⟨items, hitems⟩ := hkept.chronicled scope
  have hread := hitems.decodeRow
  rw [hrow] at hread
  have hdecoded : decodeRow (some row) = .ok (some current) :=
    Except.bind_ok.mpr ⟨current, hcurrent, rfl⟩
  have hlast : some current = items.getLast? := Except.ok.inj (hdecoded.symm.trans hread)
  obtain ⟨registration, parent, hr, hs, hp, hw⟩ := (hitems.authority current hlast.symm).granted
  have hb : registration.budgetId = call.parentBudgetId := by
    have hparent := ho.parent
    rw [hr] at hparent
    exact Option.some.inj hparent
  obtain rfl := ho.unit
  rw [hb] at hp
  rw [← hseed] at hs
  have hopen := openUnit_of ho.worker hr hb hs hp hw hitems.checkTip hitems.decodeRow
  rw [hrow, ← hlast] at hopen
  exact ⟨parent, hopen⟩

/-- A completion offered for what is stored meets no check but the constraints of the events. -/
theorem Offers.answer (hkept : Kept store) (hrow : AList.lookup scope store.sessions = some row)
    (hcurrent : decode row = .ok current) (ho : Offers store scope row current call)
    (hc : Completes current call.updated pending receipt) :
    (¬ ReceiptRecorded store receipt → ∃ parent,
      AList.lookup (scope.tenantId, call.parentBudgetId) store.budgets = some parent ∧
      compareAndReserve store call = .ok (true, store.written call call.updated
        ⟨parent, some row, some current⟩ .complete
        (movedCounters parent (some current) call.updated))) ∧
    (ReceiptRecorded store receipt →
      compareAndReserve store call = .error (.denied .conflict)) := by
  obtain ⟨-, hvalid, hdigest⟩ := decode_ok hcurrent
  have hs : Recorded current := (validateSession_iff.mp hvalid).1
  obtain ⟨parent, hopen⟩ := ho.opens hkept hrow hcurrent hc.seed
  have hopened := openUnit_ok hopen
  obtain rfl := ho.unit
  obtain ⟨items, hitems⟩ := hkept.chronicled call.scope
  obtain ⟨hlast, hnext⟩ := hitems.opened hopened
  have hscope : call.updated.seed.scope = call.scope := by
    rw [hc.seed]
    exact (hitems.authority current hlast.symm).unit
  have hk : validateExtension (some current) call.updated = .ok .complete :=
    validateExtension_of_legal hs hc.legal
  have hexpected : call.expectedDigest = (some current).map contentDigest := by
    rw [ho.expected, Option.map_some, hdigest]
  have hne : some current ≠ some call.updated := fun heq => hc.changed (Option.some.inj heq)
  have hanswer := compareAndReserve_of (validateSession_iff.mpr ⟨recorded_of_extension hk, rfl⟩)
    hscope ho.size hopen hne hexpected
  rw [writeUnit_of_complete hk (hkept.audited.moved_nonneg hopened)
    (ho.counters parent hopened.parent) ho.sequence, hnext] at hanswer
  have hconflicts := conflicts_iff current hkept.chronicled hitems hscope hc.records
  constructor
  · intro hfresh
    refine ⟨parent, hopened.parent, ?_⟩
    rw [hanswer, guardThat_pass (hconflicts.mpr hfresh)]
    rfl
  · intro hrecorded
    rw [hanswer, guardThat_fail fun hfree => hconflicts.mp hfree hrecorded]
    rfl

omit [Sha256] [Pydantic] [ReviewDocuments] in
/-- The counters of the parent move from the hold to the charge. -/
theorem SettlesHold.moves {parent : BudgetRow} {updated : ReviewSession} {hold : Reservation}
    {charge : Usage}
    (h : SettlesHold current.state.budget updated.state.budget hold charge) :
    MovesHold parent.counters (movedCounters parent (some current) updated) hold charge := by
  refine ⟨?_, ?_, fun resource => ?_, fun resource => ?_⟩
  · show parent.counters .invocations + (updated.state.budget.invocations : ℤ) -
      (current.state.budget.invocations : ℤ) = _
    rw [h.invocations, add_sub_cancel_right]
  · show parent.counters .repairs + (updated.state.budget.repairs : ℤ) -
      (current.state.budget.repairs : ℤ) = _
    rw [h.repairs, add_sub_cancel_right]
  · unfold movedCounters
    rw [budgetOf_some, h.held, h.released]
    omega
  · unfold movedCounters
    rw [budgetOf_some, h.spent]
    omega

omit [Pydantic] in
theorem holdSettled_written {parent : BudgetRow} {charge : Usage}
    (hp : AList.lookup (call.scope.tenantId, call.parentBudgetId) store.budgets = some parent)
    (hm : MovesHold parent.counters (movedCounters parent (some current) call.updated)
      pending.reservation charge) :
    HoldSettled store call pending.reservation charge (store.written call call.updated
      ⟨parent, some row, some current⟩ .complete
      (movedCounters parent (some current) call.updated)) where
  snapshot := ⟨_, AList.lookup_insert _, rfl, rfl⟩
  event := ⟨_, rfl, rfl⟩
  parent := ⟨parent, _, hp, AList.lookup_insert _, rfl, hm⟩

/-- A completion offered for what is stored, committed or denied. -/
theorem Offers.settles (hkept : Kept store) (hrow : AList.lookup scope store.sessions = some row)
    (hcurrent : decode row = .ok current) (ho : Offers store scope row current call)
    (hc : Completes current call.updated pending receipt) :
    (¬ ReceiptRecorded store receipt → ∃ store',
      compareAndReserve store call = .ok (true, store') ∧
      HoldSettled store call pending.reservation
        (attemptCharge current.attempts.dropLast pending receipt) store') ∧
    (ReceiptRecorded store receipt →
      compareAndReserve store call = .error (.denied .conflict) ∧ store.serve call = store) := by
  obtain ⟨hcommits, hdenied⟩ := ho.answer hkept hrow hcurrent hc
  constructor
  · intro hfresh
    obtain ⟨parent, hp, hanswer⟩ := hcommits hfresh
    obtain rfl := ho.unit
    exact ⟨_, hanswer, holdSettled_written hp hc.settles.moves⟩
  · intro hrecorded
    refine ⟨hdenied hrecorded, ?_⟩
    unfold Store.serve
    rw [hdenied hrecorded]

end Settlement

/-- **No reservation is ever stranded**: after any calls on an unused store, whatever they
answered or raised, a completion of a stored session with a pending call, offered with the
stored digest, is committed, whatever the ceilings of the parent and the clock say, and moves
its counters from the hold to the charge; but when an event already records the execution its
receipt reports, the call is denied and the store stays as it was. The completion without
receipt and output is always to be had, and always committed. -/
theorem settlement_never_stranded [Sha256] [Pydantic] [ReviewDocuments] {store : Store}
    (h : Provisioned store) {calls : List Call}
    (hread : ∀ call ∈ calls, call.updated.ReadsBack) {scope : ReviewScope} {row : SessionRow}
    {current : ReviewSession} {pending : Invocation}
    (hrow : AList.lookup scope (store.served calls).sessions = some row)
    (hcurrent : decode row = .ok current) (hp : current.state.pending = some pending) :
    (∀ invocationId receipt output now failureReason call,
      completeInvocation current invocationId receipt output now failureReason =
        .ok call.updated → call.updated.state.pending = none →
      Offers (store.served calls) scope row current call →
      (¬ ReceiptRecorded (store.served calls) receipt → ∃ store',
        compareAndReserve (store.served calls) call = .ok (true, store') ∧
        HoldSettled (store.served calls) call pending.reservation
          (attemptCharge current.attempts.dropLast pending receipt) store') ∧
      (ReceiptRecorded (store.served calls) receipt →
        compareAndReserve (store.served calls) call = .error (.denied .conflict) ∧
        (store.served calls).serve call = store.served calls)) ∧
    ∀ now finishedAt failureReason, utc now = .ok finishedAt → ∃ finished,
      completeInvocation current pending.invocationId none none now failureReason =
        .ok finished ∧
      ∀ call, call.updated = finished → Offers (store.served calls) scope row current call →
        ∃ store', compareAndReserve (store.served calls) call = .ok (true, store') ∧
          HoldSettled (store.served calls) call pending.reservation
            (attemptCharge current.attempts.dropLast pending none) store' := by
  have hkept := h.kept hread
  have hs : Recorded current := (validateSession_iff.mp (decode_ok hcurrent).2.1).1
  constructor
  · intro invocationId receipt output now failureReason call hcomplete hdone ho
    exact ho.settles hkept hrow hcurrent
      (completes_of_completeInvocation hs hp hcomplete hdone)
  · intro now finishedAt failureReason hnow
    obtain ⟨finished, hcomplete, hdone⟩ := completeInvocation_missing hs hp hnow failureReason
    refine ⟨finished, hcomplete, fun call hcall ho => ?_⟩
    subst hcall
    refine (ho.settles hkept hrow hcurrent
      (completes_of_completeInvocation hs hp hcomplete hdone)).1 ?_
    rintro ⟨proof, hproof, -⟩
    cases hproof

namespace Fixture

/-! The unit of the tests after its reservation, offered its first review. -/

def settlement : Call := ⟨worker, scope, some (contentDigest held), settled, budgetId, clock 2⟩

theorem calls_held :
    let store := provisioned.served (calls.take 2)
    (AList.lookup scope store.sessions).map (fun row => (row.document, row.sequence)) =
        some ("held", 2) ∧
      (AList.lookup (scope.tenantId, budgetId) store.budgets).map
        (fun row => decide (∀ key, row.counters key ≤ 100)) = some true ∧
      (AList.lookup scope store.registrations).map (·.budgetId) = some budgetId ∧
      ∀ e ∈ store.events, e.kind ≠ .complete := by
  decide +kernel

theorem calls_held_readBack : ∀ call ∈ calls.take 2, call.updated.ReadsBack :=
  fun call hc => calls_readBack call (List.mem_of_mem_take hc)

theorem held_decodes : ∃ row,
    AList.lookup scope (provisioned.served (calls.take 2)).sessions = some row ∧
      decode row = .ok held ∧ row.sequence = 2 := by
  obtain ⟨row, hrow, hdocument⟩ := Option.map_eq_some_iff.mp calls_held.1
  obtain ⟨hdoc, hseq⟩ := Prod.mk.inj hdocument
  obtain ⟨items, hitems⟩ := (provisioned_unused.kept calls_held_readBack).chronicled scope
  have hsnapshot := hitems.snapshot
  rw [hrow] at hsnapshot
  obtain ⟨session, hl, rfl⟩ := Option.map_eq_some_iff.mp hsnapshot.symm
  have hdecode := hitems.decode hl
  have hread := (decode_ok hdecode).1
  rw [hdoc] at hread
  obtain rfl := Option.some.inj hread
  exact ⟨_, hrow, hdecode, hseq⟩

/-- The reservation of the tests completes with the rejection. -/
theorem held_completes (hs : Recorded held) :
    let done := completion 0 .review "v1" "rejection"
    completeInvocation held done.invocationId done.receipt (done.outputJson.map Output.str)
      done.finishedAt.datetime done.failureReason = .ok settled := by
  have hledger : Ledger seed ([] ++ [⟨invocation 0 .review "v1",
    some (completion 0 .review "v1" "rejection")⟩]) rejected := ledger_rejected
  obtain ⟨state, hbefore, hc⟩ := hledger.uncomplete
  obtain rfl : state = held.state := hbefore.deterministic hs
  have hl : held.attempts = [] ++ [⟨invocation 0 .review "v1", none⟩] := rfl
  exact completeInvocation_of_complete hs hl hc

theorem settlement_offers {row : SessionRow} (hd : row.digest = contentDigest held)
    (hseq : row.sequence = 2) :
    Offers (provisioned.served (calls.take 2)) scope row held settlement where
  unit := rfl
  worker := transaction_ok.mpr ⟨rfl, rfl, rfl⟩
  expected := by rw [hd]; rfl
  parent := calls_held.2.2.1
  size := by decide +kernel
  counters := fun parent hp key => by
    obtain ⟨row', hrow', hsmall⟩ := Option.map_eq_some_iff.mp calls_held.2.1
    obtain rfl := Option.some.inj (hp.symm.trans hrow')
    have hle := of_decide_eq_true hsmall key
    have hmax : (200 : ℤ) ≤ bigIntegerMax := by decide
    have hnew : (settlement.updated.state.budget.counter key : ℤ) ≤ 100 := by
      cases key <;> decide
    unfold movedCounters
    omega
  sequence := by rw [hseq]; decide

end Fixture

open Fixture in
theorem settlement_committed :
    ∃ store', compareAndReserve (provisioned.served (calls.take 2)) settlement =
        .ok (true, store') ∧
      HoldSettled (provisioned.served (calls.take 2)) settlement
        (invocation 0 .review "v1").reservation
        (attemptCharge [] (invocation 0 .review "v1")
          (some (receipt (invocation 0 .review "v1")))) store' := by
  obtain ⟨row, hrow, hdecode, hseq⟩ := held_decodes
  obtain ⟨-, hvalid, hdigest⟩ := decode_ok hdecode
  refine ((settlement_never_stranded provisioned_unused calls_held_readBack hrow hdecode rfl).1
    _ _ _ _ _ settlement (held_completes (validateSession_iff.mp hvalid).1) rfl
    (settlement_offers hdigest.symm hseq)).1 ?_
  rintro ⟨proof, -, e, he, hkind, -⟩
  exact calls_held.2.2.2 e he hkind

end NokincFactory
