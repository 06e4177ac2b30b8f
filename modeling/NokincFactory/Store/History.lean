/-
  File:      NokincFactory/Store/History.lean
  Subject:   The event log of a unit is its history, and the snapshot is where it ends.

  * `Chain`: events and the sessions they record, each the legal successor of the one before;
  * `Chronicle`, `Chronicled`: the events of a unit form a chain, and its snapshot is the last
    session of it; `Chronicled.served` keeps this over any calls;
  * `history_faithful`: both readers succeed for every stored session, and what they answer is
    the chain and its end.
-/
import NokincFactory.Adapters.PostgresReviewReader
import NokincFactory.Store.Aggregate

namespace NokincFactory

section History

variable [Sha256] [Pydantic]

/-! ## 1. What a legal step does to the pending call -/

theorem legal_of_extension {current : Option ReviewSession} {kind : TransitionKind}
    {updated : ReviewSession} (h : validateExtension current updated = .ok kind) :
    Legal current kind updated := by
  cases current with
  | none => exact validateExtension_none.mp h
  | some current => exact legal_of_validateExtension h

theorem recorded_of_extension {current : Option ReviewSession} {kind : TransitionKind}
    {updated : ReviewSession} (h : validateExtension current updated = .ok kind) :
    Recorded updated := by
  unfold validateExtension at h
  obtain ⟨p, hv, -⟩ := Except.bind_ok.mp h
  exact (validateSession_iff.mp hv).1

/-- What a reservation makes pending. -/
theorem reserveInvocation_pending {session session' : ReviewSession} {invocationId : Identifier}
    {kind : InvocationKind} {actor : ModelIdentity} {reservation : Reservation} {now : Datetime}
    (h : reserveInvocation session invocationId kind actor reservation now = .ok session') :
    session.state.pending = none ∧ session'.state.pending ≠ none := by
  obtain ⟨-, startedAt, state, -, hres, rfl⟩ := reserveInvocation_ok.mp h
  obtain ⟨hreservable, rfl⟩ := reserve_ok.mp hres
  exact ⟨hreservable.idle, nofun⟩

/-- A completion of the pending call leaves nothing pending. -/
theorem completeInvocation_pending {session session' : ReviewSession} {pending : Invocation}
    {receipt : Option InvocationReceipt} {output : Option Output} {now : Datetime}
    {failureReason : Option ExecutionStop} (hp : session.state.pending = some pending)
    (h : completeInvocation session pending.invocationId receipt output now failureReason =
      .ok session') : session'.state.pending = none := by
  obtain ⟨earlier, pending', completion, state, -, -, -, hc, rfl⟩ :=
    complete_of_completeInvocation h (ne_of_completeInvocation hp h)
  obtain ⟨called, settled, -, -, ho, hstate⟩ := complete_ok hc
  show state.pending = none
  rw [hstate]
  exact ho.books.pending

/-- The number of sessions before tells which kind comes next. -/
def kindAt (sequence : ℕ) : TransitionKind :=
  if sequence = 1 then .create else if sequence % 2 = 0 then .reserve else .complete

/-- The last of `length` sessions waits for a call exactly when the number is odd. -/
def InTurn (length : ℕ) (last : Option ReviewSession) : Prop :=
  match last with
  | none => length = 0
  | some session => length ≠ 0 ∧ (session.state.pending = none ↔ length % 2 = 1)

theorem Legal.inTurn {current : Option ReviewSession} {kind : TransitionKind}
    {updated : ReviewSession} {length : ℕ} (h : Legal current kind updated)
    (hne : current ≠ some updated) (hturn : InTurn length current) :
    kind = kindAt (length + 1) ∧ InTurn (length + 1) (some updated) := by
  cases h with
  | create seed h =>
      obtain rfl : length = 0 := hturn
      exact ⟨rfl, by omega, fun _ => rfl, fun _ => rfl⟩
  | reserve current proposed invocationId kind actor reservation now h =>
      obtain ⟨hidle, hpending⟩ := reserveInvocation_pending h
      obtain ⟨hpos, hodd⟩ := hturn
      have hmod := hodd.mp hidle
      refine ⟨?_, by omega, fun hn => absurd hn hpending, fun _ => by omega⟩
      unfold kindAt
      rw [if_neg (by omega), if_pos (by omega)]
  | complete current proposed pending receipt output now failureReason hp h =>
      have hidle := completeInvocation_pending hp h
      obtain ⟨hpos, hodd⟩ := hturn
      have hmod : ¬ length % 2 = 1 := fun hm => by
        rw [hodd.mpr hm] at hp
        cases hp
      refine ⟨?_, by omega, fun _ => by omega, fun _ => hidle⟩
      unfold kindAt
      rw [if_neg (by omega), if_neg (by omega)]
  | unchanged current => exact absurd rfl hne

/-! ## 2. Chains -/

variable [ReviewDocuments]

/-- Events and the sessions they record. Of the call an event keeps its worker only. -/
inductive Chain : List EventRow → List ReviewSession → Prop where
  | nil : Chain [] []
  | snoc {events : List EventRow} {items : List ReviewSession} (call : Call)
      (updated : ReviewSession) (kind : TransitionKind) (h : Chain events items)
      (hread : updated.ReadsBack) (hne : items.getLast? ≠ some updated)
      (hk : validateExtension items.getLast? updated = .ok kind) :
      Chain (events ++ [eventOf call updated items.getLast? kind (items.length + 1)])
        (items ++ [updated])

variable {events : List EventRow} {items : List ReviewSession}

theorem Chain.length (h : Chain events items) : events.length = items.length := by
  induction h with
  | nil => rfl
  | snoc call updated kind h hread hne hk ih =>
      rw [List.length_append, List.length_append, ih]
      rfl

theorem Chain.inTurn (h : Chain events items) : InTurn items.length items.getLast? := by
  induction h with
  | nil => rfl
  | snoc call updated kind h hread hne hk ih =>
      rw [List.getLast?_concat, List.length_append]
      exact ((legal_of_extension hk).inTurn hne ih).2

/-- The last session of a chain reads back and is recorded. -/
theorem Chain.last {session : ReviewSession} (h : Chain events items)
    (hl : items.getLast? = some session) : session.ReadsBack ∧ Recorded session := by
  cases h with
  | nil => cases hl
  | snoc call updated kind h hread hne hk =>
      rw [List.getLast?_concat] at hl
      obtain rfl := Option.some.inj hl
      exact ⟨hread, recorded_of_extension hk⟩

/-- The last event of a chain records the last session. -/
theorem Chain.lastEvent {session : ReviewSession} (h : Chain events items)
    (hl : items.getLast? = some session) : ∃ event, events.getLast? = some event ∧
      event.sequence = items.length ∧ event.afterDigest = contentDigest session ∧
      event.document = ReviewDocuments.sessionJson session := by
  cases h with
  | nil => cases hl
  | snoc call updated kind h hread hne hk =>
      rw [List.getLast?_concat] at hl
      obtain rfl := Option.some.inj hl
      refine ⟨_, List.getLast?_concat, ?_, rfl, rfl⟩
      rw [List.length_append]
      rfl

/-- The sequence numbers of a chain end with its length. -/
theorem Chain.sequence_le (h : Chain events items) : ∀ event ∈ events,
    event.sequence ≤ items.length := by
  induction h with
  | nil => exact fun event he => absurd he List.not_mem_nil
  | snoc call updated kind h hread hne hk ih =>
      intro event he
      rw [List.length_append, List.length_singleton]
      rcases List.mem_append.mp he with he | he
      · have hle := ih event he
        omega
      · obtain rfl := List.mem_singleton.mp he
        exact le_rfl

/-- A chain is in the order of its sequence numbers. -/
theorem Chain.ordered (h : Chain events items) :
    events.insertionSort (·.sequence ≤ ·.sequence) = events := by
  refine List.Pairwise.insertionSort_eq ?_
  induction h with
  | nil => exact .nil
  | snoc call updated kind h hread hne hk ih =>
      refine List.pairwise_append.mpr ⟨ih, List.pairwise_singleton _ _, fun e he e' he' => ?_⟩
      obtain rfl := List.mem_singleton.mp he'
      have hle := h.sequence_le e he
      show e.sequence ≤ _ + 1
      omega

/-- The latest event of a chain is its last. -/
theorem Chain.tip (h : Chain events items) :
    events.argmax (·.sequence) = events.getLast? := by
  cases h with
  | nil => rfl
  | snoc call updated kind h hread hne hk =>
      rw [List.argmax_concat, List.getLast?_concat]
      cases hm : List.argmax (fun event : EventRow => event.sequence) _ with
      | none => rfl
      | some event =>
          have hle := h.sequence_le event (List.argmax_mem hm)
          exact if_pos (Nat.lt_succ_of_le hle)

/-- One round of `history` over an event that records the next session. -/
theorem readEvent_of {row : EventRow} {item : ReviewSession}
    (hdocument : ReviewDocuments.session row.document = some item)
    (hsequence : row.sequence = items.length + 1) (hafter : row.afterDigest = contentDigest item)
    (hbefore : row.beforeDigest = items.getLast?.map contentDigest)
    (hk : validateExtension items.getLast? item = .ok row.kind) :
    readEvent items row = .ok (items ++ [item]) :=
  Except.bind_ok.mpr ⟨item, modelValidateJson_ok.mpr hdocument,
    Except.bind_ok.mpr ⟨item, storeRaising_ok.mpr
      (validateSession_iff.mpr ⟨recorded_of_extension hk, rfl⟩),
    Except.seq_ok.mpr ⟨guardThat_ok.mpr ⟨hsequence, hafter, hbefore⟩,
    Except.bind_ok.mpr ⟨row.kind, storeRaising_ok.mpr hk,
    Except.seq_ok.mpr ⟨guardThat_ok.mpr rfl, rfl⟩⟩⟩⟩⟩

/-- `history` reads a chain back. -/
theorem Chain.replay (h : Chain events items) : events.foldlM readEvent [] = .ok items := by
  induction h with
  | nil => rfl
  | snoc call updated kind h hread hne hk ih =>
      rw [List.foldlM_append, ih]
      refine Except.bind_ok.mpr ⟨_, rfl, Except.bind_ok.mpr ⟨_, ?_, rfl⟩⟩
      exact readEvent_of hread rfl rfl rfl hk

/-- What an event says of the session it records, and of the one before. -/
structure Entry (previous : Option ReviewSession) (number : ℕ) (event : EventRow)
    (item : ReviewSession) : Prop where
  sequence : event.sequence = number
  kind : event.kind = kindAt number
  document : ReviewDocuments.session event.document = some item
  before : event.beforeDigest = previous.map contentDigest
  after : event.afterDigest = contentDigest item
  legal : validateExtension previous item = .ok event.kind

/-- One entry of a chain. -/
theorem Chain.entry (h : Chain events items) : ∀ earlier item, earlier ++ [item] <+: items →
    ∃ event, events[earlier.length]? = some event ∧
      Entry earlier.getLast? (earlier.length + 1) event item := by
  induction h with
  | nil => exact fun earlier item hp => absurd (List.prefix_nil.mp hp) (by simp)
  | snoc call updated kind h hread hne hk ih =>
      intro earlier item hp
      rcases List.prefix_concat_iff.mp hp with heq | hp
      · obtain ⟨rfl, hitem⟩ := List.append_inj' heq rfl
        obtain rfl := List.singleton_inj.mp hitem
        refine ⟨eventOf call item earlier.getLast? kind (earlier.length + 1), ?_,
          { sequence := rfl
            kind := ((legal_of_extension hk).inTurn hne h.inTurn).1
            document := hread
            before := rfl
            after := rfl
            legal := hk }⟩
        rw [← h.length, List.getElem?_concat_length]
      · obtain ⟨event, hevent, hentry⟩ := ih earlier item hp
        exact ⟨event, by rw [List.getElem?_append_left (List.getElem?_eq_some_iff.mp hevent).1,
          hevent], hentry⟩

/-! ## 3. The store -/

/-- The snapshot of a session that is the last of `length`. -/
def snapshotOf (length : ℕ) (session : ReviewSession) : SessionRow where
  document := ReviewDocuments.sessionJson session
  digest := contentDigest session
  sequence := length
  formatVersion := 1

/-- What entitles a session to its place: its scope, its size, its registration, its parent. -/
structure Authorised (store : Store) (scope : ReviewScope) (session : ReviewSession) : Prop where
  unit : session.seed.scope = scope
  size : (ReviewDocuments.sessionJson session).utf8ByteSize ≤ maxSessionBytes
  granted : ∃ registration parent,
    AList.lookup scope store.registrations = some registration ∧
    registration.seedDigest = contentDigest session.seed ∧
    AList.lookup (scope.tenantId, registration.budgetId) store.budgets = some parent ∧
    parent.workItemId = scope.workItemId

/-- A unit's events record the sessions, and the snapshot holds the last of them. -/
structure Chronicle (store : Store) (scope : ReviewScope) (items : List ReviewSession) :
    Prop where
  chain : Chain (store.events.filter (·.scope = scope)) items
  snapshot : AList.lookup scope store.sessions = items.getLast?.map (snapshotOf items.length)
  authority : ∀ session, items.getLast? = some session → Authorised store scope session

/-- Every unit of a store has a chronicle. -/
def Chronicled (store : Store) : Prop :=
  ∀ scope, ∃ items, Chronicle store scope items

variable {store store' : Store} {scope : ReviewScope} {session : ReviewSession} {call : Call}
  {reading : Reading} {kind : TransitionKind}

theorem decode_snapshot (hread : session.ReadsBack) (hr : Recorded session)
    (hsize : (ReviewDocuments.sessionJson session).utf8ByteSize ≤ maxSessionBytes)
    (length : ℕ) : decode (snapshotOf length session) = .ok session := by
  have hvalid : storeRaising (validateSession session) = .ok session :=
    storeRaising_ok.mpr (validateSession_iff.mpr ⟨hr, rfl⟩)
  exact Except.seq_ok.mpr ⟨guardThat_ok.mpr ⟨rfl, hsize⟩,
    Except.bind_ok.mpr ⟨session, modelValidateJson_ok.mpr hread,
    Except.bind_ok.mpr ⟨session, hvalid, Except.seq_ok.mpr ⟨guardThat_ok.mpr rfl, rfl⟩⟩⟩⟩

theorem Chronicle.decode (h : Chronicle store scope items) (hl : items.getLast? = some session) :
    NokincFactory.decode (snapshotOf items.length session) = .ok session :=
  decode_snapshot (h.chain.last hl).1 (h.chain.last hl).2 (h.authority session hl).size _

/-- The snapshot of a unit decodes to the last session of its chronicle. -/
theorem Chronicle.decodeRow (h : Chronicle store scope items) :
    NokincFactory.decodeRow (AList.lookup scope store.sessions) = .ok items.getLast? := by
  rw [h.snapshot]
  cases hl : items.getLast? with
  | none => rfl
  | some session => exact Except.bind_ok.mpr ⟨session, h.decode hl, rfl⟩

theorem Chronicle.nextSequence (h : Chronicle store scope items) :
    NokincFactory.nextSequence (AList.lookup scope store.sessions) = items.length + 1 := by
  rw [h.snapshot]
  cases hl : items.getLast? with
  | none =>
      rw [List.getLast?_eq_none_iff.mp hl]
      rfl
  | some session => rfl

/-- The snapshot agrees with the latest event. -/
theorem Chronicle.checkTip (h : Chronicle store scope items) :
    NokincFactory.checkTip store scope (AList.lookup scope store.sessions) = .ok () := by
  unfold NokincFactory.checkTip tip
  rw [h.chain.tip, h.snapshot]
  cases hl : items.getLast? with
  | none =>
      have hnil := List.getLast?_eq_none_iff.mp hl
      have hlength := h.chain.length
      rw [hnil] at hlength
      rw [List.length_eq_zero_iff.mp hlength]
      rfl
  | some session =>
      obtain ⟨event, hevent, hsequence, hafter, hdocument⟩ := h.chain.lastEvent hl
      rw [hevent]
      exact guardThat_ok.mpr ⟨hsequence.symm, hafter.symm, hdocument.symm⟩

/-- What a transaction read of a unit with a chronicle is the end of it. -/
theorem Chronicle.opened (h : Chronicle store call.scope items)
    (ho : Opened store call call.updated reading) :
    reading.current = items.getLast? ∧
      NokincFactory.nextSequence reading.row = items.length + 1 := by
  have hcurrent := ho.current
  rw [← ho.row, h.decodeRow] at hcurrent
  refine ⟨(Except.ok.inj hcurrent).symm, ?_⟩
  rw [← ho.row]
  exact h.nextSequence

/-! ## 4. One call -/

/-- The units that a write does not concern keep their authority. -/
theorem Authorised.written (h : Authorised store scope session)
    (ho : Opened store call call.updated reading) (values : Counter → ℤ) :
    Authorised (store.written call call.updated reading kind values) scope session := by
  obtain ⟨registration, parent, hr, hs, hp, hw⟩ := h.granted
  refine ⟨h.unit, h.size, registration, ?_⟩
  by_cases hk : (scope.tenantId, registration.budgetId) =
      (call.scope.tenantId, call.parentBudgetId)
  · refine ⟨{ reading.parent with counters := values }, hr, hs, ?_, ?_⟩
    · rw [hk]
      exact AList.lookup_insert _
    · rw [hk] at hp
      obtain rfl := Option.some.inj (ho.parent.symm.trans hp)
      exact hw
  · exact ⟨parent, hr, hs, (AList.lookup_insert_ne hk).trans hp, hw⟩

/-- What a call wrote is entitled to its place. -/
theorem Committed.authorised (h : Committed store call reading kind store')
    (values : Counter → ℤ) :
    Authorised (store.written call call.updated reading kind values) call.scope call.updated := by
  obtain ⟨registration, hr, hb, hs⟩ := h.opened.registered
  refine ⟨h.scope, h.size, registration, { reading.parent with counters := values }, hr, hs, ?_,
    h.opened.workItem⟩
  rw [hb]
  exact AList.lookup_insert _

/-- The unit of a call that wrote. -/
theorem Chronicle.commit (h : Chronicle store call.scope items)
    (hc : Committed store call reading kind store') (hread : call.updated.ReadsBack) :
    Chronicle store' call.scope (items ++ [call.updated]) := by
  obtain ⟨hcurrent, hnext⟩ := h.opened hc.opened
  have hne := hc.changed
  have hk := hc.wrote.extension
  rw [hcurrent] at hne hk
  rw [hc.wrote.result]
  refine ⟨?_, ?_, fun session hl => ?_⟩
  · unfold Store.written
    rw [List.filter_append, List.filter_cons_of_pos, List.filter_nil, hnext, hcurrent]
    · exact h.chain.snoc call call.updated kind hread hne hk
    · exact decide_eq_true hc.scope
  · rw [List.getLast?_concat, List.length_append]
    unfold Store.written
    rw [hnext]
    exact AList.lookup_insert _
  · rw [List.getLast?_concat] at hl
    obtain rfl := Option.some.inj hl
    exact hc.authorised _

/-- The units of other scopes. -/
theorem Chronicle.other (h : Chronicle store scope items)
    (hc : Committed store call reading kind store') (hne : scope ≠ call.scope) :
    Chronicle store' scope items := by
  rw [hc.wrote.result]
  refine ⟨?_, ?_, fun session hl => (h.authority session hl).written hc.opened _⟩
  · unfold Store.written
    rw [List.filter_append, List.filter_cons_of_neg, List.filter_nil, List.append_nil]
    · exact h.chain
    · intro heq
      exact hne ((of_decide_eq_true heq).symm.trans hc.scope)
  · exact (AList.lookup_insert_ne hne).trans h.snapshot

theorem Chronicled.commit (h : Chronicled store) (hc : Committed store call reading kind store')
    (hread : call.updated.ReadsBack) : Chronicled store' := by
  intro scope
  by_cases hs : scope = call.scope
  · subst hs
    obtain ⟨items, hitems⟩ := h call.scope
    exact ⟨_, hitems.commit hc hread⟩
  · obtain ⟨items, hitems⟩ := h scope
    exact ⟨items, hitems.other hc hs⟩

/-- One call, whatever it answers or raises. -/
theorem Chronicled.serve (h : Chronicled store) (hread : call.updated.ReadsBack) :
    Chronicled (store.serve call) := by
  unfold Store.serve
  cases hc : compareAndReserve store call with
  | error e => exact h
  | ok answer =>
      obtain ⟨wrote, store'⟩ := answer
      rcases compareAndReserve_ok hc with ⟨-, rfl, -⟩ | ⟨-, reading, kind, hcommitted⟩
      · exact h
      · exact h.commit hcommitted hread

/-- Any sequence of calls. -/
theorem Chronicled.served (h : Chronicled store) {calls : List Call}
    (hread : ∀ call ∈ calls, call.updated.ReadsBack) : Chronicled (store.served calls) :=
  List.foldlRecOn calls Store.serve h fun _ hs call hc => hs.serve (hread call hc)

theorem chronicled_empty (hs : store.sessions = ∅) (he : store.events = []) :
    Chronicled store := by
  refine fun scope => ⟨[], ?_, ?_, fun session hl => ?_⟩
  · rw [he]
    exact .nil
  · rw [hs]
    rfl
  · cases hl

/-! ## 5. The readers -/

variable {worker : Worker}

/-- `history` answers the chronicle of a unit. -/
theorem Chronicle.history (h : Chronicle store scope items) (hl : items.getLast? = some session)
    (ht : transaction worker scope = .ok ()) :
    NokincFactory.history store worker scope = .ok items := by
  obtain ⟨registration, parent, hr, -, -, -⟩ := (h.authority session hl).granted
  refine Except.seq_ok.mpr ⟨ht, Except.bind_ok.mpr
    ⟨registration, findRegistration_ok.mpr hr, ?_⟩⟩
  unfold auditTrail
  rw [h.chain.ordered]
  exact h.chain.replay

/-- `load_current` answers the end of it. -/
theorem Chronicle.loadCurrent (h : Chronicle store scope items)
    (hl : items.getLast? = some session) (ht : transaction worker scope = .ok ()) :
    NokincFactory.loadCurrent store worker scope = .ok (some session) := by
  obtain ⟨registration, parent, hr, hs, hp, -⟩ := (h.authority session hl).granted
  have hbudget : lockBudget store scope registration = .ok () := by
    refine guardThat_ok.mpr ?_
    rw [hp]
    rfl
  refine Except.seq_ok.mpr ⟨ht, Except.bind_ok.mpr ⟨registration, findRegistration_ok.mpr hr,
    Except.seq_ok.mpr ⟨hbudget, Except.seq_ok.mpr ⟨h.checkTip, ?_⟩⟩⟩⟩
  rw [h.snapshot, hl]
  exact Except.bind_ok.mpr ⟨session, h.decode hl,
    Except.seq_ok.mpr ⟨guardThat_ok.mpr ⟨(h.authority session hl).unit, hs.symm⟩, rfl⟩⟩

/-- The events of a unit against the sessions that `history` answers. -/
structure Faithful (trail : List EventRow) (items : List ReviewSession) : Prop where
  length : trail.length = items.length
  entry : ∀ earlier item, earlier ++ [item] <+: items →
    ∃ event, trail[earlier.length]? = some event ∧
      Entry earlier.getLast? (earlier.length + 1) event item

theorem Chronicle.faithful (h : Chronicle store scope items) :
    Faithful (auditTrail store scope) items := by
  unfold auditTrail
  rw [h.chain.ordered]
  exact ⟨h.chain.length, h.chain.entry⟩

omit [Sha256] [Pydantic] [ReviewDocuments] in
/-- A worker of the tenant, whose role neither bypasses row security nor may rewrite the past. -/
theorem transaction_ok : transaction worker scope = .ok () ↔
    scope.tenantId = worker.grant.tenantId ∧ worker.bypasses = false ∧
      worker.unsafeTables = false := by
  unfold transaction
  rw [Except.seq_ok, Except.seq_ok, guardThat_ok, guardThat_ok, guardThat_ok]

end History

/-- **The event log is a faithful history**: after any calls on empty sessions and events,
whatever they answered or raised, both readers succeed for every stored session; the events are
numbered from 1, CREATE first and then RESERVE and COMPLETE in turn, each the legal successor of
the one before under matching digests, and the last of them is what `load_current` answers. -/
theorem history_faithful [Sha256] [Pydantic] [ReviewDocuments] {store : Store}
    (hsessions : store.sessions = ∅) (hevents : store.events = []) {calls : List Call}
    (hread : ∀ call ∈ calls, call.updated.ReadsBack) {scope : ReviewScope} {row : SessionRow}
    (hrow : AList.lookup scope (store.served calls).sessions = some row) {worker : Worker}
    (hworker : transaction worker scope = .ok ()) :
    ∃ items session, history (store.served calls) worker scope = .ok items ∧
      loadCurrent (store.served calls) worker scope = .ok (some session) ∧
      items.getLast? = some session ∧ Faithful (auditTrail (store.served calls) scope) items := by
  obtain ⟨items, hitems⟩ := (chronicled_empty hsessions hevents).served hread scope
  have hsnapshot := hitems.snapshot
  rw [hrow] at hsnapshot
  obtain ⟨session, hl, -⟩ := Option.map_eq_some_iff.mp hsnapshot.symm
  exact ⟨items, session, hitems.history hl hworker, hitems.loadCurrent hl hworker, hl,
    hitems.faithful⟩

open Fixture in
theorem history_settled :
    ∃ items session, history (provisioned.served calls) worker scope = .ok items ∧
      loadCurrent (provisioned.served calls) worker scope = .ok (some session) ∧
      items.getLast? = some session ∧
      Faithful (auditTrail (provisioned.served calls) scope) items := by
  obtain ⟨row, hrow, -⟩ := Option.map_eq_some_iff.mp calls_served.2
  exact history_faithful provisioned_unused.sessions provisioned_unused.events calls_readBack
    hrow (transaction_ok.mpr ⟨rfl, rfl, rfl⟩)

end NokincFactory
