/-
  File:      NokincFactory/Chat/Postgres.lean
  Subject:   The turns of a tenant over the database: the advisory lock on its budget makes the
             count and the commit of a reservation one step.

  * `sqlProtocol`, `postgres_follows`: the methods follow the lock;
  * `Place`: what the stage of a turn says of its transaction;
  * `Budgeted`: the places of all turns, and that a lock has one holder;
  * `sql_step`: what one statement does to it, and to the reservations.
-/
import NokincFactory.Adapters.PostgresWorkflowStore
import NokincFactory.Chat.Metering

namespace NokincFactory

open PostgresWorkflowStore

/-! ## 1. The methods -/

/-- Where a turn stands after a commit that was answered. -/
def TurnStage.committed : TurnStage → TurnStage
  | .inserted => .granted maxModelCallsPerTurn
  | s => s.settle

/-- The protocol of a turn of a tenant at the database. -/
def sqlProtocol (tenantId : Identifier) (limit : ℕ) :
    Protocol SqlAsk SqlAsk.Answer TurnStage where
  allows s
    | .insertEvent row => row.kind = .chatTurnReserved →
        row.tenantId = tenantId ∧ ∃ used, s = .counted used ∧ used < limit
    | _ => True
  next s
    | .begin, .ok _ => s.settle
    | .advisoryLock key, .ok _ => if s = .idle ∧ key = budgetKey tenantId then .locked else s
    | .countReserved counted, .ok (used : ℕ) =>
        if s = .locked ∧ counted = tenantId then .counted used else s
    | .insertEvent row, .ok _ => if row.kind = .chatTurnReserved then .inserted else s
    | .commit, .ok _ => s.committed
    | .commit, .error _ => s.settle
    | .rollback, _ => s.settle
    | _, _ => s

namespace PostgresWorkflowStore

variable {tenantId : Identifier} {limit : ℕ} {s : TurnStage}

theorem follows_execute {r : SqlAsk} {Q : Except Failure r.Value → TurnStage → Prop} :
    (turnProtocol (sqlProtocol tenantId limit)).Follows s (execute r) Q ↔
      (sqlProtocol tenantId limit).allows s r ∧
        ∀ a, Q a ((sqlProtocol tenantId limit).next s r a) :=
  and_congr_right fun _ => forall_congr' fun _ => Protocol.follows_ofExcept

theorem quiet_openTransaction (other : Identifier) :
    Quiet (sqlProtocol tenantId limit) s (openTransaction other) :=
  Quiet.bind (follows_execute.mpr ⟨trivial, fun _ => rfl⟩) fun _ =>
    (quiet_insist _ _).bind fun _ => follows_execute.mpr ⟨trivial, fun _ => rfl⟩

/-- A transaction of a turn that begins settled: what the body ends at is committed, or it is
rolled back. -/
theorem transaction_follows {α : Type} {body : SqlProg α} {other : Identifier}
    {M : TurnStage → Prop} {Q : Except Failure α → TurnStage → Prop} (hs : s.settle = s)
    (hbody : (turnProtocol (sqlProtocol tenantId limit)).Follows s body
      fun r s' => s'.settle = s ∧ (∀ a, r = .ok a → M s'))
    (hfail : ∀ e, Q (.error e) s) (hok : ∀ a s', M s' → Q (.ok a) s'.committed) :
    (turnProtocol (sqlProtocol tenantId limit)).Follows s (transaction other body) Q := by
  unfold transaction
  refine Protocol.follows_bind.mpr (follows_execute.mpr ⟨trivial, fun a => ?_⟩)
  cases a with
  | error e => exact hfail e
  | ok _ =>
      show (turnProtocol (sqlProtocol tenantId limit)).Follows s.settle _ _
      rw [hs]
      have hrollback : ∀ (e : Failure) s', s'.settle = s →
          (turnProtocol (sqlProtocol tenantId limit)).Follows s' (do
            let _ ← (execute .rollback).attempt
            .raise e : SqlProg α) Q := by
        intro e s' hs'
        refine Protocol.follows_bind.mpr (Protocol.follows_attempt.mpr
          (follows_execute.mpr ⟨trivial, fun a => ?_⟩))
        show Q (.error e) s'.settle
        rw [hs']
        exact hfail e
      refine Protocol.follows_bind.mpr (Protocol.follows_attempt.mpr ?_)
      refine (quiet_openTransaction other).then (fun e => hrollback e s hs) fun _ => ?_
      refine hbody.weaken fun r s' h => ?_
      cases r with
      | error e => exact hrollback e s' h.1
      | ok value =>
          refine Protocol.follows_bind.mpr (follows_execute.mpr ⟨trivial, fun a => ?_⟩)
          cases a with
          | error e =>
              show Q (.error e) s'.settle
              rw [h.1]
              exact hfail e
          | ok _ => exact hok value s' (h.2 value rfl)

/-- A transaction that leaves the stage of a settled turn. -/
theorem quiet_transaction {α : Type} {body : SqlProg α} {other : Identifier} (hs : s.settle = s)
    (hbody : Quiet (sqlProtocol tenantId limit) s body) :
    Quiet (sqlProtocol tenantId limit) s (transaction other body) := by
  refine transaction_follows (M := fun s' => s' = s) hs (hbody.weaken fun r s' h => ?_)
    (fun _ => rfl) fun _ s' h => ?_
  · rw [h]
    exact ⟨hs, fun _ _ => rfl⟩
  · rw [h]
    cases s with
    | inserted => cases hs
    | idle => rfl
    | locked => cases hs
    | counted used => cases hs
    | granted n => rfl

section Methods

variable [Sha256] [ChatLibraries]

theorem quiet_ownItem (other workItemId actorId : Identifier) :
    Quiet (sqlProtocol tenantId limit) s (ownItem other workItemId actorId) := by
  refine Quiet.bind (follows_execute.mpr ⟨trivial, fun _ => rfl⟩) fun found => ?_
  cases found with
  | none => exact quiet_raise _
  | some row => exact (quiet_ofExcept _).bind fun _ => quiet_insist _ _

omit [Sha256] [ChatLibraries] in
/-- Inserting an event of another kind. -/
theorem quiet_insertEvent {row : WorkflowEventRow} (h : row.kind ≠ .chatTurnReserved) :
    Quiet (sqlProtocol tenantId limit) s (execute (.insertEvent row)) := by
  refine follows_execute.mpr ⟨fun hr => absurd hr h, fun a => ?_⟩
  cases a with
  | error e => rfl
  | ok _ => exact if_neg h

theorem createIntake_quiet (actorId : Identifier) (now : Datetime) (message : String)
    (repository : Option String) (repositories : List String)
    (analysisProfile : Option AnalysisProfile) :
    Quiet (sqlProtocol tenantId limit) .idle
      (createIntake tenantId actorId now message repository repositories analysisProfile) := by
  unfold createIntake
  refine (newIntake_follows actorId now message repository repositories analysisProfile).seq
    (fun _ _ h => h.2) ?_
  intro ⟨created, event⟩ s ⟨hkind, hs⟩
  rw [hs]
  have hintake : (eventRow event 1).kind ≠ .chatTurnReserved := by
    show event.kind ≠ _
    rw [hkind _ rfl]
    decide
  refine Quiet.bind (Quiet.attempt (quiet_transaction rfl ?_)) fun outcome => ?_
  · exact Quiet.bind (follows_execute.mpr ⟨trivial, fun _ => rfl⟩) fun _ =>
      quiet_insertEvent hintake
  · cases outcome with
    | ok _ => exact quiet_pure _
    | error failure =>
        cases failure with
        | integrity => exact quiet_raise _
        | turnLimit message => exact quiet_raise _
        | denied message => exact quiet_raise _
        | value message => exact quiet_raise _
        | assertion => exact quiet_raise _
        | http status detail => exact quiet_raise _
        | other => exact quiet_raise _

theorem get_quiet (workItemId : String) :
    Quiet (sqlProtocol tenantId limit) .idle (get tenantId workItemId) := by
  refine quiet_transaction rfl ?_
  refine Quiet.bind (follows_execute.mpr ⟨trivial, fun _ => rfl⟩) fun found => ?_
  cases found with
  | none => exact quiet_pure _
  | some row => exact (quiet_ofExcept _).bind fun _ => quiet_pure _

omit [Sha256] [ChatLibraries] in
/-- A lock on something else than the budget of a turn that waits for it. -/
theorem quiet_advisoryLock {key : String} (hs : s ≠ .idle) :
    Quiet (sqlProtocol tenantId limit) s (execute (.advisoryLock key)) := by
  refine follows_execute.mpr ⟨trivial, fun a => ?_⟩
  cases a with
  | error e => rfl
  | ok _ => exact if_neg fun h => hs h.1

theorem recordChatTurn_follows (n : ℕ) (workItemId actorId : Identifier) (audit : ChatTurnAudit)
    (now : Datetime) :
    (turnProtocol (sqlProtocol tenantId limit)).Follows (.granted n)
      (recordChatTurn tenantId workItemId actorId audit now) fun _ _ => True := by
  unfold recordChatTurn
  refine (newEvent_follows workItemId actorId _ now).seq (fun _ _ _ => trivial) ?_
  intro event s ⟨hkind, hs⟩
  rw [hs]
  have hrecorded : ∀ sequence, (eventRow event sequence).kind ≠ .chatTurnReserved := by
    intro sequence
    show event.kind ≠ _
    rw [(hkind event rfl).1]
    exact fun h => nomatch h
  have hbody : Quiet (sqlProtocol tenantId limit) (.granted n) (do
      ownItem tenantId workItemId actorId
      appendEvent event : SqlProg Unit) := by
    refine (quiet_ownItem _ _ _).bind fun _ => ?_
    refine Quiet.bind (quiet_advisoryLock fun h => nomatch h) fun _ => ?_
    exact Quiet.bind (follows_execute.mpr ⟨trivial, fun a => by cases a <;> rfl⟩) fun _ =>
      quiet_insertEvent (hrecorded _)
  exact (quiet_transaction rfl hbody).seq (fun _ _ _ => trivial) fun _ _ _ => trivial

omit [Sha256] [ChatLibraries] in
/-- Under the lock on its budget, the tenant's count is below the limit. -/
theorem checkTurnLimit_follows :
    (turnProtocol (sqlProtocol tenantId limit)).Follows .locked
      (checkTurnLimit tenantId (some (limit : ℤ)))
      fun r s => s.settle = .idle ∧ (r = .ok () → ∃ used, s = .counted used ∧ used < limit) := by
  unfold checkTurnLimit
  refine Protocol.follows_bind.mpr (follows_execute.mpr ⟨trivial, fun a => ?_⟩)
  cases a with
  | error e => exact ⟨rfl, fun h => nomatch h⟩
  | ok used =>
      have hcounted : (sqlProtocol tenantId limit).next .locked (.countReserved tenantId)
          (.ok used) = .counted used := if_pos ⟨rfl, rfl⟩
      rw [hcounted]
      exact Protocol.follows_insist.mpr ⟨fun hbelow => ⟨rfl, fun _ => ⟨used, rfl,
        Int.ofNat_lt.mp hbelow⟩⟩, fun _ => ⟨rfl, fun h => nomatch h⟩⟩

/-- The reservation is inserted only after a count below the limit. -/
theorem appendEvent_follows {event : WorkflowEvent} {used : ℕ}
    (hkind : event.kind = .chatTurnReserved) (htenant : event.tenantId = tenantId)
    (hbelow : used < limit) :
    (turnProtocol (sqlProtocol tenantId limit)).Follows (.counted used) (appendEvent event)
      fun r s => s.settle = .idle ∧ ∀ a, r = .ok a → s = .inserted := by
  unfold appendEvent
  refine (quiet_advisoryLock (s := .counted used) fun h => nomatch h).then
    (fun _ => ⟨rfl, fun _ h => nomatch h⟩) fun _ => ?_
  refine Quiet.then (follows_execute.mpr ⟨trivial, fun a => by cases a <;> rfl⟩)
    (fun _ => ⟨rfl, fun _ h => nomatch h⟩) fun sequence => ?_
  refine follows_execute.mpr ⟨fun _ => ⟨htenant, used, rfl, hbelow⟩, fun a => ?_⟩
  cases a with
  | error e => exact ⟨rfl, fun _ h => nomatch h⟩
  | ok _ =>
      have hinserted : (sqlProtocol tenantId limit).next (.counted used)
          (.insertEvent (eventRow event (sequence.getD 0 + 1))) (.ok ()) = .inserted := if_pos hkind
      rw [hinserted]
      exact ⟨rfl, fun _ _ => rfl⟩

theorem reserveChatTurn_follows (workItemId actorId : Identifier)
    (reservation : ChatTurnReservation) (now : Datetime) :
    (turnProtocol (sqlProtocol tenantId limit)).Follows .idle
      (reserveChatTurn tenantId workItemId actorId reservation (some (limit : ℤ)) now)
      Reserves := by
  unfold reserveChatTurn
  refine (quiet_insist _ _).then (fun e => reserves_error e _) fun _ => ?_
  refine (newEvent_follows workItemId actorId _ now).seq (fun e s _ => reserves_error e s) ?_
  intro event s ⟨hevent, hs⟩
  rw [hs]
  obtain ⟨hkind, htenant⟩ := hevent event rfl
  refine Protocol.Follows.seq (M := fun r s => ∀ a, r = .ok a → s = .granted maxModelCallsPerTurn)
    ?_ (fun e s _ => reserves_error e s) fun a s h => Protocol.follows_pure.mpr fun _ _ => h a rfl
  refine transaction_follows (M := fun s => s = .inserted) rfl ?_ (fun _ _ h => nomatch h) ?_
  · refine Protocol.follows_bind.mpr (follows_execute.mpr ⟨trivial, fun a => ?_⟩)
    cases a with
    | error e => exact ⟨rfl, fun _ h => nomatch h⟩
    | ok _ =>
        have hlocked : (sqlProtocol tenantId limit).next .idle (.advisoryLock (budgetKey tenantId))
            (.ok ()) = .locked := if_pos ⟨rfl, rfl⟩
        rw [hlocked]
        refine (quiet_ownItem _ _ _).then (fun _ => ⟨rfl, fun _ h => nomatch h⟩) fun _ => ?_
        refine checkTurnLimit_follows.seq (fun _ _ h => ⟨h.1, fun _ h => nomatch h⟩) ?_
        intro _ s hcounted
        obtain ⟨used, hs, hbelow⟩ := hcounted.2 rfl
        rw [hs]
        exact appendEvent_follows hkind htenant hbelow
  · intro a s hs _ _
    rw [hs]
    rfl

theorem postgres_follows : StoreFollows (sqlProtocol tenantId limit) postgresWorkflowStore
    tenantId limit where
  createIntake := createIntake_quiet
  get := get_quiet
  reserveChatTurn := reserveChatTurn_follows
  recordChatTurn := recordChatTurn_follows

end Methods

end PostgresWorkflowStore

/-! ## 2. The lock -/

section Lock

variable {ι : Type} [DecidableEq ι] [AdvisoryHash] {tenant : ι → Identifier} {limit : ℕ}
  {db db' : Database ι} {stage : ι → TurnStage}

/-- The reservations that a transaction has written. -/
def OpenTransaction.pending (t : OpenTransaction) : List WorkflowEventRow :=
  t.events.filter fun row => row.kind = .chatTurnReserved

/-- The transaction holds the lock on the budget of the tenant. -/
def OpenTransaction.HoldsBudget (t : OpenTransaction) (tenantId : Identifier) : Prop :=
  AdvisoryHash.hash (budgetKey tenantId) ∈ t.locks

/-- What the stage of a turn says of its transaction, with the reservations of its tenant. -/
def Place (tenantId : Identifier) (limit reserved : ℕ) (t : OpenTransaction) : TurnStage → Prop
  | .locked => t.HoldsBudget tenantId ∧ t.pending = []
  | .counted used => t.HoldsBudget tenantId ∧ t.pending = [] ∧ used = reserved
  | .inserted => t.HoldsBudget tenantId ∧ reserved < limit ∧
      ∃ row, t.pending = [row] ∧ row.tenantId = tenantId
  | _ => t.pending = []

/-- Every open transaction is where the stage of its turn says, and a lock has one holder. -/
structure Budgeted (tenant : ι → Identifier) (limit : ℕ) (db : Database ι)
    (stage : ι → TurnStage) : Prop where
  place : ∀ i t, db.transactions i = some t →
    Place (tenant i) limit (db.reserved (tenant i)).length t (stage i)
  exclusive : ∀ i j t t' key, db.transactions i = some t → db.transactions j = some t' →
    key ∈ t.locks → key ∈ t'.locks → i = j

omit [DecidableEq ι] in
/-- Settled, a turn says no more of its transaction than that it has written no reservation. -/
theorem place_settle {tenantId : Identifier} {reserved : ℕ} {t : OpenTransaction}
    {s : TurnStage} : Place tenantId limit reserved t s.settle ↔ t.pending = [] := by
  cases s <;> exact Iff.rfl

theorem Place.pending {tenantId : Identifier} {reserved : ℕ} {t : OpenTransaction}
    {s : TurnStage} (h : Place tenantId limit reserved t s) (hs : s ≠ .inserted) :
    t.pending = [] := by
  cases s with
  | idle => exact h
  | locked => exact h.2
  | counted used => exact h.2.1
  | inserted => exact absurd rfl hs
  | granted n => exact h

/-- A place stays while the locks and the written reservations of the transaction stay. -/
theorem Place.stays {tenantId : Identifier} {reserved : ℕ} {t t' : OpenTransaction}
    {s : TurnStage} (h : Place tenantId limit reserved t s)
    (hlocks : ∀ key ∈ t.locks, key ∈ t'.locks) (hpending : t'.pending = t.pending) :
    Place tenantId limit reserved t' s := by
  cases s with
  | idle => exact hpending.trans h
  | locked => exact ⟨hlocks _ h.1, hpending.trans h.2⟩
  | counted used => exact ⟨hlocks _ h.1, hpending.trans h.2.1, h.2.2⟩
  | inserted =>
      obtain ⟨row, hrow, htenant⟩ := h.2.2
      exact ⟨hlocks _ h.1, h.2.1, row, hpending.trans hrow, htenant⟩
  | granted n => exact hpending.trans h

/-- The transaction of one turn changes, with locks that no other holds. -/
theorem Budgeted.enter {i : ι} {t : Option OpenTransaction} {s : TurnStage}
    (h : Budgeted tenant limit db stage)
    (hlocks : ∀ t' ∈ t, ∀ key ∈ t'.locks, ∀ j, j ≠ i → ∀ u ∈ db.transactions j, key ∉ u.locks)
    (hplace : ∀ t' ∈ t, Place (tenant i) limit (db.reserved (tenant i)).length t' s) :
    Budgeted tenant limit (db.enter i t) (Function.update stage i s) := by
  have hself : (db.enter i t).transactions i = t := Function.update_self ..
  have hother : ∀ j, j ≠ i → (db.enter i t).transactions j = db.transactions j :=
    fun j hj => Function.update_of_ne hj ..
  refine ⟨fun j u hu => ?_, fun j k u u' key hu hu' hkey hkey' => ?_⟩
  · by_cases hji : j = i
    · cases hji
      rw [Function.update_self]
      exact hplace u (hself.symm.trans hu)
    · rw [Function.update_of_ne hji]
      exact h.place j u ((hother j hji).symm.trans hu)
  · by_cases hji : j = i
    · by_cases hki : k = i
      · rw [hji, hki]
      · cases hji
        exact absurd hkey' (hlocks u (hself.symm.trans hu) key hkey k hki u'
          ((hother k hki).symm.trans hu'))
    · by_cases hki : k = i
      · cases hki
        exact absurd hkey (hlocks u' (hself.symm.trans hu') key hkey' j hji u
          ((hother j hji).symm.trans hu))
      · exact h.exclusive j k u u' key ((hother j hji).symm.trans hu)
          ((hother k hki).symm.trans hu') hkey hkey'

/-- A transaction ends without a trace. -/
theorem Budgeted.ends {i : ι} {s : TurnStage} (h : Budgeted tenant limit db stage) :
    Budgeted tenant limit (db.enter i none) (Function.update stage i s) :=
  h.enter nofun nofun

omit [DecidableEq ι] in
/-- The locks of a transaction are its own. -/
theorem Budgeted.owns {i : ι} {t : OpenTransaction} (h : Budgeted tenant limit db stage)
    (ht : db.transactions i = some t) :
    ∀ key ∈ t.locks, ∀ j, j ≠ i → ∀ u ∈ db.transactions j, key ∉ u.locks :=
  fun key hkey j hj u hu hkey' => hj (h.exclusive j i u t key hu ht hkey' hkey)

/-- What a transaction writes of other kinds leaves its place. -/
theorem Budgeted.writes {i : ι} {t t' : OpenTransaction} (h : Budgeted tenant limit db stage)
    (ht : db.transactions i = some t) (hlocks : t'.locks = t.locks)
    (hpending : t'.pending = t.pending) :
    Budgeted tenant limit (db.enter i (some t')) (Function.update stage i (stage i)) := by
  refine h.enter (fun u hu => ?_) fun u hu => ?_
  · cases hu
    rw [hlocks]
    exact h.owns ht
  · cases hu
    exact (h.place i t ht).stays (fun key hkey => hlocks ▸ hkey) hpending

/-- What is asked without an effect. -/
theorem Budgeted.reads {i : ι} (h : Budgeted tenant limit db stage) :
    Budgeted tenant limit db (Function.update stage i (stage i)) := by
  rwa [Function.update_eq_self]

/-! ## 3. The commit -/

omit [DecidableEq ι] [AdvisoryHash] in
/-- The reservations for a tenant among what a transaction has written. -/
theorem filter_reserves (events : List WorkflowEventRow) (tenantId : Identifier) :
    events.filter (fun row => row.reserves tenantId) =
      (events.filter fun row => row.kind = .chatTurnReserved).filter
        fun row => row.tenantId = tenantId := by
  rw [List.filter_filter]
  refine List.filter_congr fun row _ => ?_
  unfold WorkflowEventRow.reserves
  rw [Bool.decide_and]

omit [AdvisoryHash] in
theorem reserved_commit (i : ι) (t : OpenTransaction) (tenantId : Identifier) :
    (db.commit i t).reserved tenantId = db.reserved tenantId ++
      (t.pending.filter fun row => row.tenantId = tenantId).map fun row => ⟨row, some i⟩ := by
  unfold Database.reserved Database.commit OpenTransaction.pending
  rw [List.filter_append, List.filter_map, ← filter_reserves]
  rfl

/-- The turns that reserved for a tenant. -/
def Database.reservers (db : Database ι) (tenantId : Identifier) : List (Option ι) :=
  (db.reserved tenantId).map (·.requester)

omit [DecidableEq ι] [AdvisoryHash] in
theorem Database.length_reservers (db : Database ι) (tenantId : Identifier) :
    (db.reservers tenantId).length = (db.reserved tenantId).length :=
  List.length_map ..

omit [AdvisoryHash] in
theorem Database.reservers_commit (i : ι) (t : OpenTransaction) (tenantId : Identifier) :
    (db.commit i t).reservers tenantId = db.reservers tenantId ++
      (t.pending.filter fun row => row.tenantId = tenantId).map fun _ => some i := by
  unfold Database.reservers
  rw [reserved_commit, List.map_append, List.map_map]
  rfl

/-- A commit: the other transactions stay where they are, since none of them counts under a
lock that the committed one holds. -/
theorem Budgeted.commit {i : ι} {t : OpenTransaction} {s : TurnStage}
    (h : Budgeted tenant limit db stage) (ht : db.transactions i = some t) :
    Budgeted tenant limit (db.commit i t) (Function.update stage i s) := by
  have hself : (db.commit i t).transactions i = none := Function.update_self ..
  have hother : ∀ j, j ≠ i → (db.commit i t).transactions j = db.transactions j :=
    fun j hj => Function.update_of_ne hj ..
  refine ⟨fun j u hu => ?_, fun j k u u' key hu hu' hkey hkey' => ?_⟩
  · have hji : j ≠ i := by
      intro e
      rw [e, hself] at hu
      cases hu
    rw [hother j hji] at hu
    rw [Function.update_of_ne hji]
    have hj := h.place j u hu
    -- a transaction that holds the lock of its tenant sees no reservation of another
    have hsame : u.HoldsBudget (tenant j) →
        ((db.commit i t).reserved (tenant j)).length = (db.reserved (tenant j)).length := by
      intro hholds
      have hnone : (t.pending.filter fun row => row.tenantId = tenant j) = [] := by
        by_cases hi : stage i = .inserted
        · have hplace := h.place i t ht
          rw [hi] at hplace
          obtain ⟨hlock, -, row, hrow, htenant⟩ := hplace
          rw [hrow]
          refine List.filter_eq_nil_iff.mpr fun r hr => ?_
          obtain rfl := List.mem_singleton.mp hr
          rw [htenant]
          refine fun e => hji ?_
          have he : tenant i = tenant j := of_decide_eq_true e
          refine h.exclusive j i u t _ hu ht hholds ?_
          rw [← he]
          exact hlock
        · rw [(h.place i t ht).pending hi]
          rfl
      rw [reserved_commit, hnone, List.map_nil, List.append_nil]
    cases hs : stage j with
    | idle =>
        rw [hs] at hj
        exact hj
    | locked =>
        rw [hs] at hj
        exact hj
    | counted used =>
        rw [hs] at hj
        exact ⟨hj.1, hj.2.1, hj.2.2.trans (hsame hj.1).symm⟩
    | inserted =>
        rw [hs] at hj
        exact ⟨hj.1, by rw [hsame hj.1]; exact hj.2.1, hj.2.2⟩
    | granted n =>
        rw [hs] at hj
        exact hj
  · have hji : j ≠ i := by
      intro e
      rw [e, hself] at hu
      cases hu
    have hki : k ≠ i := by
      intro e
      rw [e, hself] at hu'
      cases hu'
    exact h.exclusive j k u u' key ((hother j hji).symm.trans hu) ((hother k hki).symm.trans hu')
      hkey hkey'

/-- What a commit adds to the reservations of a tenant. -/
theorem Budgeted.commit_effect {tenantId : Identifier} {i : ι} {t : OpenTransaction}
    {s : TurnStage} (h : Budgeted tenant limit db stage) (ht : db.transactions i = some t)
    (hs : s.left ≤ (stage i).left + maxModelCallsPerTurn)
    (hkept : stage i ≠ .inserted → s.left ≤ (stage i).left) :
    StoreEffect (tenant i = tenantId) limit i (db.reservers tenantId)
      ((db.commit i t).reservers tenantId) (stage i) s := by
  rw [Database.reservers_commit]
  have hplace := h.place i t ht
  by_cases hi : stage i = .inserted
  · rw [hi] at hplace
    obtain ⟨-, hbelow, row, hrow, htenant⟩ := hplace
    rw [hrow]
    by_cases hown : tenant i = tenantId
    · refine .inr ⟨?_, ?_, hs⟩
      · rw [List.filter_cons_of_pos (by simpa using htenant.trans hown), List.filter_nil]
        rfl
      · rw [Database.length_reservers, ← hown]
        exact hbelow
    · refine .inl ⟨?_, fun h => absurd h hown⟩
      rw [List.filter_cons_of_neg (by rw [htenant]; simpa using hown), List.filter_nil,
        List.map_nil, List.append_nil]
  · refine .inl ⟨?_, fun _ => hkept hi⟩
    rw [hplace.pending hi]
    exact List.append_nil _

/-! ## 4. The statements -/

omit [DecidableEq ι] [AdvisoryHash] in
theorem TurnStage.left_committed_le (s : TurnStage) :
    s.committed.left ≤ s.left + maxModelCallsPerTurn := by
  cases s with
  | inserted => exact Nat.le_add_left _ _
  | idle => exact Nat.zero_le _
  | locked => exact Nat.zero_le _
  | counted used => exact Nat.zero_le _
  | granted n => exact Nat.le_add_right n _

omit [DecidableEq ι] [AdvisoryHash] in
theorem TurnStage.committed_of_ne {s : TurnStage} (hs : s ≠ .inserted) :
    s.committed = s.settle := by
  cases s with
  | inserted => exact absurd rfl hs
  | idle => rfl
  | locked => rfl
  | counted used => rfl
  | granted n => rfl

/-- A statement that is answered without an effect on the database. -/
theorem Budgeted.answered {tenantId : Identifier} {i : ι} {s : TurnStage}
    (h : Budgeted tenant limit db stage) (hs : s = stage i) :
    Budgeted tenant limit db (Function.update stage i s) ∧
      StoreEffect (tenant i = tenantId) limit i (db.reservers tenantId) (db.reservers tenantId)
        (stage i) s := by
  rw [hs]
  exact ⟨h.reads, effect_same rfl le_rfl⟩

/-- A transaction that ends without a trace, at a settled stage. -/
theorem Budgeted.ended {tenantId : Identifier} {i : ι}
    (h : Budgeted tenant limit db stage) :
    Budgeted tenant limit (db.enter i none) (Function.update stage i (stage i).settle) ∧
      StoreEffect (tenant i = tenantId) limit i (db.reservers tenantId)
        ((db.enter i none).reservers tenantId) (stage i) (stage i).settle :=
  ⟨h.ends, effect_same rfl (TurnStage.left_settle _).le⟩

/-- What one statement of a turn does. -/
theorem sql_step {tenantId : Identifier} {i : ι} {r : SqlAsk} {a : r.Answer}
    (h : Budgeted tenant limit db stage)
    (hallows : (sqlProtocol (tenant i) limit).allows (stage i) r)
    (hanswers : Database.Answers db i r a db') :
    Budgeted tenant limit db'
        (Function.update stage i ((sqlProtocol (tenant i) limit).next (stage i) r a)) ∧
      StoreEffect (tenant i = tenantId) limit i (db.reservers tenantId) (db'.reservers tenantId)
        (stage i) ((sqlProtocol (tenant i) limit).next (stage i) r a) := by
  cases hanswers with
  | begin =>
      show Budgeted tenant limit _ (Function.update stage i (stage i).settle) ∧
        StoreEffect _ limit i _ _ _ (stage i).settle
      refine ⟨h.enter (fun t ht => ?_) (fun t ht => ?_),
        effect_same rfl (TurnStage.left_settle _).le⟩
      · cases ht
        exact nofun
      · cases ht
        exact place_settle.mpr rfl
  | unsafeRole bypasses => exact h.answered rfl
  | setTenant other => exact h.answered rfl
  | advisoryLock key t ht hfree =>
      show Budgeted tenant limit _ (Function.update stage i
          (if stage i = .idle ∧ key = budgetKey (tenant i) then .locked else stage i)) ∧
        StoreEffect _ limit i _ _ _
          (if stage i = .idle ∧ key = budgetKey (tenant i) then .locked else stage i)
      have hlocks : ∀ t' ∈ some { t with locks := AdvisoryHash.hash key :: t.locks },
          ∀ k ∈ t'.locks, ∀ j, j ≠ i → ∀ u ∈ db.transactions j, k ∉ u.locks := by
        intro t' ht' k hk j hj u hu
        cases ht'
        rcases List.mem_cons.mp hk with hk | hk
        · rw [hk]
          exact hfree j hj u hu
        · exact h.owns ht k hk j hj u hu
      have hplace := h.place i t ht
      by_cases hbudget : stage i = .idle ∧ key = budgetKey (tenant i)
      · rw [if_pos hbudget]
        refine ⟨h.enter hlocks fun t' ht' => ?_, effect_same rfl (Nat.zero_le _)⟩
        cases ht'
        rw [hbudget.1] at hplace
        refine ⟨?_, hplace⟩
        rw [hbudget.2]
        exact List.mem_cons_self
      · rw [if_neg hbudget]
        refine ⟨h.enter hlocks fun t' ht' => ?_, effect_same rfl le_rfl⟩
        cases ht'
        exact hplace.stays (fun k hk => List.mem_cons_of_mem _ hk) rfl
  | selectItem other workItemId t ht => exact h.answered rfl
  | countReserved counted t ht =>
      show Budgeted tenant limit db (Function.update stage i
          (if stage i = .locked ∧ counted = tenant i then _ else stage i)) ∧
        StoreEffect _ limit i _ _ _ (if stage i = .locked ∧ counted = tenant i then _ else stage i)
      by_cases hlocked : stage i = .locked ∧ counted = tenant i
      · have hplace := h.place i t ht
        rw [hlocked.1] at hplace
        have hown : (t.events.filter fun row => row.reserves (tenant i)) = [] := by
          rw [filter_reserves, show t.events.filter (fun row => row.kind = .chatTurnReserved) = []
            from hplace.2]
          rfl
        rw [if_pos hlocked, hlocked.2, hown]
        refine ⟨⟨fun j u hu => ?_, h.exclusive⟩, effect_same rfl (Nat.zero_le _)⟩
        by_cases hji : j = i
        · cases hji
          cases Option.some.inj (hu.symm.trans ht)
          rw [Function.update_self]
          exact ⟨hplace.1, hplace.2, Nat.add_zero _⟩
        · rw [Function.update_of_ne hji]
          exact h.place j u hu
      · rw [if_neg hlocked]
        exact h.answered rfl
  | maxSequence other workItemId t ht => exact h.answered rfl
  | insertItem row t ht hnew =>
      exact ⟨h.writes ht rfl rfl, effect_same rfl le_rfl⟩
  | insertEvent row t ht hnew =>
      show Budgeted tenant limit _ (Function.update stage i
          (if row.kind = .chatTurnReserved then .inserted else stage i)) ∧
        StoreEffect _ limit i _ _ _ (if row.kind = .chatTurnReserved then .inserted else stage i)
      by_cases hkind : row.kind = .chatTurnReserved
      · obtain ⟨htenant, used, hcounted, hbelow⟩ := hallows hkind
        have hplace := h.place i t ht
        rw [hcounted] at hplace
        rw [if_pos hkind]
        refine ⟨h.enter (fun t' ht' => ?_) (fun t' ht' => ?_), effect_same rfl (Nat.zero_le _)⟩
        · cases ht'
          show ∀ key ∈ t.locks, _
          exact h.owns ht
        · cases ht'
          refine ⟨hplace.1, hplace.2.2 ▸ hbelow, row, ?_, htenant⟩
          show (t.events ++ [row]).filter _ = [row]
          rw [List.filter_append, show t.events.filter _ = [] from hplace.2.1,
            List.filter_cons_of_pos (by simpa using hkind), List.filter_nil, List.nil_append]
      · rw [if_neg hkind]
        refine ⟨h.writes ht rfl ?_, effect_same rfl le_rfl⟩
        show (t.events ++ [row]).filter _ = _
        rw [List.filter_append, List.filter_cons_of_neg (by simpa using hkind), List.filter_nil,
          List.append_nil]
        rfl
  | selectItems other rows t ht hrows => exact h.answered rfl
  | selectEvents other workItemId t ht => exact h.answered rfl
  | commit t answer ht =>
      cases answer with
      | ok _ =>
          refine ⟨h.commit ht, h.commit_effect ht (TurnStage.left_committed_le _) fun hi => ?_⟩
          show (stage i).committed.left ≤ _
          rw [TurnStage.committed_of_ne hi, TurnStage.left_settle]
      | error e =>
          have hleft : (stage i).settle.left ≤ (stage i).left := (TurnStage.left_settle _).le
          exact ⟨h.commit ht, h.commit_effect ht (hleft.trans (Nat.le_add_right _ _)) fun _ => hleft⟩
  | commitFails e => exact h.ended
  | rollback answer => exact h.ended
  | fails r e hr =>
      cases r with
      | commit => exact absurd rfl hr.1
      | rollback => exact absurd rfl hr.2
      | begin => exact h.answered rfl
      | unsafeRole => exact h.answered rfl
      | setTenant other => exact h.answered rfl
      | advisoryLock key => exact h.answered rfl
      | selectItem other workItemId => exact h.answered rfl
      | countReserved other => exact h.answered rfl
      | maxSequence other workItemId => exact h.answered rfl
      | insertItem row => exact h.answered rfl
      | insertEvent row => exact h.answered rfl
      | selectItems other => exact h.answered rfl
      | selectEvents other workItemId => exact h.answered rfl

/-- What happens besides the turns reserves nothing. -/
theorem sql_change {tenantId : Identifier} (h : Budgeted tenant limit db stage)
    (hchanges : Database.Changes db db') :
    Budgeted tenant limit db' stage ∧ db'.reservers tenantId = db.reservers tenantId := by
  cases hchanges with
  | lost i =>
      have hends := h.ends (i := i) (s := stage i)
      rw [Function.update_eq_self] at hends
      exact ⟨hends, rfl⟩
  | item row => exact ⟨⟨h.place, h.exclusive⟩, rfl⟩
  | event row hkind =>
      have hsame : ∀ t, Database.reserved { db with events := db.events ++ [⟨row, none⟩] } t =
          db.reserved t := by
        intro t
        unfold Database.reserved WorkflowEventRow.reserves
        rw [List.filter_append, List.filter_cons_of_neg (by simp [hkind]), List.filter_nil,
          List.append_nil]
      refine ⟨⟨fun i t ht => ?_, h.exclusive⟩, ?_⟩
      · rw [hsame]
        exact h.place i t ht
      · unfold Database.reservers
        rw [hsame]

/-- No statement takes a committed event away. -/
theorem sql_keeps {i : ι} {r : SqlAsk} {a : r.Answer} (h : Database.Answers db i r a db') :
    db.events <+: db'.events := by
  cases h with
  | commit t answer ht => exact List.prefix_append _ _
  | begin => exact List.prefix_rfl
  | unsafeRole => exact List.prefix_rfl
  | setTenant => exact List.prefix_rfl
  | advisoryLock => exact List.prefix_rfl
  | selectItem => exact List.prefix_rfl
  | countReserved => exact List.prefix_rfl
  | maxSequence => exact List.prefix_rfl
  | insertItem => exact List.prefix_rfl
  | insertEvent => exact List.prefix_rfl
  | selectItems => exact List.prefix_rfl
  | selectEvents => exact List.prefix_rfl
  | commitFails => exact List.prefix_rfl
  | rollback => exact List.prefix_rfl
  | fails => exact List.prefix_rfl

end Lock

/-! ## 5. The turns -/

section Turns

variable {ι : Type} [DecidableEq ι] [Sha256] [ChatLibraries] [AdvisoryHash]

/-- Runs from a database without a reservation of the tenant, and without a transaction. -/
def sqlSurroundings (tenantId : Identifier) : Surroundings ι SqlAsk SqlAsk.Answer (Database ι) where
  start db := db.reserved tenantId = [] ∧ ∀ i, db.transactions i = none
  answers := Database.Answers
  changes := Database.Changes

theorem postgres_orderly {turns : ι → ChatTurn} {tenantId : Identifier} {limit : ℕ}
    (hlimit : ∀ i, (turns i).settings.chatModelTurnLimit = some limit)
    {run : List (Deed ι (ChatAsk SqlAsk) (ChatAsk.Answer SqlAsk.Answer))}
    {s : Database ι × (ι → SqlProg IntakeResponse)}
    (h : (chatting (sqlSurroundings tenantId) postgresWorkflowStore turns).Trace run s) :
    Surroundings.Orderly
      (fun i => turnProtocol (sqlProtocol (turns i).current.tenantId limit))
      (fun run db stage => Budgeted (fun i => (turns i).current.tenantId) limit db stage ∧
        Metered turns tenantId limit (db.reservers tenantId) run stage) run s := by
  refine metered_turns (fun db => db.reservers tenantId) hlimit
    (fun i => PostgresWorkflowStore.postgres_follows) ?_ ?_ ?_ ?_ h
  · intro db ⟨hnone, hidle⟩
    refine ⟨⟨fun i t ht => ?_, fun i j t t' key ht => ?_⟩, ?_⟩
    · rw [hidle i] at ht
      cases ht
    · rw [hidle i] at ht
      cases ht
    · rw [Database.length_reservers, hnone]
      exact Nat.zero_le _
  · intro db stage i hbudget hleft
    refine ⟨fun j t ht => ?_, hbudget.exclusive⟩
    by_cases hji : j = i
    · have hplace := hbudget.place j t ht
      rw [hji] at hplace ⊢
      rw [Function.update_self]
      cases hi : stage i with
      | granted n =>
          rw [hi] at hplace
          exact hplace
      | idle => rw [hi] at hleft; cases hleft
      | locked => rw [hi] at hleft; cases hleft
      | counted used => rw [hi] at hleft; cases hleft
      | inserted => rw [hi] at hleft; cases hleft
    · rw [Function.update_of_ne hji]
      exact hbudget.place j t ht
  · intro db stage i request answer db' hbudget hallows hanswers
    exact sql_step hbudget hallows hanswers
  · intro db stage db' hbudget hchanges
    exact sql_change hbudget hchanges

end Turns

end NokincFactory
