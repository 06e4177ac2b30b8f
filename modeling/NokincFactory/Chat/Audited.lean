/-
  File:      NokincFactory/Chat/Audited.lean
  Subject:   The trails of chat turns over both stores, along every interleaving.

  In memory an entry is kept once it is appended. In the database it waits in its transaction, and
  a commit that fails may have been made.

  * `memoryTrail`, `inMemory_trails`: the methods of the store in memory;
  * `sqlTrail`, `postgres_trails`: those of the database;
  * `turns_leave_trails`: both stores.
-/
import NokincFactory.Chat.Trail
import NokincFactory.Chat.InMemory
import NokincFactory.Chat.Postgres

namespace NokincFactory

/-! ## 1. In memory -/

/-- The event is filed under its own item. -/
def Filed (entry : ItemKey × WorkflowEvent) (e : WorkflowEvent) : Prop :=
  entry = ((e.tenantId, e.workItemId.text), e)

section Memory

variable [Sha256]

/-- The protocol of a turn at the store in memory: an event that is appended is kept. -/
def memoryTrail (turn : ChatTurn) :
    Protocol MemoryAsk MemoryAsk.Answer (TrailStage (ItemKey × WorkflowEvent)) where
  allows s
    | .append key event => s.pending = [] ∧ Permitted Filed turn s (key, event)
    | .setEvents key event => s.pending = [] ∧ Permitted Filed turn s (key, event)
    | _ => True
  next s
    | .append key event, .ok _ => s.keep (key, event)
    | .setEvents key event, .ok _ => s.keep (key, event)
    | _, _ => s

namespace InMemoryWorkflowStore

variable {turn : ChatTurn} {s : TrailStage (ItemKey × WorkflowEvent)}

/-- An access that writes no event. -/
theorem trail_access (r : MemoryAsk) (hallows : (memoryTrail turn).allows s r)
    (hnext : ∀ a, (memoryTrail turn).next s r a = s) :
    (trailProtocol Filed turn (memoryTrail turn)).Stays s (access r) := by
  refine ⟨hallows, fun a => Protocol.follows_ofExcept.mpr ?_⟩
  exact hnext a

/-- What runs under the lock. -/
theorem trail_locked {α : Type} {body : MemoryProg α}
    {Q : Except Failure α → TrailStage (ItemKey × WorkflowEvent) → Prop}
    (hfail : ∀ e s, Q (.error e) s)
    (hbody : (trailProtocol Filed turn (memoryTrail turn)).Follows s body Q) :
    (trailProtocol Filed turn (memoryTrail turn)).Follows s (locked body) Q := by
  unfold locked
  refine (trail_access .acquire trivial fun _ => rfl).then (fun e => hfail e s) fun _ => ?_
  refine Protocol.follows_bind.mpr (Protocol.follows_attempt.mpr (hbody.weaken fun r s' h => ?_))
  refine (trail_access .release trivial fun _ => rfl).then (fun e => hfail e s') fun _ => ?_
  exact Protocol.follows_ofExcept.mpr h

theorem trail_ownItem (key : ItemKey) (actorId : Identifier) :
    (trailProtocol Filed turn (memoryTrail turn)).Stays s (ownItem key actorId) :=
  (trail_access (.item key) trivial fun _ => rfl).bind fun _ => Protocol.stays_insist _ _

theorem trail_checkTurnLimit (tenantId : Identifier) (limit : Option ℤ) :
    (trailProtocol Filed turn (memoryTrail turn)).Stays s (checkTurnLimit tenantId limit) := by
  cases limit with
  | none => exact Protocol.stays_pure _
  | some limit =>
      exact (trail_access (.countReserved tenantId) trivial fun _ => rfl).bind fun _ =>
        Protocol.stays_insist _ _

/-- An event that is appended, where this is permitted. -/
theorem trail_append {key : ItemKey} {event : WorkflowEvent} (hs : s.Settled)
    (h : Permitted Filed turn s (key, event)) :
    (trailProtocol Filed turn (memoryTrail turn)).Follows s (access (.append key event))
      fun r s' => r = .ok () → s' = s.keep (key, event) := by
  refine ⟨⟨hs.1, h⟩, fun a => Protocol.follows_ofExcept.mpr fun ha => ?_⟩
  rw [ha]
  rfl

end InMemoryWorkflowStore

/-- A new event is the principal's own. -/
theorem newEvent_trails {S X : Type} {A : S → Type} {Shows : X → WorkflowEvent → Prop}
    {turn : ChatTurn} {P : Protocol S A (TrailStage X)} {s : TrailStage X} (item : Identifier)
    (payload : EventPayload) (now : Datetime) :
    (trailProtocol Shows turn P).Follows s (newEvent turn.current.tenantId item
      turn.current.subjectId payload now : ChatProg A WorkflowEvent)
      fun r s' => s' = s ∧ ∀ e, r = .ok e → e.By turn.current item ∧ e.payload = payload := by
  unfold newEvent
  refine stays_askUuid.then (fun _ => ⟨rfl, fun _ h => nomatch h⟩) fun eventId => ?_
  refine (Protocol.stays_ofExcept _).then (fun _ => ⟨rfl, fun _ h => nomatch h⟩) fun current => ?_
  refine ⟨rfl, fun e he => ?_⟩
  cases he
  exact ⟨⟨rfl, rfl, rfl⟩, rfl⟩

/-- A new item and its event are the principal's own. -/
theorem newIntake_trails {S X : Type} {A : S → Type} {Shows : X → WorkflowEvent → Prop}
    {turn : ChatTurn} {P : Protocol S A (TrailStage X)} {s : TrailStage X} (now : Datetime)
    (message : String) (repository : Option String) (repositories : List String)
    (analysisProfile : Option AnalysisProfile) :
    (trailProtocol Shows turn P).Follows s (newIntake turn.current.tenantId
      turn.current.subjectId now message repository repositories analysisProfile :
        ChatProg A (WorkflowItem × WorkflowEvent))
      fun r s' => s' = s ∧ ∀ made, r = .ok made →
        made.2.By turn.current made.1.workItemId ∧ ∃ digest, made.2.payload = .intake digest := by
  unfold newIntake
  refine (Protocol.stays_ofExcept _).then (fun _ => ⟨rfl, fun _ h => nomatch h⟩) fun current => ?_
  refine stays_askUuid.then (fun _ => ⟨rfl, fun _ h => nomatch h⟩) fun itemId => ?_
  refine stays_askUuid.then (fun _ => ⟨rfl, fun _ h => nomatch h⟩) fun eventId => ?_
  refine ⟨rfl, fun made hmade => ?_⟩
  cases hmade
  exact ⟨⟨rfl, rfl, rfl⟩, _, rfl⟩

/-- What stands alone is a trail: the intake of an item. -/
theorem permitted_intake {X : Type} {Shows : X → WorkflowEvent → Prop} {turn : ChatTurn}
    {item : Identifier} {digest : Digest} {x : X}
    (h : OwnEntry Shows turn.current item (.intake digest) x) : Permitted Shows turn .start x := by
  obtain ⟨e, hshows, hby, hpayload⟩ := h
  refine ⟨rfl, [e], item, .cons hshows .nil, .opening [e] (.inr ⟨e, rfl, hby, ?_⟩)⟩
  unfold WorkflowEvent.kind
  rw [hpayload]
  rfl

namespace InMemoryWorkflowStore

variable {turn : ChatTurn} {s : TrailStage (ItemKey × WorkflowEvent)}

omit [Sha256] in
/-- The principal's own event, under its item. -/
theorem entry_filed {item : Identifier} {payload : EventPayload} {e : WorkflowEvent}
    (hby : e.By turn.current item) (hpayload : e.payload = payload) :
    OwnEntry Filed turn.current item payload ((turn.current.tenantId, item.text), e) := by
  refine ⟨e, ?_, hby, hpayload⟩
  unfold Filed
  rw [hby.tenantId, hby.workItemId]

variable [ChatLibraries]

omit [ChatLibraries] in
theorem createIntake_trails (now : Datetime) (message : String) (repository : Option String)
    (repositories : List String) (analysisProfile : Option AnalysisProfile) :
    (trailProtocol Filed turn (memoryTrail turn)).Follows .start
      (createIntake turn.current.tenantId turn.current.subjectId now message repository
        repositories analysisProfile)
      fun r s => ∀ item, r = .ok item → ∃ x digest,
        OwnEntry Filed turn.current item.workItemId (.intake digest) x ∧
          s = TrailStage.start.keep x := by
  unfold createIntake
  refine (newIntake_trails now message repository repositories analysisProfile).seq
    (fun _ _ _ _ h => nomatch h) ?_
  intro ⟨created, event⟩ s ⟨hs, hmade⟩
  obtain ⟨hby, digest, hpayload⟩ := hmade _ rfl
  rw [hs]
  have hentry := entry_filed hby hpayload
  have hkept : (trailProtocol Filed turn (memoryTrail turn)).Follows .start (locked do
      access (.setItem (turn.current.tenantId, created.workItemId.text) created)
      access (.setEvents (turn.current.tenantId, created.workItemId.text) event) : MemoryProg Unit)
      fun r s => r = .ok () → s = TrailStage.start.keep
        ((turn.current.tenantId, created.workItemId.text), event) := by
    refine trail_locked (fun _ _ h => nomatch h) ?_
    refine (trail_access (.setItem _ _) trivial fun _ => rfl).then (fun _ h => nomatch h) ?_
    intro _
    refine ⟨⟨rfl, permitted_intake hentry⟩, fun a => Protocol.follows_ofExcept.mpr fun ha => ?_⟩
    rw [ha]
    rfl
  refine hkept.seq (fun _ _ _ _ h => nomatch h) fun _ s' hs' item hitem => ?_
  cases hitem
  exact ⟨_, digest, hentry, hs' rfl⟩

omit [ChatLibraries] in
theorem reserveChatTurn_trails (item : Identifier) (reservation : ChatTurnReservation)
    (limit : Option ℤ) (now : Datetime) (hs : s.Settled) :
    Appends Filed turn (memoryTrail turn) s item (.chatTurnReserved reservation)
      (reserveChatTurn turn.current.tenantId item turn.current.subjectId reservation limit
        now) := by
  intro hpermitted
  unfold reserveChatTurn
  refine (Protocol.stays_insist _ _).then (fun _ _ h => nomatch h) fun _ => ?_
  refine trail_locked (fun _ _ _ h => nomatch h) ?_
  refine (trail_ownItem _ _).then (fun _ _ h => nomatch h) fun _ => ?_
  refine (trail_checkTurnLimit _ _).then (fun _ _ h => nomatch h) fun _ => ?_
  refine (newEvent_trails item _ now).seq (fun _ _ _ _ h => nomatch h) ?_
  intro event s' ⟨hs', hevent⟩
  obtain ⟨hby, hpayload⟩ := hevent event rfl
  rw [hs']
  have hentry := entry_filed hby hpayload
  refine (trail_append hs (hpermitted _ hentry)).seq (fun _ _ _ _ h => nomatch h) ?_
  intro _ s'' hs'' e _
  exact ⟨_, hentry, hs'' rfl⟩

omit [ChatLibraries] in
theorem recordChatTurn_trails (item : Identifier) (audit : ChatTurnAudit) (now : Datetime)
    (hs : s.Settled) :
    Appends Filed turn (memoryTrail turn) s item (.chatTurnRecorded audit)
      (recordChatTurn turn.current.tenantId item turn.current.subjectId audit now) := by
  intro hpermitted
  unfold recordChatTurn
  refine (newEvent_trails item _ now).seq (fun _ _ _ _ h => nomatch h) ?_
  intro event s' ⟨hs', hevent⟩
  obtain ⟨hby, hpayload⟩ := hevent event rfl
  rw [hs']
  have hentry := entry_filed hby hpayload
  refine Protocol.Follows.seq (M := fun r s' => r = .ok () → s' = s.keep _) ?_
    (fun _ _ _ _ h => nomatch h) fun _ s'' hs'' e _ => ⟨_, hentry, hs'' rfl⟩
  refine trail_locked (fun _ _ h => nomatch h) ?_
  refine (trail_ownItem _ _).then (fun _ h => nomatch h) fun _ => ?_
  exact trail_append hs (hpermitted _ hentry)

theorem inMemory_trails :
    StoreTrails Filed turn (memoryTrail turn) inMemoryWorkflowStore where
  createIntake := createIntake_trails
  get _ := trail_locked (fun _ _ _ h => nomatch h)
    ((trail_access (.item _) trivial fun _ => rfl).weaken fun _ _ h _ _ => h)
  reserveChatTurn _ item _ limit now hs := reserveChatTurn_trails item _ limit now hs
  recordChatTurn _ item audit now hs := recordChatTurn_trails item audit now hs

end InMemoryWorkflowStore

end Memory

/-! ## 2. In the database -/

section Sql

variable [Sha256] [ChatLibraries]

/-- The row of an event, whatever its sequence. -/
def Rowed (row : WorkflowEventRow) (e : WorkflowEvent) : Prop :=
  ∃ sequence, row = PostgresWorkflowStore.eventRow e sequence

/-- The protocol of a turn at the database: a row is kept once its transaction is committed. -/
def sqlTrail (turn : ChatTurn) : Protocol SqlAsk SqlAsk.Answer (TrailStage WorkflowEventRow) where
  allows s
    | .insertEvent row => Permitted Rowed turn s row
    | .commit => s.unheard = none
    | _ => True
  next s
    | .begin, .ok _ => s.drop
    | .insertEvent row, .ok _ => s.pend row
    | .commit, .ok _ => s.commit
    | .commit, .error _ => s.doubt
    | .rollback, _ => s.drop
    | _, _ => s

namespace PostgresWorkflowStore

variable {turn : ChatTurn} {s : TrailStage WorkflowEventRow}

/-- A statement that writes no event and ends no transaction. -/
theorem trail_execute (r : SqlAsk) (hallows : (sqlTrail turn).allows s r)
    (hnext : ∀ a, (sqlTrail turn).next s r a = s) :
    (trailProtocol Rowed turn (sqlTrail turn)).Stays s (execute r) := by
  refine ⟨hallows, fun a => Protocol.follows_ofExcept.mpr ?_⟩
  exact hnext a

theorem trail_openTransaction (tenantId : Identifier) :
    (trailProtocol Rowed turn (sqlTrail turn)).Stays s (openTransaction tenantId) :=
  (trail_execute .unsafeRole trivial fun _ => rfl).bind fun _ =>
    (Protocol.stays_insist _ _).bind fun _ =>
      trail_execute (.setTenant tenantId) trivial fun _ => rfl

/-- A transaction of a settled turn: what its body ends at is committed. -/
theorem trail_transaction {α : Type} {body : SqlProg α} {tenantId : Identifier}
    {Q : Except Failure α → TrailStage WorkflowEventRow → Prop} (hs : s.Settled)
    (hfail : ∀ e s, Q (.error e) s)
    (hbody : (trailProtocol Rowed turn (sqlTrail turn)).Follows s body fun r s' =>
      ∀ a, r = .ok a → s'.unheard = none ∧ Q (.ok a) s'.commit) :
    (trailProtocol Rowed turn (sqlTrail turn)).Follows s (transaction tenantId body) Q := by
  unfold transaction
  refine Protocol.follows_bind.mpr ⟨trivial, fun a => Protocol.follows_ofExcept.mpr ?_⟩
  cases a with
  | error e => exact hfail e _
  | ok _ =>
      show (trailProtocol Rowed turn (sqlTrail turn)).Follows s.drop _ _
      rw [hs.drop]
      have hrollback : ∀ (e : Failure) s', (trailProtocol Rowed turn (sqlTrail turn)).Follows s' (do
            let _ ← (execute .rollback).attempt
            .raise e : SqlProg α) Q := by
        intro e s'
        refine Protocol.follows_bind.mpr (Protocol.follows_attempt.mpr ⟨trivial, fun a => ?_⟩)
        exact Protocol.follows_ofExcept.mpr (hfail e _)
      refine Protocol.follows_bind.mpr (Protocol.follows_attempt.mpr ?_)
      refine (trail_openTransaction tenantId).then (fun e => hrollback e s) fun _ => ?_
      refine hbody.weaken fun r s' h => ?_
      cases r with
      | error e => exact hrollback e s'
      | ok value =>
          obtain ⟨hunheard, hcommit⟩ := h value rfl
          refine Protocol.follows_bind.mpr ⟨hunheard, fun a => Protocol.follows_ofExcept.mpr ?_⟩
          cases a with
          | error e => exact hfail e _
          | ok _ => exact hcommit

theorem trail_ownItem (tenantId workItemId actorId : Identifier) :
    (trailProtocol Rowed turn (sqlTrail turn)).Stays s (ownItem tenantId workItemId actorId) := by
  refine (trail_execute (.selectItem _ _) trivial fun _ => rfl).bind fun found => ?_
  cases found with
  | none => exact Protocol.stays_raise _
  | some row => exact (Protocol.stays_ofExcept _).bind fun _ => Protocol.stays_insist _ _

theorem trail_lockBudget (tenantId : Identifier) (limit : Option ℤ) :
    (trailProtocol Rowed turn (sqlTrail turn)).Stays s (lockBudget tenantId limit) := by
  cases limit with
  | none => exact Protocol.stays_pure _
  | some limit => exact trail_execute (.advisoryLock _) trivial fun _ => rfl

theorem trail_checkTurnLimit (tenantId : Identifier) (limit : Option ℤ) :
    (trailProtocol Rowed turn (sqlTrail turn)).Stays s (checkTurnLimit tenantId limit) := by
  cases limit with
  | none => exact Protocol.stays_pure _
  | some limit =>
      exact (trail_execute (.countReserved tenantId) trivial fun _ => rfl).bind fun _ =>
        Protocol.stays_insist _ _

/-- The row of the principal's own event. -/
theorem entry_rowed {item : Identifier} {payload : EventPayload} {e : WorkflowEvent}
    (hby : e.By turn.current item) (hpayload : e.payload = payload) (sequence : ℕ) :
    OwnEntry Rowed turn.current item payload (eventRow e sequence) :=
  ⟨e, ⟨sequence, rfl⟩, hby, hpayload⟩

/-- The insertion of a row, where this is permitted. -/
theorem trail_insert {row : WorkflowEventRow} (h : Permitted Rowed turn s row) :
    (trailProtocol Rowed turn (sqlTrail turn)).Follows s (execute (.insertEvent row))
      fun r s' => r = .ok () → s' = s.pend row := by
  refine ⟨h, fun a => Protocol.follows_ofExcept.mpr fun ha => ?_⟩
  rw [ha]
  rfl

/-- The append of an event, where this is permitted. -/
theorem trail_appendEvent {item : Identifier} {payload : EventPayload} {event : WorkflowEvent}
    (hby : event.By turn.current item) (hpayload : event.payload = payload)
    (hpermitted : ∀ x, OwnEntry Rowed turn.current item payload x → Permitted Rowed turn s x) :
    (trailProtocol Rowed turn (sqlTrail turn)).Follows s (appendEvent event)
      fun r s' => r = .ok () → ∃ x, OwnEntry Rowed turn.current item payload x ∧ s' = s.pend x := by
  unfold appendEvent
  refine (trail_execute (.advisoryLock _) trivial fun _ => rfl).then (fun _ h => nomatch h) ?_
  intro _
  refine (trail_execute (.maxSequence _ _) trivial fun _ => rfl).then (fun _ h => nomatch h) ?_
  intro sequence
  have hentry := entry_rowed hby hpayload (sequence.getD 0 + 1)
  exact (trail_insert (hpermitted _ hentry)).weaken fun r s' h hr => ⟨_, hentry, h hr⟩

/-- A transaction that appends one event. -/
theorem trail_append_transaction {item : Identifier} {payload : EventPayload}
    {event : WorkflowEvent} {body : SqlProg Unit} {tenantId : Identifier} (hs : s.Settled)
    (hbody : (trailProtocol Rowed turn (sqlTrail turn)).Follows s body
      fun r s' => r = .ok () → ∃ x, OwnEntry Rowed turn.current item payload x ∧ s' = s.pend x) :
    (trailProtocol Rowed turn (sqlTrail turn)).Follows s (do
      transaction tenantId body
      pure event : SqlProg WorkflowEvent)
      fun r s' => ∀ e, r = .ok e →
        ∃ x, OwnEntry Rowed turn.current item payload x ∧ s' = s.keep x := by
  refine Protocol.Follows.seq (M := fun r s' => r = .ok () →
    ∃ x, OwnEntry Rowed turn.current item payload x ∧ s' = s.keep x) ?_
    (fun _ _ _ _ h => nomatch h) fun _ s' hs' e _ => hs' rfl
  refine trail_transaction hs (fun _ _ h => nomatch h) (hbody.weaken fun r s' h a ha => ?_)
  obtain ⟨x, hx, rfl⟩ := h ha
  exact ⟨hs.2, fun _ => ⟨x, hx, hs.commit_pend x⟩⟩

theorem createIntake_trails (now : Datetime) (message : String) (repository : Option String)
    (repositories : List String) (analysisProfile : Option AnalysisProfile) :
    (trailProtocol Rowed turn (sqlTrail turn)).Follows .start
      (createIntake turn.current.tenantId turn.current.subjectId now message repository
        repositories analysisProfile)
      fun r s => ∀ item, r = .ok item → ∃ x digest,
        OwnEntry Rowed turn.current item.workItemId (.intake digest) x ∧
          s = TrailStage.start.keep x := by
  unfold createIntake
  refine (newIntake_trails now message repository repositories analysisProfile).seq
    (fun _ _ _ _ h => nomatch h) ?_
  intro ⟨created, event⟩ s ⟨hs, hmade⟩
  obtain ⟨hby, digest, hpayload⟩ := hmade _ rfl
  rw [hs]
  have hentry := entry_rowed hby hpayload 1
  have hsettled : (TrailStage.start : TrailStage WorkflowEventRow).Settled := ⟨rfl, rfl⟩
  refine Protocol.follows_bind.mpr (Protocol.follows_attempt.mpr (trail_transaction
    (Q := fun r s => _) hsettled ?_ ?_))
  · intro e s
    cases e with
    | integrity => exact fun _ h => nomatch h
    | turnLimit message => exact fun _ h => nomatch h
    | denied message => exact fun _ h => nomatch h
    | value message => exact fun _ h => nomatch h
    | assertion => exact fun _ h => nomatch h
    | http status detail => exact fun _ h => nomatch h
    | other => exact fun _ h => nomatch h
  · refine (trail_execute (.insertItem _) trivial fun _ => rfl).then (fun _ _ h => nomatch h) ?_
    intro _
    refine (trail_insert (permitted_intake hentry)).weaken fun r s' h a ha => ?_
    rw [h ha]
    refine ⟨rfl, fun item hitem => ?_⟩
    cases hitem
    exact ⟨_, digest, hentry, hsettled.commit_pend _⟩

theorem get_trails (workItemId : String) :
    (trailProtocol Rowed turn (sqlTrail turn)).Follows .start
      (get turn.current.tenantId workItemId)
      fun r s => ∀ found, r = .ok found → s = .start := by
  have hsettled : (TrailStage.start : TrailStage WorkflowEventRow).Settled := ⟨rfl, rfl⟩
  refine trail_transaction hsettled (fun _ _ _ h => nomatch h) (Protocol.Follows.weaken
    (Q := fun _ s => s = .start) ?_ fun r s h a ha => ?_)
  · refine (trail_execute (.selectItem _ _) trivial fun _ => rfl).bind fun found => ?_
    cases found with
    | none => exact Protocol.stays_pure _
    | some row => exact (Protocol.stays_ofExcept _).bind fun _ => Protocol.stays_pure _
  · rw [h]
    exact ⟨rfl, fun _ _ => hsettled.commit⟩

theorem reserveChatTurn_trails (item : Identifier) (reservation : ChatTurnReservation)
    (limit : Option ℤ) (now : Datetime) (hs : s.Settled) :
    Appends Rowed turn (sqlTrail turn) s item (.chatTurnReserved reservation)
      (reserveChatTurn turn.current.tenantId item turn.current.subjectId reservation limit
        now) := by
  intro hpermitted
  unfold reserveChatTurn
  refine (Protocol.stays_insist _ _).then (fun _ _ h => nomatch h) fun _ => ?_
  refine (newEvent_trails item _ now).seq (fun _ _ _ _ h => nomatch h) ?_
  intro event s' ⟨hs', hevent⟩
  obtain ⟨hby, hpayload⟩ := hevent event rfl
  rw [hs']
  refine trail_append_transaction hs ?_
  refine (trail_lockBudget _ _).then (fun _ h => nomatch h) fun _ => ?_
  refine (trail_ownItem _ _ _).then (fun _ h => nomatch h) fun _ => ?_
  refine (trail_checkTurnLimit _ _).then (fun _ h => nomatch h) fun _ => ?_
  exact trail_appendEvent hby hpayload hpermitted

theorem recordChatTurn_trails (item : Identifier) (audit : ChatTurnAudit) (now : Datetime)
    (hs : s.Settled) :
    Appends Rowed turn (sqlTrail turn) s item (.chatTurnRecorded audit)
      (recordChatTurn turn.current.tenantId item turn.current.subjectId audit now) := by
  intro hpermitted
  unfold recordChatTurn
  refine (newEvent_trails item _ now).seq (fun _ _ _ _ h => nomatch h) ?_
  intro event s' ⟨hs', hevent⟩
  obtain ⟨hby, hpayload⟩ := hevent event rfl
  rw [hs']
  refine trail_append_transaction hs ?_
  refine (trail_ownItem _ _ _).then (fun _ h => nomatch h) fun _ => ?_
  exact trail_appendEvent hby hpayload hpermitted

theorem postgres_trails : StoreTrails Rowed turn (sqlTrail turn) postgresWorkflowStore where
  createIntake := createIntake_trails
  get := get_trails
  reserveChatTurn _ item _ limit now hs := reserveChatTurn_trails item _ limit now hs
  recordChatTurn _ item audit now hs := recordChatTurn_trails item audit now hs

end PostgresWorkflowStore

end Sql

/-! ## 3. The entries of a turn -/

section Stores

variable {ι : Type} [DecidableEq ι]

/-- What a turn has put into the memory, in this order. -/
def Memory.own (m : Memory ι) (i : ι) : List (ItemKey × WorkflowEvent) :=
  (m.events.filter fun e => e.requester = some i).map fun e => (e.key, e.event)

/-- The rows of a turn that are committed. -/
def Database.own (db : Database ι) (i : ι) : List WorkflowEventRow :=
  (db.events.filter fun e => e.requester = some i).map (·.row)

/-- The memory has what the stage of a turn says. -/
def KeptInMemory (m : Memory ι) (i : ι) (s : TrailStage (ItemKey × WorkflowEvent)) : Prop :=
  s.Settled ∧ m.own i = s.kept

/-- The database has what the stage of a turn says, and so has its transaction. -/
def KeptInDatabase (db : Database ι) (i : ι) (s : TrailStage WorkflowEventRow) : Prop :=
  (∀ t, db.transactions i = some t → t.events = s.pending) ∧
    (db.own i = s.kept ∨ ∃ u, s.unheard = some u ∧ db.own i = s.kept ++ u)

theorem own_append (events : List (MemoryEvent ι)) (m : Memory ι) (i : ι) :
    Memory.own { m with events := m.events ++ events } i = m.own i ++
      (events.filter fun e => e.requester = some i).map fun e => (e.key, e.event) := by
  unfold Memory.own
  rw [List.filter_append, List.map_append]

variable [Sha256]

/-- One access by a turn. -/
theorem keptInMemory_step {turns : ι → ChatTurn} {m m' : Memory ι}
    {stage : ι → TrailStage (ItemKey × WorkflowEvent)} {i : ι} {r : MemoryAsk} {a : r.Answer}
    (h : ∀ j, KeptInMemory m j (stage j)) (hanswers : Memory.Answers m i r a m') (j : ι) :
    KeptInMemory m' j (Function.update stage i ((memoryTrail (turns i)).next (stage i) r a) j) := by
  have hsame : ∀ m' : Memory ι, m'.events = m.events →
      KeptInMemory m' j (Function.update stage i (stage i) j) := by
    intro m' hevents
    rw [Function.update_eq_self]
    obtain ⟨hsettled, hown⟩ := h j
    refine ⟨hsettled, ?_⟩
    unfold Memory.own
    rw [hevents]
    exact hown
  have happend : ∀ key event, KeptInMemory { m with events := m.events ++ [⟨key, event, some i⟩] } j
      (Function.update stage i ((stage i).keep (key, event)) j) := by
    intro key event
    obtain ⟨hsettled, hown⟩ := h j
    by_cases hji : j = i
    · cases hji
      rw [Function.update_self]
      refine ⟨hsettled.keep _, ?_⟩
      rw [own_append, hown]
      simp
    · rw [Function.update_of_ne hji]
      refine ⟨hsettled, ?_⟩
      rw [own_append, hown]
      simp [Ne.symm hji]
  cases hanswers with
  | setEvents key event hnew => exact happend key event
  | append key event => exact happend key event
  | acquire => exact hsame _ rfl
  | release => exact hsame _ rfl
  | item => exact hsame _ rfl
  | setItem => exact hsame _ rfl
  | countReserved => exact hsame _ rfl
  | tenantItems => exact hsame _ rfl
  | events => exact hsame _ rfl
  | fails r e => cases r <;> exact hsame _ rfl

theorem memory_accountable {turn : ChatTurn} {s : TrailStage (ItemKey × WorkflowEvent)}
    {r : MemoryAsk} {a : r.Answer} (h : Accountable Filed turn s)
    (hallows : (memoryTrail turn).allows s r) :
    Accountable Filed turn ((memoryTrail turn).next s r a) ∧
      ((memoryTrail turn).next s r a).calls = s.calls := by
  cases r with
  | append key event =>
      cases a with
      | error e => exact ⟨h, rfl⟩
      | ok _ => exact ⟨h.keeps hallows.1 hallows.2, rfl⟩
  | setEvents key event =>
      cases a with
      | error e => exact ⟨h, rfl⟩
      | ok _ => exact ⟨h.keeps hallows.1 hallows.2, rfl⟩
  | acquire => exact ⟨h, rfl⟩
  | release => exact ⟨h, rfl⟩
  | item => exact ⟨h, rfl⟩
  | setItem => exact ⟨h, rfl⟩
  | countReserved => exact ⟨h, rfl⟩
  | tenantItems => exact ⟨h, rfl⟩
  | events => exact ⟨h, rfl⟩

variable [ChatLibraries]

theorem sql_accountable {turn : ChatTurn} {s : TrailStage WorkflowEventRow}
    {r : SqlAsk} {a : r.Answer} (h : Accountable Rowed turn s)
    (hallows : (sqlTrail turn).allows s r) :
    Accountable Rowed turn ((sqlTrail turn).next s r a) ∧
      ((sqlTrail turn).next s r a).calls = s.calls := by
  cases r with
  | begin =>
      cases a with
      | error e => exact ⟨h, rfl⟩
      | ok _ => exact ⟨h.drops, rfl⟩
  | insertEvent row =>
      cases a with
      | error e => exact ⟨h, rfl⟩
      | ok _ => exact ⟨h.pend hallows, rfl⟩
  | commit =>
      cases a with
      | error e => exact ⟨h.doubts, rfl⟩
      | ok _ => exact ⟨h.commits hallows, rfl⟩
  | rollback => exact ⟨h.drops, rfl⟩
  | unsafeRole => exact ⟨h, rfl⟩
  | setTenant => exact ⟨h, rfl⟩
  | advisoryLock => exact ⟨h, rfl⟩
  | selectItem => exact ⟨h, rfl⟩
  | countReserved => exact ⟨h, rfl⟩
  | maxSequence => exact ⟨h, rfl⟩
  | insertItem => exact ⟨h, rfl⟩
  | selectItems => exact ⟨h, rfl⟩
  | selectEvents => exact ⟨h, rfl⟩

section Sql

variable [AdvisoryHash] {turns : ι → ChatTurn} {db db' : Database ι}
  {stage : ι → TrailStage WorkflowEventRow} {i : ι}

omit [Sha256] [ChatLibraries] [AdvisoryHash] in
/-- The transaction of one turn is replaced, and its stage goes along. -/
theorem keptInDatabase_enter (t : Option OpenTransaction) (s : TrailStage WorkflowEventRow)
    (h : ∀ j, KeptInDatabase db j (stage j)) (ht : ∀ t' ∈ t, t'.events = s.pending)
    (hown : db.own i = s.kept ∨ ∃ u, s.unheard = some u ∧ db.own i = s.kept ++ u) (j : ι) :
    KeptInDatabase (db.enter i t) j (Function.update stage i s j) := by
  by_cases hji : j = i
  · cases hji
    rw [Function.update_self]
    refine ⟨fun t' ht' => ht t' ?_, hown⟩
    rwa [show (db.enter i t).transactions i = t from Function.update_self ..] at ht'
  · rw [Function.update_of_ne hji]
    refine ⟨fun t' ht' => (h j).1 t' ?_, (h j).2⟩
    rwa [show (db.enter i t).transactions j = db.transactions j from
      Function.update_of_ne hji ..] at ht'

omit [Sha256] [ChatLibraries] [AdvisoryHash] in
theorem own_commit (t : OpenTransaction) (j : ι) :
    (db.commit i t).own j = db.own j ++ if j = i then t.events else [] := by
  unfold Database.own Database.commit
  rw [List.filter_append, List.map_append]
  refine congrArg (_ ++ ·) ?_
  by_cases hji : j = i
  · rw [if_pos hji, List.filter_map, List.map_map]
    simp [hji, Function.comp_def]
  · rw [if_neg hji, List.filter_map]
    simp [Ne.symm hji, Function.comp_def]

omit [Sha256] [ChatLibraries] [AdvisoryHash] in
/-- A transaction is committed, heard or not. -/
theorem keptInDatabase_commit {t : OpenTransaction} {s : TrailStage WorkflowEventRow}
    (h : ∀ j, KeptInDatabase db j (stage j))
    (hown : db.own i ++ t.events = s.kept ∨
      ∃ u, s.unheard = some u ∧ db.own i ++ t.events = s.kept ++ u) (j : ι) :
    KeptInDatabase (db.commit i t) j (Function.update stage i s j) := by
  by_cases hji : j = i
  · cases hji
    rw [Function.update_self]
    refine ⟨fun t' ht' => ?_, ?_⟩
    · rw [show (db.commit i t).transactions i = none from Function.update_self ..] at ht'
      cases ht'
    · rw [own_commit, if_pos rfl]
      exact hown
  · rw [Function.update_of_ne hji]
    refine ⟨fun t' ht' => (h j).1 t' ?_, ?_⟩
    · rwa [show (db.commit i t).transactions j = db.transactions j from
        Function.update_of_ne hji ..] at ht'
    · rw [own_commit, if_neg hji, List.append_nil]
      exact (h j).2

/-- One statement of a turn. -/
theorem keptInDatabase_step {r : SqlAsk} {a : r.Answer}
    (h : ∀ j, KeptInDatabase db j (stage j)) (hallows : (sqlTrail (turns i)).allows (stage i) r)
    (hanswers : Database.Answers db i r a db') (j : ι) :
    KeptInDatabase db' j (Function.update stage i ((sqlTrail (turns i)).next (stage i) r a) j) := by
  have hsame : KeptInDatabase db j (Function.update stage i (stage i) j) := by
    rw [Function.update_eq_self]
    exact h j
  have hentered : ∀ t t', db.transactions i = some t → t'.events = t.events →
      KeptInDatabase (db.enter i (some t')) j (Function.update stage i (stage i) j) := by
    intro t t' ht hevents
    refine keptInDatabase_enter (some t') (stage i) h (fun u hu => ?_) (h i).2 j
    cases hu
    rw [hevents]
    exact (h i).1 t ht
  -- what is kept while every commit has been heard
  have hheard : (stage i).unheard = none → db.own i = (stage i).kept := by
    intro hnone
    refine (h i).2.resolve_right fun ⟨u, hu, _⟩ => ?_
    rw [hnone] at hu
    cases hu
  cases hanswers with
  | begin =>
      refine keptInDatabase_enter (some ⟨[], [], []⟩) (stage i).drop h (fun t ht => ?_) (h i).2 j
      cases ht
      rfl
  | unsafeRole bypasses => exact hsame
  | setTenant => exact hsame
  | advisoryLock key t ht hfree => exact hentered t _ ht rfl
  | selectItem => exact hsame
  | countReserved => exact hsame
  | maxSequence => exact hsame
  | insertItem row t ht hnew => exact hentered t _ ht rfl
  | insertEvent row t ht hnew =>
      refine keptInDatabase_enter (some { t with events := t.events ++ [row] }) ((stage i).pend row)
        h (fun u hu => ?_) (h i).2 j
      cases hu
      show t.events ++ [row] = (stage i).pending ++ [row]
      rw [(h i).1 t ht]
  | selectItems => exact hsame
  | selectEvents => exact hsame
  | commit t answer ht =>
      have hpending := (h i).1 t ht
      have hkept := hheard hallows
      cases answer with
      | ok _ =>
          refine keptInDatabase_commit h (.inl ?_) j
          rw [hkept, hpending]
          rfl
      | error e =>
          refine keptInDatabase_commit h (.inr ⟨(stage i).pending, rfl, ?_⟩) j
          rw [hkept, hpending]
          rfl
  | commitFails e =>
      exact keptInDatabase_enter none (stage i).doubt h (fun _ ht => nomatch ht)
        (.inl (hheard hallows)) j
  | rollback answer =>
      exact keptInDatabase_enter none (stage i).drop h (fun _ ht => nomatch ht) (h i).2 j
  | fails r e hr =>
      cases r with
      | commit => exact absurd rfl hr.1
      | rollback => exact absurd rfl hr.2
      | begin => exact hsame
      | unsafeRole => exact hsame
      | setTenant => exact hsame
      | advisoryLock => exact hsame
      | selectItem => exact hsame
      | countReserved => exact hsame
      | maxSequence => exact hsame
      | insertItem => exact hsame
      | insertEvent => exact hsame
      | selectItems => exact hsame
      | selectEvents => exact hsame

omit [Sha256] [ChatLibraries] [AdvisoryHash] in
/-- What others do to the database. -/
theorem keptInDatabase_change (h : ∀ j, KeptInDatabase db j (stage j))
    (hchanges : Database.Changes db db') (j : ι) : KeptInDatabase db' j (stage j) := by
  cases hchanges with
  | lost i =>
      have hlost := keptInDatabase_enter none (stage i) h (fun _ ht => nomatch ht) (h i).2 j
      rwa [Function.update_eq_self] at hlost
  | item row => exact h j
  | event row hkind =>
      refine ⟨(h j).1, ?_⟩
      have hown : Database.own { db with events := db.events ++ [⟨row, none⟩] } j = db.own j := by
        unfold Database.own
        rw [List.filter_append]
        simp
      rw [hown]
      exact (h j).2

end Sql

/-- Runs from a database without a transaction, and without an event of one of the turns. -/
def idleSurroundings [AdvisoryHash] : Surroundings ι SqlAsk SqlAsk.Answer (Database ι) where
  start db := (∀ e ∈ db.events, e.requester = none) ∧ ∀ i, db.transactions i = none
  answers := Database.Answers
  changes := Database.Changes

/-- Chat turns leave trails. Whatever the models, the readers and the stores do, in any
interleaving of any turns, with or without a limit, over the store in memory and over the
database: what a turn has left there is at most an intake, then at most a reservation of its own
request, then at most an audit of this reservation, all by its principal and of one item. It has
called a model only with its reservation there, and at most six times. Its audit has one run for
each of its calls, in their order and true to their answers; and a turn that has replied has left
its audit, with the digest of the reply. -/
theorem turns_leave_trails [AdvisoryHash] (turns : ι → ChatTurn) :
    TurnTrails memorySurroundings inMemoryWorkflowStore turns Memory.own Filed ∧
      TurnTrails idleSurroundings postgresWorkflowStore turns Database.own Rowed := by
  constructor
  · refine trails_of_store (J := KeptInMemory) (fun i => InMemoryWorkflowStore.inMemory_trails)
      (fun i s request answer h hallows => memory_accountable h hallows) ?_
      (fun m i s calls h => h) (fun m stage i request answer m' h _ hanswers =>
        keptInMemory_step h hanswers) ?_ (fun m i s h => .inl h.2) ?_
    · intro m hm i
      cases hm
      exact ⟨⟨rfl, rfl⟩, rfl⟩
    · intro m stage m' h hchanges j
      cases hchanges with
      | append key event hkind =>
          refine ⟨(h j).1, ?_⟩
          rw [own_append, (h j).2]
          simp
    · intro entry e e' he he'
      exact congrArg (fun x => WorkflowEvent.kind x.2) (he.symm.trans he')
  · refine trails_of_store (J := KeptInDatabase) (fun i => PostgresWorkflowStore.postgres_trails)
      (fun i s request answer h hallows => sql_accountable h hallows) ?_
      (fun db i s calls h => h) (fun db stage i request answer db' h hallows hanswers =>
        keptInDatabase_step h hallows hanswers)
      (fun db stage db' h hchanges => keptInDatabase_change h hchanges) (fun db i s h => h.2) ?_
    · intro db ⟨hevents, hidle⟩ i
      refine ⟨fun t ht => ?_, .inl ?_⟩
      · rw [hidle i] at ht
        cases ht
      · unfold Database.own
        rw [List.filter_eq_nil_iff.mpr fun e he => ?_]
        · rfl
        · rw [hevents e he]
          simp
    · intro row e e' ⟨n, he⟩ ⟨n', he'⟩
      exact congrArg WorkflowEventRow.kind (he.symm.trans he')

end Stores

end NokincFactory
