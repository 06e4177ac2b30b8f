/-
  File:      NokincFactory/Adapters/PostgresWorkflowBoxes.lean
  Subject:   `postgres_workflow_store.py`: the methods on the outbox and the inbox, statement by
             statement.

  Statements fail as they do in `PostgresWorkflowStore.lean`. Fields of a record that no method
  reads are left out.

  * `OutboxEntry`, `InboxEntry`: what the methods return; `OutboxRow`, `InboxRow`: what is stored;
  * `BoxLook`, `BoxProg`: what is asked of other tables, and programs over one of the two;
  * `enqueueOutbox`, `claimOutbox`, `ackOutbox`, `recordInbox`, `markInboxProcessed`.
-/
import NokincFactory.Domain.Chat
import NokincFactory.Lib.RowTable

namespace NokincFactory

/-! ## 1. Entries and rows -/

/-- A tenant and an event identifier: the primary key of either table. -/
abbrev BoxKey := String × String

inductive OutboxStatus where
  | pending | claimed | acked
deriving DecidableEq

structure OutboxEntry where
  eventId : Identifier
  tenantId : Identifier
  workItemId : Identifier
  topic : Identifier
  payloadDigest : Digest
  status : OutboxStatus
  attempts : ℕ
  workerId : Option Identifier
  leaseExpiresAt : Option Moment
  createdAt : Moment
  updatedAt : Moment
deriving DecidableEq

structure OutboxRow where
  tenantId : Identifier
  eventId : Identifier
  workItemId : Identifier
  topic : Identifier
  payloadDigest : Digest
  status : OutboxStatus
  attempts : ℕ
  workerId : Option String
  leaseExpiresAt : Option Moment
  createdAt : Moment
  updatedAt : Moment
  contentDigest : Digest
deriving DecidableEq

instance : KeyedRow OutboxRow BoxKey where
  key row := (row.tenantId.text, row.eventId.text)

inductive InboxStatus where
  | received | processed
deriving DecidableEq

structure InboxEntry where
  eventId : Identifier
  tenantId : Identifier
  source : Identifier
  payloadDigest : Digest
  status : InboxStatus
  receivedAt : Moment
  processedAt : Option Moment
deriving DecidableEq

structure InboxRow where
  tenantId : Identifier
  eventId : Identifier
  source : Identifier
  payloadDigest : Digest
  status : InboxStatus
  receivedAt : Moment
  processedAt : Option Moment
  contentDigest : Digest
deriving DecidableEq

instance : KeyedRow InboxRow BoxKey where
  key row := (row.tenantId.text, row.eventId.text)

/-! ## 2. Programs -/

/-- What is asked besides the table. -/
inductive BoxLook where
  /-- `rolsuper OR rolbypassrls OR rolcreaterole OR rolcreatedb` of the current user -/
  | unsafeRole
  | setTenant (tenantId : String)
  /-- the item is there -/
  | item (tenantId workItemId : Identifier)
deriving DecidableEq

/-- Programs over a table of rows `V`. -/
abbrev BoxProg (V α : Type) : Type :=
  Prog (RowAsk BoxLook BoxKey V) (RowAsk.Answer Failure) Failure α

namespace WorkflowBoxes

variable {V α : Type}

def execute (r : RowAsk BoxLook BoxKey V) : BoxProg V r.Value := .ask r .ofExcept

/-- `with self._transaction(tenant_id)`. -/
def transaction (tenantId : String) (body : BoxProg V α) : BoxProg V α := do
  execute .begin
  let outcome ← Prog.attempt do
    let bypasses ← execute (.look .unsafeRole)
    .insist (bypasses = false) (.denied "Worker must not bypass row-level security")
    let _ ← execute (.look (.setTenant tenantId))
    body
  match outcome with
  | .ok value => do
      execute .commit
      pure value
  | .error failure => do
      let _ ← (execute .rollback).attempt
      .raise failure

/-- The row under a key is read back, and must be the one that is meant. -/
def reread {β : Type} (k : BoxKey) (read : V → Except Failure β) (same : β → Prop)
    [DecidablePred same] (failure : Failure) : BoxProg V β := do
  let found ← execute (.select k)
  match found with
  -- `one()`
  | none => .raise .other
  | some row => do
      let existing ← .ofExcept (read row)
      .insist (same existing) failure
      pure existing

/-- An identifier, as pydantic validates it. -/
def validIdentifier (text : String) : Except Failure Identifier :=
  if h : identifierPattern text.toList = true then .ok ⟨text, h⟩ else .error .validation

/-- `Identifier | None`. -/
def validOptional : Option String → Except Failure (Option Identifier)
  | none => pure none
  | some text => do
      let valid ← validIdentifier text
      pure (some valid)

/-- `moment + timedelta(seconds=seconds)`; an `OverflowError` where there is no such time. -/
def later (moment : Moment) (seconds : ℤ) : Except Failure Moment :=
  if h : earliest ≤ moment.micros + seconds * micro ∧ moment.micros + seconds * micro ≤ latest then
    .ok ⟨moment.micros + seconds * micro, h.1, h.2⟩
  else .error .other

section Methods

variable [Sha256]

/-! ## 3. The outbox -/

/-- `_outbox_identity`. -/
def outboxIdentity (eventId tenantId workItemId topic : Identifier) (payloadDigest : Digest) :
    Digest :=
  Json.contentDigest (.obj [("event_id", eventId.json), ("tenant_id", tenantId.json),
    ("work_item_id", workItemId.json), ("topic", topic.json),
    ("payload_digest", payloadDigest.json)])

/-- `_outbox`. -/
def readOutbox (row : OutboxRow) : Except Failure OutboxEntry := do
  let workerId ← validOptional row.workerId
  guardThat (outboxIdentity row.eventId row.tenantId row.workItemId row.topic row.payloadDigest =
    row.contentDigest) (.denied "Outbox digest disagrees with stored authority")
  pure {
    eventId := row.eventId
    tenantId := row.tenantId
    workItemId := row.workItemId
    topic := row.topic
    payloadDigest := row.payloadDigest
    status := row.status
    attempts := row.attempts
    workerId := workerId
    leaseExpiresAt := row.leaseExpiresAt
    createdAt := row.createdAt
    updatedAt := row.updatedAt }

/-- The row of a new entry. -/
def newOutboxRow (tenantId workItemId eventId topic : Identifier) (payloadDigest : Digest)
    (current : Moment) : OutboxRow where
  tenantId := tenantId
  eventId := eventId
  workItemId := workItemId
  topic := topic
  payloadDigest := payloadDigest
  status := .pending
  attempts := 0
  workerId := none
  leaseExpiresAt := none
  createdAt := current
  updatedAt := current
  contentDigest := outboxIdentity eventId tenantId workItemId topic payloadDigest

def enqueueOutbox (tenantId workItemId eventId topic : Identifier) (payloadDigest : Digest)
    (now : Datetime) : BoxProg OutboxRow OutboxEntry := do
  let current ← .ofExcept (failing (utc now))
  transaction tenantId.text do
    let there ← execute (.look (.item tenantId workItemId))
    .insist (there = true) (.denied "Work item not found")
    let _ ← execute (.insert (newOutboxRow tenantId workItemId eventId topic payloadDigest current))
    reread (tenantId.text, eventId.text) readOutbox (fun existing =>
      existing.workItemId = workItemId ∧ existing.topic = topic ∧
        existing.payloadDigest = payloadDigest) (.denied "Outbox event identity collision")

omit [Sha256] in
/-- A pending entry of the tenant, or a claimed one whose lease has expired. -/
def claimable (tenantId : String) (current : Moment) (row : OutboxRow) : Bool :=
  row.tenantId.text = tenantId ∧ (row.status = .pending ∨
    (row.status = .claimed ∧ ∃ expiry ∈ row.leaseExpiresAt, expiry ≤ current))

omit [Sha256] in
/-- What a claim sets, with one attempt more than the row that was read. -/
def claimedRow (attempts : ℕ) (workerId : String) (expiry current : Moment) (row : OutboxRow) :
    OutboxRow :=
  { row with
    status := .claimed
    attempts := attempts + 1
    workerId := some workerId
    leaseExpiresAt := some expiry
    updatedAt := current }

def claimOutbox (tenantId workerId : String) (now : Datetime) (leaseSeconds : ℤ) :
    BoxProg OutboxRow (Option OutboxEntry) := do
  let current ← .ofExcept (failing (utc now))
  .insist (0 < leaseSeconds) (.value "lease_seconds must be positive")
  let expiry ← .ofExcept (later current leaseSeconds)
  transaction tenantId do
    let rows ← execute (.lockWhere (claimable tenantId current) (·.createdAt.micros))
    match rows.head? with
    | none => pure none
    | some row => do
        let _ ← execute (.update (tenantId, row.eventId.text) (fun _ => true)
          (claimedRow row.attempts workerId expiry current))
        let entry ← .ofExcept (readOutbox (claimedRow row.attempts workerId expiry current row))
        pure (some entry)

omit [Sha256] in
/-- The entry is claimed by the worker. -/
def heldBy (workerId : String) (row : OutboxRow) : Bool :=
  row.status = .claimed ∧ row.workerId = some workerId

omit [Sha256] in
/-- What an acknowledgement sets. -/
def ackedRow (row : OutboxRow) : OutboxRow :=
  { row with status := .acked, leaseExpiresAt := none }

omit [Sha256] in
def ackOutbox (tenantId eventId workerId : String) : BoxProg OutboxRow Bool :=
  transaction tenantId do
    let written ← execute (.update (tenantId, eventId) (heldBy workerId) ackedRow)
    pure written.isSome

/-! ## 4. The inbox -/

/-- `_inbox_identity`. -/
def inboxIdentity (eventId tenantId source : Identifier) (payloadDigest : Digest) : Digest :=
  Json.contentDigest (.obj [("event_id", eventId.json), ("tenant_id", tenantId.json),
    ("source", source.json), ("payload_digest", payloadDigest.json)])

/-- `_inbox`. -/
def readInbox (row : InboxRow) : Except Failure InboxEntry := do
  guardThat (inboxIdentity row.eventId row.tenantId row.source row.payloadDigest =
    row.contentDigest) (.denied "Inbox digest disagrees with stored authority")
  pure {
    eventId := row.eventId
    tenantId := row.tenantId
    source := row.source
    payloadDigest := row.payloadDigest
    status := row.status
    receivedAt := row.receivedAt
    processedAt := row.processedAt }

/-- The row of a new entry. -/
def newInboxRow (tenantId eventId source : Identifier) (payloadDigest : Digest)
    (current : Moment) : InboxRow where
  tenantId := tenantId
  eventId := eventId
  source := source
  payloadDigest := payloadDigest
  status := .received
  receivedAt := current
  processedAt := none
  contentDigest := inboxIdentity eventId tenantId source payloadDigest

def recordInbox (tenantId eventId source : Identifier) (payloadDigest : Digest)
    (receivedAt : Datetime) : BoxProg InboxRow InboxEntry := do
  let current ← .ofExcept (failing (utc receivedAt))
  transaction tenantId.text do
    let _ ← execute (.insert (newInboxRow tenantId eventId source payloadDigest current))
    reread (tenantId.text, eventId.text) readInbox (fun existing =>
      existing.source = source ∧ existing.payloadDigest = payloadDigest)
      (.denied "Inbox event identity collision")

omit [Sha256] in
/-- What a mark sets. -/
def processedRow (current : Moment) (row : InboxRow) : InboxRow :=
  { row with status := .processed, processedAt := some current }

omit [Sha256] in
def markInboxProcessed (tenantId eventId : String) (now : Datetime) : BoxProg InboxRow Bool := do
  let current ← .ofExcept (failing (utc now))
  transaction tenantId do
    let written ← execute (.update (tenantId, eventId) (fun row => row.status = .received)
      (processedRow current))
    pure written.isSome

end Methods

end WorkflowBoxes

end NokincFactory
