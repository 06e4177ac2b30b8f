/-
  File:      NokincFactory/Adapters/PostgresWorkflowStore.lean
  Subject:   `postgres_workflow_store.py`: the methods on items and events, statement by
             statement.

  Each statement is a request of its own. What a transaction has written is seen by the others
  once it is committed, and an advisory lock that it has taken is its own until it ends. Every
  statement may fail, a commit may succeed unheard, and a session may be lost at any time, and
  its transaction with it.

  A text with the character NUL is not sent. Identifiers and JSON documents have none; the
  identifier that a caller looks for may.

  * `SqlAsk`, `takesText`: the statements, and the texts that they may have;
  * `PostgresWorkflowStore`: the methods; `postgresWorkflowStore`: those that a chat turn uses;
  * `Database`, `Database.Answers`, `Database.Changes`: the database that the sessions share.
-/
import NokincFactory.Application.Chat

namespace NokincFactory

/-! ## 1. Statements -/

structure WorkflowItemRow where
  tenantId : Identifier
  workItemId : String
  document : String
  digest : Digest
  formatVersion : ℕ
deriving DecidableEq

structure WorkflowEventRow where
  tenantId : Identifier
  workItemId : String
  sequence : ℕ
  eventId : Identifier
  document : String
  digest : Digest
  kind : EventKind
  actorId : Identifier
deriving DecidableEq

inductive SqlAsk where
  | begin
  /-- `rolsuper OR rolbypassrls OR rolcreaterole OR rolcreatedb` of the current user -/
  | unsafeRole
  | setTenant (tenantId : Identifier)
  /-- `pg_advisory_xact_lock(hashtextextended(key, 0))` -/
  | advisoryLock (key : String)
  | selectItem (tenantId : Identifier) (workItemId : String)
  /-- `count(*)` of a tenant's events of kind `CHAT_TURN_RESERVED` -/
  | countReserved (tenantId : Identifier)
  | maxSequence (tenantId : Identifier) (workItemId : String)
  | insertItem (row : WorkflowItemRow)
  | insertEvent (row : WorkflowEventRow)
  /-- the items of a tenant, in no order -/
  | selectItems (tenantId : Identifier)
  /-- the events of an item, by their sequence -/
  | selectEvents (tenantId : Identifier) (workItemId : String)
  | commit
  | rollback

/-- What a statement returns. -/
@[reducible] def SqlAsk.Value : SqlAsk → Type
  | .unsafeRole => Bool
  | .selectItem _ _ => Option WorkflowItemRow
  | .countReserved _ => ℕ
  | .maxSequence _ _ => Option ℕ
  | .selectItems _ => List WorkflowItemRow
  | .selectEvents _ _ => List WorkflowEventRow
  | _ => Unit

/-- PostgreSQL has no text with the character NUL, and psycopg raises instead of sending one. -/
def takesText (text : String) : Bool := text.toList.all fun c => c.toNat ≠ 0

/-- A statement may fail instead. -/
abbrev SqlAsk.Answer (r : SqlAsk) : Type := Except Failure r.Value

abbrev SqlProg (α : Type) : Type := ChatProg SqlAsk.Answer α

/-! ## 2. The methods -/

namespace PostgresWorkflowStore

def execute (r : SqlAsk) : SqlProg r.Value := .ask (.store r) .ofExcept

/-- What `_transaction` does before it yields the connection. -/
def openTransaction (tenantId : Identifier) : SqlProg Unit := do
  let bypasses ← execute .unsafeRole
  .insist (bypasses = false) (.denied "Worker must not bypass row-level security")
  execute (.setTenant tenantId)

/-- `with self._transaction(tenant_id)`. -/
def transaction {α : Type} (tenantId : Identifier) (body : SqlProg α) : SqlProg α := do
  execute .begin
  let outcome ← Prog.attempt do
    openTransaction tenantId
    body
  match outcome with
  | .ok value => do
      execute .commit
      pure value
  | .error failure => do
      let _ ← (execute .rollback).attempt
      .raise failure

section Methods

variable [Sha256] [ChatLibraries]

/-- `_item`. -/
def readItem (row : WorkflowItemRow) : Except Failure WorkflowItem := do
  guardThat (row.formatVersion = 1) (.denied "Unsupported stored workflow item version")
  let item ← match ChatLibraries.workflowItem row.document with
    | some item => pure item
    | none => .error .validation
  guardThat (contentDigest item = row.digest ∧ item.tenantId = row.tenantId)
    (.denied "Stored workflow item digest or tenant disagrees")
  pure item

/-- `_event`. -/
def readEvent (row : WorkflowEventRow) (expectedSequence : ℕ) : Except Failure WorkflowEvent := do
  let event ← match ChatLibraries.workflowEvent row.document with
    | some event => pure event
    | none => .error .validation
  guardThat (row.sequence = expectedSequence ∧ contentDigest event = row.digest ∧
      event.tenantId = row.tenantId ∧ event.workItemId.text = row.workItemId ∧
      event.kind = row.kind ∧ event.actorId = row.actorId)
    (.denied "Workflow event chain disagrees with stored authority")
  pure event

/-- The events of rows that are counted from a number. -/
def readEvents : ℕ → List WorkflowEventRow → Except Failure (List WorkflowEvent)
  | _, [] => pure []
  | index, row :: rows => do
      let event ← readEvent row index
      let events ← readEvents (index + 1) rows
      pure (event :: events)

/-- The item of an append must be there. -/
def storedItem (tenantId workItemId : Identifier) : SqlProg WorkflowItem := do
  let found ← execute (.selectItem tenantId workItemId.text)
  match found with
  | none => .raise (.denied "Work item not found")
  | some row => .ofExcept (readItem row)

/-- The item that an actor appends to must be there, and the actor's own. -/
def ownItem (tenantId workItemId actorId : Identifier) : SqlProg Unit := do
  let found ← execute (.selectItem tenantId workItemId.text)
  match found with
  | none => .raise (.denied "Work item not found")
  | some row => do
      let item ← .ofExcept (readItem row)
      .insist (item.createdBy = actorId) (.denied "Work item not found")

omit [Sha256] [ChatLibraries] in
/-- The key of the lock on an item. -/
def itemKey (tenantId workItemId : Identifier) : String := tenantId.text ++ ":" ++ workItemId.text

omit [Sha256] [ChatLibraries] in
/-- The key of the lock on the budget of a tenant. -/
def budgetKey (tenantId : Identifier) : String := tenantId.text ++ ":chat-model-budget"

/-- The row of an event. -/
def eventRow (event : WorkflowEvent) (sequence : ℕ) : WorkflowEventRow where
  tenantId := event.tenantId
  workItemId := event.workItemId.text
  sequence := sequence
  eventId := event.eventId
  document := ChatLibraries.workflowEventJson event
  digest := contentDigest event
  kind := event.kind
  actorId := event.actorId

/-- Append an event to its item, under the lock on the item. -/
def appendEvent (event : WorkflowEvent) : SqlProg Unit := do
  execute (.advisoryLock (itemKey event.tenantId event.workItemId))
  let sequence ← execute (.maxSequence event.tenantId event.workItemId.text)
  execute (.insertEvent (eventRow event (sequence.getD 0 + 1)))

def createIntake (tenantId actorId : Identifier) (now : Datetime) (message : String)
    (repository : Option String) (repositories : List String)
    (analysisProfile : Option AnalysisProfile) : SqlProg WorkflowItem := do
  let (item, event) ← newIntake tenantId actorId now message repository repositories
    analysisProfile
  let outcome ← Prog.attempt <| transaction tenantId do
    execute (.insertItem ⟨tenantId, item.workItemId.text, ChatLibraries.workflowItemJson item,
      contentDigest item, 1⟩)
    execute (.insertEvent (eventRow event 1))
  match outcome with
  | .ok () => pure item
  | .error .integrity => .raise (.denied "Workflow intake could not be committed")
  | .error failure => .raise failure

def get (tenantId : Identifier) (workItemId : String) : SqlProg (Option WorkflowItem) :=
  transaction tenantId do
    let found ← execute (.selectItem tenantId workItemId)
    match found with
    | none => pure none
    | some row => do
        let item ← .ofExcept (readItem row)
        pure (some item)

def recordGroundedAnalysis (tenantId workItemId actorId : Identifier)
    (analysis : GroundedAnalysisAudit) (now : Datetime) : SqlProg WorkflowEvent := do
  let event ← newEvent tenantId workItemId actorId (.groundedAnalysisRecorded analysis) now
  transaction tenantId do
    let _ ← storedItem tenantId workItemId
    appendEvent event
  pure event

def recordChatTurn (tenantId workItemId actorId : Identifier) (audit : ChatTurnAudit)
    (now : Datetime) : SqlProg WorkflowEvent := do
  let event ← newEvent tenantId workItemId actorId (.chatTurnRecorded audit) now
  transaction tenantId do
    ownItem tenantId workItemId actorId
    appendEvent event
  pure event

omit [Sha256] [ChatLibraries] in
/-- With a limit, the transaction takes the lock on the tenant's budget first. -/
def lockBudget (tenantId : Identifier) : Option ℤ → SqlProg Unit
  | none => pure ()
  | some _ => execute (.advisoryLock (budgetKey tenantId))

omit [Sha256] [ChatLibraries] in
/-- The tenant's reservations must be below a limit that there is. -/
def checkTurnLimit (tenantId : Identifier) : Option ℤ → SqlProg Unit
  | none => pure ()
  | some limit => do
      let used ← execute (.countReserved tenantId)
      .insist ((used : ℤ) < limit) (.turnLimit "Tenant chat-turn limit exhausted")

def reserveChatTurn (tenantId workItemId actorId : Identifier) (reservation : ChatTurnReservation)
    (limit : Option ℤ) (now : Datetime) : SqlProg WorkflowEvent := do
  .insist (∀ l ∈ limit, 0 < l) (.turnLimit "Model-backed chat is disabled by turn-limit policy")
  let event ← newEvent tenantId workItemId actorId (.chatTurnReserved reservation) now
  transaction tenantId do
    lockBudget tenantId limit
    ownItem tenantId workItemId actorId
    checkTurnLimit tenantId limit
    appendEvent event
  pure event

def list (tenantId : Identifier) : SqlProg (List WorkflowItem) :=
  transaction tenantId do
    let rows ← execute (.selectItems tenantId)
    let items ← .ofExcept (rows.mapM readItem)
    pure (items.insertionSort fun item other => item.createdAt ≤ other.createdAt)

def addGateRequest (tenantId workItemId actorId : Identifier) (gate : String)
    (decision : GateDecision) (decisionDigest : String) (now : Datetime) :
    SqlProg WorkflowEvent := do
  let event ← newGateRequest tenantId workItemId actorId gate decision decisionDigest now
  transaction tenantId do
    let _ ← storedItem tenantId workItemId
    appendEvent event
  pure event

def trace (tenantId : Identifier) (workItemId : String) : SqlProg (List WorkflowEvent) :=
  transaction tenantId do
    let rows ← execute (.selectEvents tenantId workItemId)
    .ofExcept (readEvents 1 rows)

end Methods

end PostgresWorkflowStore

def postgresWorkflowStore [Sha256] [ChatLibraries] : WorkflowStore SqlAsk.Answer where
  createIntake := PostgresWorkflowStore.createIntake
  get := PostgresWorkflowStore.get
  reserveChatTurn := PostgresWorkflowStore.reserveChatTurn
  recordChatTurn := PostgresWorkflowStore.recordChatTurn

/-! ## 3. The database -/

/-- `hashtextextended(key, 0)`: two keys may have one hash, and then they are one lock. -/
class AdvisoryHash where
  hash : String → BitVec 64

/-- A row of the event table, with the turn that wrote it, if a turn did. -/
structure StoredEvent (ι : Type) where
  row : WorkflowEventRow
  requester : Option ι

/-- A transaction that has not ended: its locks, and its rows. -/
structure OpenTransaction where
  locks : List (BitVec 64)
  items : List WorkflowItemRow
  events : List WorkflowEventRow

/-- What is committed, and the transaction of each turn. -/
structure Database (ι : Type) where
  items : List WorkflowItemRow
  events : List (StoredEvent ι)
  transactions : ι → Option OpenTransaction

/-- The row is a `CHAT_TURN_RESERVED` event of the tenant. -/
def WorkflowEventRow.reserves (row : WorkflowEventRow) (tenantId : Identifier) : Bool :=
  row.tenantId = tenantId ∧ row.kind = .chatTurnReserved

/-- Two rows that the primary key or the unique event identifier does not allow together. -/
def WorkflowEventRow.clashes (row other : WorkflowEventRow) : Prop :=
  (row.tenantId = other.tenantId ∧ row.workItemId = other.workItemId ∧
    row.sequence = other.sequence) ∨ row.eventId = other.eventId

namespace Database

variable {ι : Type}

/-- The committed `CHAT_TURN_RESERVED` events of a tenant. -/
def reserved (db : Database ι) (tenantId : Identifier) : List (StoredEvent ι) :=
  db.events.filter fun e => e.row.reserves tenantId

variable [DecidableEq ι]

/-- The transaction of one turn is replaced. -/
def enter (db : Database ι) (i : ι) (t : Option OpenTransaction) : Database ι :=
  { db with transactions := Function.update db.transactions i t }

/-- The transaction of one turn ends, and what it wrote is there for all. -/
def commit (db : Database ι) (i : ι) (t : OpenTransaction) : Database ι where
  items := db.items ++ t.items
  events := db.events ++ t.events.map fun row => ⟨row, some i⟩
  transactions := Function.update db.transactions i none

/-- The rows of an item that a transaction sees: a statement sees what is committed when it
starts, and the transaction's own. -/
def sequences (db : Database ι) (t : OpenTransaction) (tenantId : Identifier)
    (workItemId : String) : List ℕ :=
  ((db.events.map (·.row) ++ t.events).filter fun row =>
    row.tenantId = tenantId ∧ row.workItemId = workItemId).map (·.sequence)

/-- The items of a tenant that a transaction sees. -/
def itemRows (db : Database ι) (t : OpenTransaction) (tenantId : Identifier) :
    List WorkflowItemRow :=
  (db.items ++ t.items).filter (·.tenantId = tenantId)

/-- The events of an item that a transaction sees. -/
def eventRows (db : Database ι) (t : OpenTransaction) (tenantId : Identifier)
    (workItemId : String) : List WorkflowEventRow :=
  (db.events.map (·.row) ++ t.events).filter fun row =>
    row.tenantId = tenantId ∧ row.workItemId = workItemId

variable [AdvisoryHash]

/-- One statement of a turn. -/
inductive Answers : Database ι → ι → (r : SqlAsk) → r.Answer → Database ι → Prop where
  | begin (db : Database ι) (i : ι) :
      Answers db i .begin (.ok ()) (db.enter i (some ⟨[], [], []⟩))
  | unsafeRole (db : Database ι) (i : ι) (bypasses : Bool) :
      Answers db i .unsafeRole (.ok bypasses) db
  | setTenant (db : Database ι) (i : ι) (tenantId : Identifier) :
      Answers db i (.setTenant tenantId) (.ok ()) db
  | advisoryLock (db : Database ι) (i : ι) (key : String) (t : OpenTransaction)
      (ht : db.transactions i = some t)
      (hfree : ∀ j, j ≠ i → ∀ t' ∈ db.transactions j, AdvisoryHash.hash key ∉ t'.locks) :
      Answers db i (.advisoryLock key) (.ok ())
        (db.enter i (some { t with locks := AdvisoryHash.hash key :: t.locks }))
  | selectItem (db : Database ι) (i : ι) (tenantId : Identifier) (workItemId : String)
      (t : OpenTransaction) (ht : db.transactions i = some t)
      (htext : takesText workItemId = true) :
      Answers db i (.selectItem tenantId workItemId)
        (.ok ((db.items ++ t.items).find? fun row =>
          row.tenantId = tenantId ∧ row.workItemId = workItemId)) db
  | countReserved (db : Database ι) (i : ι) (tenantId : Identifier) (t : OpenTransaction)
      (ht : db.transactions i = some t) :
      Answers db i (.countReserved tenantId)
        (.ok ((db.reserved tenantId).length + (t.events.filter (·.reserves tenantId)).length)) db
  | maxSequence (db : Database ι) (i : ι) (tenantId : Identifier) (workItemId : String)
      (t : OpenTransaction) (ht : db.transactions i = some t)
      (htext : takesText workItemId = true) :
      Answers db i (.maxSequence tenantId workItemId)
        (.ok (db.sequences t tenantId workItemId).max?) db
  | insertItem (db : Database ι) (i : ι) (row : WorkflowItemRow) (t : OpenTransaction)
      (ht : db.transactions i = some t)
      (hnew : ∀ other ∈ db.items ++ t.items,
        ¬ (row.tenantId = other.tenantId ∧ row.workItemId = other.workItemId)) :
      Answers db i (.insertItem row) (.ok ())
        (db.enter i (some { t with items := t.items ++ [row] }))
  | insertEvent (db : Database ι) (i : ι) (row : WorkflowEventRow) (t : OpenTransaction)
      (ht : db.transactions i = some t)
      (hnew : ∀ other ∈ db.events.map (·.row) ++ t.events, ¬ row.clashes other) :
      Answers db i (.insertEvent row) (.ok ())
        (db.enter i (some { t with events := t.events ++ [row] }))
  | selectItems (db : Database ι) (i : ι) (tenantId : Identifier) (rows : List WorkflowItemRow)
      (t : OpenTransaction) (ht : db.transactions i = some t)
      (hrows : rows.Perm (db.itemRows t tenantId)) :
      Answers db i (.selectItems tenantId) (.ok rows) db
  | selectEvents (db : Database ι) (i : ι) (tenantId : Identifier) (workItemId : String)
      (t : OpenTransaction) (ht : db.transactions i = some t)
      (htext : takesText workItemId = true) :
      Answers db i (.selectEvents tenantId workItemId)
        (.ok ((db.eventRows t tenantId workItemId).insertionSort
          fun row other => row.sequence ≤ other.sequence)) db
  /-- the answer may be lost -/
  | commit (db : Database ι) (i : ι) (t : OpenTransaction) (answer : Except Failure Unit)
      (ht : db.transactions i = some t) : Answers db i .commit answer (db.commit i t)
  | commitFails (db : Database ι) (i : ι) (e : Failure) :
      Answers db i .commit (.error e) (db.enter i none)
  | rollback (db : Database ι) (i : ι) (answer : Except Failure Unit) :
      Answers db i .rollback answer (db.enter i none)
  | fails (db : Database ι) (i : ι) (r : SqlAsk) (e : Failure) (hr : r ≠ .commit ∧ r ≠ .rollback) :
      Answers db i r (.error e) db

omit [AdvisoryHash] in
/-- What else happens: a session is lost, and other methods and other workers add items, and
events of other kinds. -/
inductive Changes : Database ι → Database ι → Prop where
  | lost (db : Database ι) (i : ι) : Changes db (db.enter i none)
  | item (db : Database ι) (row : WorkflowItemRow) :
      Changes db { db with items := db.items ++ [row] }
  | event (db : Database ι) (row : WorkflowEventRow) (h : row.kind ≠ .chatTurnReserved) :
      Changes db { db with events := db.events ++ [⟨row, none⟩] }

end Database

end NokincFactory
