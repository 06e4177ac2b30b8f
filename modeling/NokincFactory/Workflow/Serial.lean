/-
  File:      NokincFactory/Workflow/Serial.lean
  Subject:   The two workflow stores, called one call after another.

  One caller, and a store that is there: the lock is free, and the database takes every statement
  that its constraints allow and whose texts it takes. What is answered then is a function, and it
  is one of the answers that the threads of a chat get (`Memory.answer_answers`,
  `Database.answer_answers`).

  * `WorkItemStore`: all methods of a store;
  * `Memory.answer`, `Database.answer`: what one access, or one statement, does;
  * `StoreCall`, `StoreCall.on`: the calls of a caller, and what they run;
  * `serve`: one call, with the identifiers that it draws;
  * `twins`: the same calls to both stores, from empty ones.
-/
import NokincFactory.Adapters.PostgresWorkflowStore
import NokincFactory.Application.InMemoryWorkflowStore

namespace NokincFactory

/-! ## 1. Stores -/

/-- All of the `WorkflowStore` protocol. -/
structure WorkItemStore {S : Type} (A : S → Type) extends WorkflowStore A where
  recordGroundedAnalysis (tenantId workItemId actorId : Identifier)
    (analysis : GroundedAnalysisAudit) (now : Datetime) : ChatProg A WorkflowEvent
  list (tenantId : Identifier) : ChatProg A (List WorkflowItem)
  addGateRequest (tenantId workItemId actorId : Identifier) (gate : String)
    (decision : GateDecision) (decisionDigest : String) (now : Datetime) : ChatProg A WorkflowEvent
  trace (tenantId : Identifier) (workItemId : String) : ChatProg A (List WorkflowEvent)

section Stores

variable [Sha256] [ChatLibraries]

def inMemoryWorkItemStore : WorkItemStore MemoryAsk.Answer where
  toWorkflowStore := inMemoryWorkflowStore
  recordGroundedAnalysis := InMemoryWorkflowStore.recordGroundedAnalysis
  list := InMemoryWorkflowStore.list
  addGateRequest := InMemoryWorkflowStore.addGateRequest
  trace := InMemoryWorkflowStore.trace

def postgresWorkItemStore : WorkItemStore SqlAsk.Answer where
  toWorkflowStore := postgresWorkflowStore
  recordGroundedAnalysis := PostgresWorkflowStore.recordGroundedAnalysis
  list := PostgresWorkflowStore.list
  addGateRequest := PostgresWorkflowStore.addGateRequest
  trace := PostgresWorkflowStore.trace

end Stores

/-! ## 2. The memory -/

/-- What one access does. -/
def Memory.answer (m : Memory Unit) : (r : MemoryAsk) → r.Answer × Memory Unit
  | .acquire => (.ok (), { m with holder := some () })
  | .release =>
      if m.holder = some () then (.ok (), { m with holder := none }) else (.error .other, m)
  | .item key => (.ok (AList.lookup key m.items), m)
  | .setItem key item => (.ok (), { m with items := AList.insert key item m.items })
  | .setEvents key event =>
      (.ok (), { m with events := m.events.filter (·.key ≠ key) ++ [⟨key, event, some ()⟩] })
  | .countReserved tenantId => (.ok (m.reserved tenantId).length, m)
  -- `self._events[key]` raises a `KeyError` where there is no such list
  | .append key event =>
      if ∃ e ∈ m.events, e.key = key then
        (.ok (), { m with events := m.events ++ [⟨key, event, some ()⟩] })
      else (.error .other, m)
  | .tenantItems tenantId => (.ok (m.tenantItems tenantId), m)
  | .events key => (.ok (m.eventsAt key), m)

/-- It is an answer that a thread may get. -/
theorem Memory.answer_answers (m : Memory Unit) (r : MemoryAsk)
    (hnew : ∀ key event, r = .setEvents key event → ∀ e ∈ m.events, e.key ≠ key) :
    Memory.Answers m () r (m.answer r).1 (m.answer r).2 := by
  cases r with
  | acquire =>
      refine .acquire m () ?_
      cases m.holder with
      | none => exact .inl rfl
      | some i => exact .inr rfl
  | release =>
      unfold Memory.answer
      dsimp only
      split
      next hheld => exact .release m () hheld
      next => exact .fails m () _ _
  | item key => exact .item m () key
  | setItem key item => exact .setItem m () key item
  | setEvents key event =>
      have hkeys := hnew key event rfl
      have hall : m.events.filter (·.key ≠ key) = m.events :=
        List.filter_eq_self.mpr fun e he => decide_eq_true (hkeys e he)
      unfold Memory.answer
      dsimp only
      rw [hall]
      exact .setEvents m () key event hkeys
  | countReserved tenantId => exact .countReserved m () tenantId
  | append key event =>
      unfold Memory.answer
      dsimp only
      split
      · exact .append m () key event
      · exact .fails m () _ _
  | tenantItems tenantId => exact .tenantItems m () tenantId
  | events key => exact .events m () key

/-! ## 3. The database -/

/-- The order in which the database finds the rows of a table. -/
class TableScan where
  order : List WorkflowItemRow → List WorkflowItemRow
  perm : ∀ rows, (order rows).Perm rows

instance (row other : WorkflowEventRow) : Decidable (row.clashes other) :=
  inferInstanceAs (Decidable (_ ∨ _))

namespace Database

/-- A database with empty tables. -/
def empty : Database Unit := ⟨[], [], fun _ => none⟩

variable [AdvisoryHash] [TableScan]

/-- What a statement does in the transaction that is open, if there is one. -/
def within {α : Type} (db : Database Unit)
    (f : OpenTransaction → Except Failure α × Database Unit) :
    Except Failure α × Database Unit :=
  match db.transactions () with
  | none => (.error .other, db)
  | some t => f t

/-- What one statement does. -/
def answer (db : Database Unit) : (r : SqlAsk) → r.Answer × Database Unit
  | .begin => (.ok (), db.enter () (some ⟨[], [], []⟩))
  -- a worker's role, as `grant_worker` checks it
  | .unsafeRole => (.ok false, db)
  | .setTenant _ => (.ok (), db)
  | .advisoryLock key => db.within fun t =>
      (.ok (), db.enter () (some { t with locks := AdvisoryHash.hash key :: t.locks }))
  | .selectItem tenantId workItemId => db.within fun t =>
      if takesText workItemId then
        (.ok ((db.items ++ t.items).find? fun row =>
          row.tenantId = tenantId ∧ row.workItemId = workItemId), db)
      else (.error .other, db)
  | .countReserved tenantId => db.within fun t =>
      (.ok ((db.reserved tenantId).length + (t.events.filter (·.reserves tenantId)).length), db)
  | .maxSequence tenantId workItemId => db.within fun t =>
      if takesText workItemId then (.ok (db.sequences t tenantId workItemId).max?, db)
      else (.error .other, db)
  | .insertItem row => db.within fun t =>
      if ∀ other ∈ db.items ++ t.items,
          ¬ (row.tenantId = other.tenantId ∧ row.workItemId = other.workItemId) then
        (.ok (), db.enter () (some { t with items := t.items ++ [row] }))
      else (.error .integrity, db)
  -- the key of the event is free, and its item is there
  | .insertEvent row => db.within fun t =>
      if (∀ other ∈ db.events.map (·.row) ++ t.events, ¬ row.clashes other) ∧
          ∃ item ∈ db.items ++ t.items,
            item.tenantId = row.tenantId ∧ item.workItemId = row.workItemId then
        (.ok (), db.enter () (some { t with events := t.events ++ [row] }))
      else (.error .integrity, db)
  | .selectItems tenantId => db.within fun t =>
      (.ok (TableScan.order (db.itemRows t tenantId)), db)
  | .selectEvents tenantId workItemId => db.within fun t =>
      if takesText workItemId then
        (.ok ((db.eventRows t tenantId workItemId).insertionSort
          fun row other => row.sequence ≤ other.sequence), db)
      else (.error .other, db)
  | .commit =>
      match db.transactions () with
      | none => (.error .other, db.enter () none)
      | some t => (.ok (), db.commit () t)
  | .rollback => (.ok (), db.enter () none)

omit [TableScan] in
/-- A statement that answers in an open transaction, or fails without one. -/
theorem within_answers {db : Database Unit} {r : SqlAsk} (hr : r ≠ .commit ∧ r ≠ .rollback)
    {f : OpenTransaction → r.Answer × Database Unit}
    (hf : ∀ t, db.transactions () = some t → Answers db () r (f t).1 (f t).2) :
    Answers db () r (db.within f).1 (db.within f).2 := by
  unfold within
  cases ht : db.transactions () with
  | none => exact .fails db () r _ hr
  | some t => exact hf t ht

/-- It is an answer that a session may get. -/
theorem answer_answers (db : Database Unit) (r : SqlAsk) :
    Answers db () r (db.answer r).1 (db.answer r).2 := by
  cases r with
  | begin => exact .begin db ()
  | unsafeRole => exact .unsafeRole db () false
  | setTenant tenantId => exact .setTenant db () tenantId
  | advisoryLock key =>
      refine within_answers (r := .advisoryLock key) ⟨nofun, nofun⟩
        fun t ht => .advisoryLock db () key t ht ?_
      exact fun j hj => absurd rfl hj
  | selectItem tenantId workItemId =>
      refine within_answers (r := .selectItem tenantId workItemId) ⟨nofun, nofun⟩ fun t ht => ?_
      split
      next htext => exact .selectItem db () tenantId workItemId t ht htext
      next => exact .fails db () _ _ ⟨nofun, nofun⟩
  | countReserved tenantId =>
      exact within_answers (r := .countReserved tenantId) ⟨nofun, nofun⟩
        fun t ht => .countReserved db () tenantId t ht
  | maxSequence tenantId workItemId =>
      refine within_answers (r := .maxSequence tenantId workItemId) ⟨nofun, nofun⟩ fun t ht => ?_
      split
      next htext => exact .maxSequence db () tenantId workItemId t ht htext
      next => exact .fails db () _ _ ⟨nofun, nofun⟩
  | insertItem row =>
      refine within_answers (r := .insertItem row) ⟨nofun, nofun⟩ fun t ht => ?_
      split
      · exact .insertItem db () row t ht ‹_›
      · exact .fails db () _ _ ⟨nofun, nofun⟩
  | insertEvent row =>
      refine within_answers (r := .insertEvent row) ⟨nofun, nofun⟩ fun t ht => ?_
      split
      next hnew => exact .insertEvent db () row t ht hnew.1
      next => exact .fails db () _ _ ⟨nofun, nofun⟩
  | selectItems tenantId =>
      exact within_answers (r := .selectItems tenantId) ⟨nofun, nofun⟩ fun t ht =>
        .selectItems db () tenantId _ t ht (TableScan.perm _)
  | selectEvents tenantId workItemId =>
      refine within_answers (r := .selectEvents tenantId workItemId) ⟨nofun, nofun⟩ fun t ht => ?_
      split
      next htext => exact .selectEvents db () tenantId workItemId t ht htext
      next => exact .fails db () _ _ ⟨nofun, nofun⟩
  | commit =>
      unfold answer
      cases ht : db.transactions () with
      | none => exact .commitFails db () _
      | some t => exact .commit db () t _ ht
  | rollback => exact .rollback db () _

end Database

/-! ## 4. Calls -/

inductive StoreCall where
  | createIntake (tenantId actorId : Identifier) (now : Datetime) (message : String)
      (repository : Option String) (repositories : List String)
      (analysisProfile : Option AnalysisProfile)
  | recordGroundedAnalysis (tenantId workItemId actorId : Identifier)
      (analysis : GroundedAnalysisAudit) (now : Datetime)
  | reserveChatTurn (tenantId workItemId actorId : Identifier) (reservation : ChatTurnReservation)
      (limit : Option ℤ) (now : Datetime)
  | recordChatTurn (tenantId workItemId actorId : Identifier) (audit : ChatTurnAudit)
      (now : Datetime)
  | addGateRequest (tenantId workItemId actorId : Identifier) (gate : String)
      (decision : GateDecision) (decisionDigest : String) (now : Datetime)
  | get (tenantId : Identifier) (workItemId : String)
  | list (tenantId : Identifier)
  | trace (tenantId : Identifier) (workItemId : String)

/-- A call whose texts PostgreSQL takes. Only a look for an item may have another one. -/
def StoreCall.sendable : StoreCall → Bool
  | .get _ workItemId | .trace _ workItemId => takesText workItemId
  | _ => true

inductive StoreResult where
  | item (item : WorkflowItem)
  | event (event : WorkflowEvent)
  | found (item : Option WorkflowItem)
  | items (listed : List WorkflowItem)
  | events (traced : List WorkflowEvent)

/-- Equal results; a list of items up to its order. -/
def StoreResult.Same : StoreResult → StoreResult → Prop
  | .items listed, .items listed' => listed.Perm listed'
  | r, r' => r = r'

/-- Both raise, or both return the same. -/
def SameOutcome : Except Failure StoreResult → Except Failure StoreResult → Prop
  | .ok r, .ok r' => r.Same r'
  | .error _, .error _ => True
  | _, _ => False

section Calls

variable {S W : Type} {A : S → Type}

/-- The method that a call runs. -/
def StoreCall.on (store : WorkItemStore A) : StoreCall → ChatProg A StoreResult
  | .createIntake tenantId actorId now message repository repositories analysisProfile => do
      let item ← store.createIntake tenantId actorId now message repository repositories
        analysisProfile
      pure (.item item)
  | .recordGroundedAnalysis tenantId workItemId actorId analysis now => do
      let event ← store.recordGroundedAnalysis tenantId workItemId actorId analysis now
      pure (.event event)
  | .reserveChatTurn tenantId workItemId actorId reservation limit now => do
      let event ← store.reserveChatTurn tenantId workItemId actorId reservation limit now
      pure (.event event)
  | .recordChatTurn tenantId workItemId actorId audit now => do
      let event ← store.recordChatTurn tenantId workItemId actorId audit now
      pure (.event event)
  | .addGateRequest tenantId workItemId actorId gate decision decisionDigest now => do
      let event ← store.addGateRequest tenantId workItemId actorId gate decision decisionDigest
        now
      pure (.event event)
  | .get tenantId workItemId => do
      let item ← store.get tenantId workItemId
      pure (.found item)
  | .list tenantId => do
      let items ← store.list tenantId
      pure (.items items)
  | .trace tenantId workItemId => do
      let events ← store.trace tenantId workItemId
      pure (.events events)

/-- A store answers its requests, and `uuid4` draws what is left to be drawn. A method asks
neither models nor readers nor clocks. -/
def serially (answer : W → (r : S) → A r × W) :
    W × List Uuid → (r : ChatAsk S) → ChatAsk.Answer A r × (W × List Uuid)
  | (w, drawn), .store r => ((answer w r).1, ((answer w r).2, drawn))
  | (w, drawn), .uuid => (drawn.headD ⟨0⟩, (w, drawn.tail))
  | s, .complete _ _ => (.error .other, s)
  | s, .readCodebaseContext _ _ => (.error .other, s)
  | s, .now => (⟨0, none⟩, s)
  | s, .timer => (0, s)

/-- One call, with the two identifiers that it may draw. -/
def serve (answer : W → (r : S) → A r × W) (store : WorkItemStore A) (w : W) (call : StoreCall)
    (first second : Uuid) : Except Failure StoreResult × W :=
  let ended := (call.on store).run (serially answer) (w, [first, second])
  (ended.1, ended.2.1)

end Calls

/-- One call to both stores, and what each of them returned or raised. -/
structure TwinCall where
  call : StoreCall
  first : Uuid
  second : Uuid
  inMemory : Except Failure StoreResult
  postgres : Except Failure StoreResult

def TwinCall.drawn (c : TwinCall) : List Uuid := [c.first, c.second]

section Twins

variable [Sha256] [ChatLibraries] [AdvisoryHash] [TableScan]

/-- A call to the store in memory. -/
def Memory.serve (m : Memory Unit) (call : StoreCall) (first second : Uuid) :
    Except Failure StoreResult × Memory Unit :=
  NokincFactory.serve Memory.answer inMemoryWorkItemStore m call first second

/-- A call to the store over the database. -/
def Database.serve (db : Database Unit) (call : StoreCall) (first second : Uuid) :
    Except Failure StoreResult × Database Unit :=
  NokincFactory.serve Database.answer postgresWorkItemStore db call first second

/-- The same calls to both stores, one after another, from empty ones. -/
def twins : Labelled TwinCall (Memory Unit × Database Unit) where
  start s := s = (Memory.empty, Database.empty)
  step s c s' := s.1.serve c.call c.first c.second = (c.inMemory, s'.1) ∧
    s.2.serve c.call c.first c.second = (c.postgres, s'.2)

end Twins

end NokincFactory
