/-
  File:      NokincFactory/Application/InMemoryWorkflowStore.lean
  Subject:   `InMemoryWorkflowStore`: two dictionaries behind one lock.

  Each access to a dictionary is a request of its own, so that the threads of other turns run
  between any two of them, unless the lock keeps them out.

  * `MemoryAsk`: the lock and the accesses;
  * `InMemoryWorkflowStore`: the methods; `inMemoryWorkflowStore`: those that a chat turn uses;
  * `Memory`, `Memory.Answers`, `Memory.Changes`: the memory that the threads share.
-/
import NokincFactory.Application.Chat
import NokincFactory.Lib.Dict

namespace NokincFactory

/-! ## 1. The methods -/

/-- The key of an item: its tenant and its identifier. -/
abbrev ItemKey := Identifier × String

inductive MemoryAsk where
  | acquire
  | release
  | item (key : ItemKey)
  | setItem (key : ItemKey) (item : WorkflowItem)
  /-- `self._events[key] = [event]` -/
  | setEvents (key : ItemKey) (event : WorkflowEvent)
  /-- the number of reservations of a tenant, over all items -/
  | countReserved (tenantId : Identifier)
  /-- `self._events[key].append(event)` -/
  | append (key : ItemKey) (event : WorkflowEvent)
  /-- the items of a tenant -/
  | tenantItems (tenantId : Identifier)
  /-- the list under a key, or an empty one -/
  | events (key : ItemKey)

/-- What an access returns. -/
@[reducible] def MemoryAsk.Value : MemoryAsk → Type
  | .item _ => Option WorkflowItem
  | .countReserved _ => ℕ
  | .tenantItems _ => List WorkflowItem
  | .events _ => List WorkflowEvent
  | _ => Unit

/-- An access may raise instead. -/
abbrev MemoryAsk.Answer (r : MemoryAsk) : Type := Except Failure r.Value

abbrev MemoryProg (α : Type) : Type := ChatProg MemoryAsk.Answer α

namespace InMemoryWorkflowStore

def access (r : MemoryAsk) : MemoryProg r.Value := .ask (.store r) .ofExcept

/-- `with self._lock`. -/
def locked {α : Type} (body : MemoryProg α) : MemoryProg α := do
  access .acquire
  let outcome ← body.attempt
  access .release
  .ofExcept outcome

section Methods

variable [Sha256] [ChatLibraries]

def createIntake (tenantId actorId : Identifier) (now : Datetime) (message : String)
    (repository : Option String) (repositories : List String)
    (analysisProfile : Option AnalysisProfile) : MemoryProg WorkflowItem := do
  let (created, event) ← newIntake tenantId actorId now message repository repositories
    analysisProfile
  locked do
    access (.setItem (tenantId, created.workItemId.text) created)
    access (.setEvents (tenantId, created.workItemId.text) event)
  pure created

def get (tenantId : Identifier) (workItemId : String) : MemoryProg (Option WorkflowItem) :=
  locked (access (.item (tenantId, workItemId)))

/-- The item that an actor appends to must be the actor's own. -/
def ownItem (key : ItemKey) (actorId : Identifier) : MemoryProg Unit := do
  let found ← access (.item key)
  .insist (∃ own ∈ found, own.createdBy = actorId) (.value "Work item not found")

/-- The item that is appended to must be there. -/
def storedItem (key : ItemKey) : MemoryProg Unit := do
  let found ← access (.item key)
  .insist (found.isSome = true) (.value "Work item not found")

def recordGroundedAnalysis (tenantId workItemId actorId : Identifier)
    (analysis : GroundedAnalysisAudit) (now : Datetime) : MemoryProg WorkflowEvent := do
  let event ← newEvent tenantId workItemId actorId (.groundedAnalysisRecorded analysis) now
  locked do
    storedItem (tenantId, workItemId.text)
    access (.append (tenantId, workItemId.text) event)
  pure event

def recordChatTurn (tenantId workItemId actorId : Identifier) (audit : ChatTurnAudit)
    (now : Datetime) : MemoryProg WorkflowEvent := do
  let event ← newEvent tenantId workItemId actorId (.chatTurnRecorded audit) now
  locked do
    ownItem (tenantId, workItemId.text) actorId
    access (.append (tenantId, workItemId.text) event)
  pure event

/-- The tenant's reservations must be below a limit that there is. -/
def checkTurnLimit (tenantId : Identifier) : Option ℤ → MemoryProg Unit
  | none => pure ()
  | some limit => do
      let used ← access (.countReserved tenantId)
      .insist ((used : ℤ) < limit) (.turnLimit "Tenant chat-turn limit exhausted")

def reserveChatTurn (tenantId workItemId actorId : Identifier) (reservation : ChatTurnReservation)
    (limit : Option ℤ) (now : Datetime) : MemoryProg WorkflowEvent := do
  .insist (∀ l ∈ limit, 0 < l) (.turnLimit "Model-backed chat is disabled by turn-limit policy")
  locked do
    ownItem (tenantId, workItemId.text) actorId
    checkTurnLimit tenantId limit
    let event ← newEvent tenantId workItemId actorId (.chatTurnReserved reservation) now
    access (.append (tenantId, workItemId.text) event)
    pure event

def list (tenantId : Identifier) : MemoryProg (List WorkflowItem) :=
  locked (access (.tenantItems tenantId))

/-- Whether there is such an item is left to the dictionary of the events. -/
def addGateRequest (tenantId workItemId actorId : Identifier) (gate : String)
    (decision : GateDecision) (decisionDigest : String) (now : Datetime) :
    MemoryProg WorkflowEvent := do
  let event ← newGateRequest tenantId workItemId actorId gate decision decisionDigest now
  locked (access (.append (tenantId, workItemId.text) event))
  pure event

def trace (tenantId : Identifier) (workItemId : String) : MemoryProg (List WorkflowEvent) :=
  locked (access (.events (tenantId, workItemId)))

end Methods

end InMemoryWorkflowStore

def inMemoryWorkflowStore [Sha256] [ChatLibraries] : WorkflowStore MemoryAsk.Answer where
  createIntake := InMemoryWorkflowStore.createIntake
  get := InMemoryWorkflowStore.get
  reserveChatTurn := InMemoryWorkflowStore.reserveChatTurn
  recordChatTurn := InMemoryWorkflowStore.recordChatTurn

/-! ## 2. The memory -/

/-- An event of `_events`, with the turn that put it there, if a turn did. -/
structure MemoryEvent (ι : Type) where
  key : ItemKey
  event : WorkflowEvent
  requester : Option ι

/-- The memory of a store; the lists of `_events` stand one after another. -/
structure Memory (ι : Type) where
  holder : Option ι
  items : Dict ItemKey WorkflowItem
  events : List (MemoryEvent ι)

namespace Memory

variable {ι : Type}

/-- The `CHAT_TURN_RESERVED` events of a tenant. -/
def reserved (m : Memory ι) (tenantId : Identifier) : List (MemoryEvent ι) :=
  m.events.filter fun e => e.key.1 = tenantId ∧ e.event.kind = .chatTurnReserved

/-- The items of a tenant, in the order of the dictionary. -/
def tenantItems (m : Memory ι) (tenantId : Identifier) : List WorkflowItem :=
  (m.items.entries.filterMap fun e => if e.1.1 = tenantId then some e.2 else none).reverse

/-- The list under a key. -/
def eventsAt (m : Memory ι) (key : ItemKey) : List WorkflowEvent :=
  (m.events.filter (·.key = key)).map (·.event)

/-- `InMemoryWorkflowStore()`. -/
def empty : Memory ι := ⟨none, ∅, []⟩

/-- One access by a turn. -/
inductive Answers : Memory ι → ι → (r : MemoryAsk) → r.Answer → Memory ι → Prop where
  | acquire (m : Memory ι) (i : ι) (h : m.holder = none ∨ m.holder = some i) :
      Answers m i .acquire (.ok ()) { m with holder := some i }
  | release (m : Memory ι) (i : ι) (h : m.holder = some i) :
      Answers m i .release (.ok ()) { m with holder := none }
  | item (m : Memory ι) (i : ι) (key : ItemKey) :
      Answers m i (.item key) (.ok (AList.lookup key m.items)) m
  | setItem (m : Memory ι) (i : ι) (key : ItemKey) (item : WorkflowItem) :
      Answers m i (.setItem key item) (.ok ()) { m with items := AList.insert key item m.items }
  /-- the key ends in a `uuid4` that has just been drawn: no list stands under it yet -/
  | setEvents (m : Memory ι) (i : ι) (key : ItemKey) (event : WorkflowEvent)
      (h : ∀ e ∈ m.events, e.key ≠ key) :
      Answers m i (.setEvents key event) (.ok ())
        { m with events := m.events ++ [⟨key, event, some i⟩] }
  | countReserved (m : Memory ι) (i : ι) (tenantId : Identifier) :
      Answers m i (.countReserved tenantId) (.ok (m.reserved tenantId).length) m
  | append (m : Memory ι) (i : ι) (key : ItemKey) (event : WorkflowEvent) :
      Answers m i (.append key event) (.ok ())
        { m with events := m.events ++ [⟨key, event, some i⟩] }
  | tenantItems (m : Memory ι) (i : ι) (tenantId : Identifier) :
      Answers m i (.tenantItems tenantId) (.ok (m.tenantItems tenantId)) m
  | events (m : Memory ι) (i : ι) (key : ItemKey) :
      Answers m i (.events key) (.ok (m.eventsAt key)) m
  | fails (m : Memory ι) (i : ι) (r : MemoryAsk) (e : Failure) : Answers m i r (.error e) m

/-- What the other methods do: `record_grounded_analysis` and `add_gate_request` append. -/
inductive Changes : Memory ι → Memory ι → Prop where
  | append (m : Memory ι) (key : ItemKey) (event : WorkflowEvent)
      (h : event.kind = .groundedAnalysisRecorded ∨ event.kind = .gateRequested) :
      Changes m { m with events := m.events ++ [⟨key, event, none⟩] }

end Memory

end NokincFactory
