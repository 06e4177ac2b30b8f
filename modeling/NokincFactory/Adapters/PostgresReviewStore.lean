/-
  File:      NokincFactory/Adapters/PostgresReviewStore.lean
  Subject:   `postgres_review_store.py` over the tables of `postgres_review_schema.py`:
             one call of `compare_and_reserve` as a function of the whole store.

  The row locks make a call atomic, and whatever is raised rolls the transaction back, so
  a call answers a new store or leaves the old one.

  * `Store`: the four tables, each by its primary key;
  * `openUnit`: what a call checks and reads before it compares;
  * `writeUnit`: the counters, the snapshot and the event it writes;
  * `Opened`, `Wrote`: what each has checked once it returned;
  * `Committed`, `Declined`, `compareAndReserve_ok`: what a call that returned has done;
  * `Store.serve`, `Store.served`: the store after one call, and after any sequence.
-/
import Mathlib.Data.List.MinMax
import NokincFactory.Domain.ReviewBudget
import NokincFactory.Policy.ReviewPersistence

namespace NokincFactory

/-! ## 1. The tables -/

/-- A row of `factory_review_budget`, keyed by tenant and budget. -/
structure BudgetRow where
  workItemId : Identifier
  limitsJson : String
  counters : Counter → ℤ
deriving DecidableEq

/-- A row of `factory_review_registration`, keyed by scope. -/
structure RegistrationRow where
  budgetId : Identifier
  seedDigest : Digest
deriving DecidableEq

/-- A row of `factory_review_session`, keyed by scope. -/
structure SessionRow where
  document : String
  digest : Digest
  sequence : ℕ
  formatVersion : ℕ
deriving DecidableEq

/-- A row of `factory_review_event`. -/
structure EventRow where
  scope : ReviewScope
  sequence : ℕ
  kind : TransitionKind
  subjectId : Identifier
  beforeDigest : Option Digest
  afterDigest : Digest
  document : String
  invocationId : Option Identifier
  provider : Option Identifier
  executionId : Option Identifier
deriving DecidableEq

structure Store where
  budgets : Dict (Identifier × Identifier) BudgetRow
  registrations : Dict ReviewScope RegistrationRow
  sessions : Dict ReviewScope SessionRow
  events : List EventRow

/-- The largest value of a `BigInteger` column. -/
def bigIntegerMax : ℤ := 2 ^ 63 - 1

/-- The largest value of an `Integer` column. -/
def integerMax : ℕ := 2 ^ 31 - 1

/-- `MAX_SESSION_BYTES`. -/
def maxSessionBytes : ℕ := 4 * 1024 * 1024

/-! ## 2. What a call can raise -/

/-- Why a call is denied (`ReviewStoreDenied`). -/
inductive Denial where
  | unsupportedSession | digestDisagrees | crossTenant | bypassesSecurity | unsafePrivileges
  | unregistered | tipDisagrees | scopeMismatch | byteLimit | notApproved | headroom
  | underflow | timeWindow | exhausted | conflict | seedDisagrees | chainInconsistent
deriving DecidableEq

def Denial.message : Denial → String
  | .unsupportedSession => "Unsupported or oversized stored session"
  | .digestDisagrees => "Stored session digest disagrees with payload"
  | .crossTenant => "Cross-tenant review access denied"
  | .bypassesSecurity => "Worker must not bypass row-level security"
  | .unsafePrivileges => "Worker has unsafe inherited/administrative privileges"
  | .unregistered => "Unit has no independently approved registration"
  | .tipDisagrees => "Stored snapshot disagrees with immutable audit tip"
  | .scopeMismatch => "Session scope mismatch"
  | .byteLimit => "Session exceeds persistence byte limit"
  | .notApproved => "Seed or parent not approved for this unit"
  | .headroom => "Session byte limit requires settlement headroom"
  | .underflow => "Aggregate budget accounting underflow"
  | .timeWindow => "Invocation time window expired or not current"
  | .exhausted => "Parent budget exhausted or expired"
  | .conflict => "Conflicting execution; reload and reconcile"
  | .seedDisagrees => "Stored seed disagrees with registered authority"
  | .chainInconsistent => "Audit event chain is inconsistent"

inductive StoreError where
  | denied (denial : Denial)
  /-- what the policy raised -/
  | raised (exc : PyError)
  /-- a stored document fails pydantic's validation -/
  | validation
  /-- `one()` found no row -/
  | noResultFound
  /-- a value does not fit its column -/
  | dataError
  /-- an `assert` failed -/
  | assertion
deriving DecidableEq

/-- Raise out of the store what the policy raised. -/
def storeRaising {α : Type} (x : Except PyError α) : Except StoreError α :=
  Except.liftWith StoreError.raised x

@[simp] theorem storeRaising_ok {α : Type} {x : Except PyError α} {a : α} :
    storeRaising x = .ok a ↔ x = .ok a := Except.liftWith_ok

/-! ## 3. Reading -/

/-- The connection of a worker: whom it acts for, and what its database role may do. -/
structure Worker where
  grant : ReviewStoreGrant
  /-- superuser, or free of row-level security, or able to create roles or databases -/
  bypasses : Bool
  /-- owner of a table, or able to change limits, registrations or past events -/
  unsafeTables : Bool
deriving DecidableEq

/-- One call of `compare_and_reserve`, with the answer of `clock_timestamp()`. -/
structure Call where
  worker : Worker
  scope : ReviewScope
  expectedDigest : Option Digest
  updated : ReviewSession
  parentBudgetId : Identifier
  clock : Moment
deriving DecidableEq

/-- `_transaction`. -/
def transaction (worker : Worker) (scope : ReviewScope) : Except StoreError Unit := do
  guardThat (scope.tenantId = worker.grant.tenantId) (.denied .crossTenant)
  guardThat (worker.bypasses = false) (.denied .bypassesSecurity)
  guardThat (worker.unsafeTables = false) (.denied .unsafePrivileges)

/-- `_registration`. -/
def findRegistration (store : Store) (scope : ReviewScope) : Except StoreError RegistrationRow :=
  match AList.lookup scope store.registrations with
  | some registration => .ok registration
  | none => .error (.denied .unregistered)

/-- The parent row, locked for the call. -/
def findParent (store : Store) (scope : ReviewScope) (parentBudgetId : Identifier) :
    Except StoreError BudgetRow :=
  match AList.lookup (scope.tenantId, parentBudgetId) store.budgets with
  | some parent => do
      guardThat (parent.workItemId = scope.workItemId) .noResultFound
      pure parent
  | none => .error .noResultFound

/-- The latest event of a scope. -/
def tip (store : Store) (scope : ReviewScope) : Option EventRow :=
  (store.events.filter (·.scope = scope)).argmax (·.sequence)

/-- `_check_tip`. -/
def checkTip (store : Store) (scope : ReviewScope) (row : Option SessionRow) :
    Except StoreError Unit :=
  match row, tip store scope with
  | none, none => .ok ()
  | some row, some tip =>
      guardThat (row.sequence = tip.sequence ∧ row.digest = tip.afterDigest ∧
        row.document = tip.document) (.denied .tipDisagrees)
  | _, _ => .error (.denied .tipDisagrees)

section Documents

variable [Sha256] [Pydantic] [ReviewDocuments]

/-- `ReviewSession.model_validate_json`. -/
def ReviewSession.modelValidateJson (document : String) : Except StoreError ReviewSession :=
  match ReviewDocuments.session document with
  | some session => .ok session
  | none => .error .validation

/-- `_decode`. -/
def decode (row : SessionRow) : Except StoreError ReviewSession := do
  guardThat (row.formatVersion = 1 ∧ row.document.utf8ByteSize ≤ maxSessionBytes)
    (.denied .unsupportedSession)
  let parsed ← ReviewSession.modelValidateJson row.document
  let result ← storeRaising (validateSession parsed)
  guardThat (contentDigest result = row.digest) (.denied .digestDisagrees)
  pure result

/-- `_decode(row) if row is not None else None`. -/
def decodeRow : Option SessionRow → Except StoreError (Option ReviewSession)
  | none => .ok none
  | some row => do
      let session ← decode row
      pure (some session)

/-- What a call has read before it compares. -/
structure Reading where
  parent : BudgetRow
  row : Option SessionRow
  current : Option ReviewSession

/-- The checks and reads of a transaction before the comparison. -/
def openUnit (store : Store) (call : Call) (updated : ReviewSession) :
    Except StoreError Reading := do
  transaction call.worker call.scope
  let registration ← findRegistration store call.scope
  guardThat (registration.budgetId = call.parentBudgetId ∧
    registration.seedDigest = contentDigest updated.seed) (.denied .notApproved)
  let parent ← findParent store call.scope call.parentBudgetId
  let row := AList.lookup call.scope store.sessions
  checkTip store call.scope row
  let current ← decodeRow row
  pure ⟨parent, row, current⟩

/-! ## 4. Writing -/

/-- `current.budget if current is not None else BudgetState()`. -/
def budgetOf (current : Option ReviewSession) : BudgetState :=
  (current.map (·.state.budget)).getD {}

omit [Sha256] [Pydantic] [ReviewDocuments] in
@[simp] theorem budgetOf_some (session : ReviewSession) :
    budgetOf (some session) = session.state.budget := rfl

/-- The counters of the parent, moved by the difference of two budgets. -/
def movedCounters (parent : BudgetRow) (current : Option ReviewSession)
    (updated : ReviewSession) (key : Counter) : ℤ :=
  parent.counters key + updated.state.budget.counter key - (budgetOf current).counter key

/-- `ParentBudget.model_validate_json`. -/
def ParentBudget.modelValidateJson (limitsJson : String) : Except StoreError ParentBudget :=
  match ReviewDocuments.parentBudget limitsJson with
  | some limits => .ok limits
  | none => .error .validation

/-- `started_at + timedelta(seconds=…)`, within the calendar. -/
def deadlineOf (invocation : Invocation) : Except StoreError Moment :=
  if h : invocation.startedAt.micros + invocation.reservation.seconds * micro ≤ latest then
    .ok ⟨invocation.startedAt.micros + invocation.reservation.seconds * micro,
      invocation.startedAt.lower.trans (Int.le_add_of_nonneg_right
        (Int.mul_nonneg (Int.natCast_nonneg _) (by decide))), h⟩
  else .error (.raised (.overflow "date value out of range"))

/-- What `_counters` asks of a reservation: its window, and the parent's ceilings. -/
def withinLimits (parent : BudgetRow) (updated : ReviewSession) (values : Counter → ℤ)
    (clock : Moment) : Except StoreError Unit := do
  let limits ← ParentBudget.modelValidateJson parent.limitsJson
  match updated.state.pending with
  | none => .error .assertion
  | some invocation => do
      let deadline ← deadlineOf invocation
      guardThat ((invocation.startedAt ≤ clock ∧ clock < deadline) ∧ deadline ≤ limits.expiresAt)
        (.denied .timeWindow)
      guardThat (clock < limits.expiresAt ∧ values .invocations ≤ limits.maxInvocations ∧
        values .repairs ≤ limits.maxRepairs ∧
        values .tokensSpent + values .tokensReserved ≤ limits.maxTokens ∧
        values .costMicrousdSpent + values .costMicrousdReserved ≤ limits.maxCostMicrousd)
        (.denied .exhausted)

/-- `_counters`. A completion settles real usage even beyond the limits. -/
def counters (parent : BudgetRow) (current : Option ReviewSession) (updated : ReviewSession)
    (kind : TransitionKind) (clock : Moment) : Except StoreError (Counter → ℤ) := do
  let values := movedCounters parent current updated
  guardThat (∀ key, 0 ≤ values key) (.denied .underflow)
  whenThat (kind = .reserve) (withinLimits parent updated values clock)
  pure values

/-- The completion receipt an event of this kind records. -/
def settledReceipt (updated : ReviewSession) (kind : TransitionKind) : Option InvocationReceipt :=
  if kind = .complete then
    (updated.attempts.getLast?.bind (·.completion)).bind (·.receipt)
  else none

/-- The event `_append_event` inserts. -/
def eventOf (call : Call) (updated : ReviewSession) (current : Option ReviewSession)
    (kind : TransitionKind) (sequence : ℕ) : EventRow where
  scope := updated.seed.scope
  sequence := sequence
  kind := kind
  subjectId := call.worker.grant.subjectId
  beforeDigest := current.map contentDigest
  afterDigest := contentDigest updated
  document := ReviewDocuments.sessionJson updated
  invocationId := if kind = .reserve then
    updated.attempts.getLast?.map (·.invocation.invocationId) else none
  provider := (settledReceipt updated kind).map (·.actualModel.provider)
  executionId := (settledReceipt updated kind).map (·.executionId)

/-- Two events the constraints of the table exclude: the primary key, the invocation id, or
    the execution of a provider. Missing values never conflict. -/
def EventRow.conflicts (e event : EventRow) : Prop :=
  (e.scope = event.scope ∧ e.sequence = event.sequence) ∨
    (event.invocationId ≠ none ∧ e.invocationId = event.invocationId) ∨
    (event.provider ≠ none ∧ event.executionId ≠ none ∧ e.provider = event.provider ∧
      e.executionId = event.executionId)

instance (e event : EventRow) : Decidable (e.conflicts event) :=
  inferInstanceAs (Decidable (_ ∨ _ ∨ _))

/-- The next sequence number of a unit. -/
def nextSequence (row : Option SessionRow) : ℕ := (row.map (·.sequence + 1)).getD 1

/-- The store with the counters, the snapshot and the event of a call. -/
def Store.written (store : Store) (call : Call) (updated : ReviewSession) (reading : Reading)
    (kind : TransitionKind) (values : Counter → ℤ) : Store :=
  { store with
    budgets := AList.insert (call.scope.tenantId, call.parentBudgetId)
      { reading.parent with counters := values } store.budgets
    sessions := AList.insert call.scope
      { document := ReviewDocuments.sessionJson updated
        digest := contentDigest updated
        sequence := nextSequence reading.row
        formatVersion := 1 } store.sessions
    events := store.events ++
      [eventOf call updated reading.current kind (nextSequence reading.row)] }

/-- The validation and the writes of a transaction after the comparison. -/
def writeUnit (store : Store) (call : Call) (updated : ReviewSession) (reading : Reading) :
    Except StoreError Store := do
  let kind ← storeRaising (validateExtension reading.current updated)
  guardThat (¬ ((kind = .create ∨ kind = .reserve) ∧
    maxSessionBytes / 2 < (ReviewDocuments.sessionJson updated).utf8ByteSize)) (.denied .headroom)
  let values ← counters reading.parent reading.current updated kind call.clock
  guardThat (∀ key, values key ≤ bigIntegerMax) .dataError
  guardThat (nextSequence reading.row ≤ integerMax) .dataError
  guardThat (∀ e ∈ store.events, ¬ e.conflicts
    (eventOf call updated reading.current kind (nextSequence reading.row))) (.denied .conflict)
  pure (store.written call updated reading kind values)

/-- `compare_and_reserve`: whether the call wrote, and the store it leaves. -/
def compareAndReserve (store : Store) (call : Call) : Except StoreError (Bool × Store) := do
  let updated ← storeRaising (validateSession call.updated)
  guardThat (updated.seed.scope = call.scope) (.denied .scopeMismatch)
  guardThat ((ReviewDocuments.sessionJson updated).utf8ByteSize ≤ maxSessionBytes)
    (.denied .byteLimit)
  let reading ← openUnit store call updated
  -- a replay never grants another dispatch right
  if reading.current = some updated then pure (false, store)
  else if call.expectedDigest ≠ reading.current.map contentDigest then pure (false, store)
  else do
    let store' ← writeUnit store call updated reading
    pure (true, store')

/-- The store after a call: what was raised has been rolled back. -/
def Store.serve (store : Store) (call : Call) : Store :=
  match compareAndReserve store call with
  | .ok (_, store') => store'
  | .error _ => store

/-- The store after calls in any order. -/
def Store.served (store : Store) (calls : List Call) : Store :=
  calls.foldl Store.serve store

/-! ## 5. What a call that returned has checked -/

omit [Sha256] [Pydantic] [ReviewDocuments] in
theorem findRegistration_ok {store : Store} {scope : ReviewScope}
    {registration : RegistrationRow} :
    findRegistration store scope = .ok registration ↔
      AList.lookup scope store.registrations = some registration := by
  unfold findRegistration
  cases AList.lookup scope store.registrations with
  | none => simp
  | some r => simp

omit [Sha256] [Pydantic] [ReviewDocuments] in
theorem findParent_ok {store : Store} {scope : ReviewScope} {parentBudgetId : Identifier}
    {parent : BudgetRow} :
    findParent store scope parentBudgetId = .ok parent ↔
      AList.lookup (scope.tenantId, parentBudgetId) store.budgets = some parent ∧
        parent.workItemId = scope.workItemId := by
  unfold findParent
  cases AList.lookup (scope.tenantId, parentBudgetId) store.budgets with
  | none => simp
  | some p =>
      simp only [Except.seq_ok, guardThat_ok, Except.pure_ok, Option.some.injEq]
      constructor
      · rintro ⟨hw, rfl⟩
        exact ⟨rfl, hw⟩
      · rintro ⟨rfl, hw⟩
        exact ⟨hw, rfl⟩

omit [Sha256] [Pydantic] in
theorem modelValidateJson_ok {document : String} {session : ReviewSession} :
    ReviewSession.modelValidateJson document = .ok session ↔
      ReviewDocuments.session document = some session := by
  unfold ReviewSession.modelValidateJson
  cases ReviewDocuments.session document with
  | none => simp
  | some s => simp

/-- A decoded row holds the document of a session that passes `validate_session`. -/
theorem decode_ok {row : SessionRow} {session : ReviewSession} (h : decode row = .ok session) :
    ReviewDocuments.session row.document = some session ∧
      validateSession session = .ok session ∧ contentDigest session = row.digest := by
  unfold decode at h
  obtain ⟨-, h⟩ := Except.seq_ok.mp h
  obtain ⟨parsed, hp, h⟩ := Except.bind_ok.mp h
  obtain ⟨result, hv, h⟩ := Except.bind_ok.mp h
  obtain ⟨hd, h⟩ := Except.seq_ok.mp h
  obtain rfl := Except.pure_ok.mp h
  have hvalid := storeRaising_ok.mp hv
  obtain ⟨-, rfl⟩ := validateSession_ok.mp hvalid
  exact ⟨modelValidateJson_ok.mp hp, hvalid, guardThat_ok.mp hd⟩

/-- What a transaction has read, and what it has checked on the way. -/
structure Opened (store : Store) (call : Call) (updated : ReviewSession) (reading : Reading) :
    Prop where
  tenant : call.scope.tenantId = call.worker.grant.tenantId
  registered : ∃ registration, AList.lookup call.scope store.registrations = some registration ∧
    registration.budgetId = call.parentBudgetId ∧
    registration.seedDigest = contentDigest updated.seed
  parent : AList.lookup (call.scope.tenantId, call.parentBudgetId) store.budgets =
    some reading.parent
  workItem : reading.parent.workItemId = call.scope.workItemId
  row : AList.lookup call.scope store.sessions = reading.row
  tip : checkTip store call.scope reading.row = .ok ()
  current : decodeRow reading.row = .ok reading.current

theorem openUnit_ok {store : Store} {call : Call} {updated : ReviewSession} {reading : Reading}
    (h : openUnit store call updated = .ok reading) : Opened store call updated reading := by
  unfold openUnit at h
  obtain ⟨ht, h⟩ := Except.seq_ok.mp h
  obtain ⟨registration, hr, h⟩ := Except.bind_ok.mp h
  obtain ⟨ha, h⟩ := Except.seq_ok.mp h
  obtain ⟨parent, hp, h⟩ := Except.bind_ok.mp h
  obtain ⟨htip, h⟩ := Except.seq_ok.mp h
  obtain ⟨current, hc, h⟩ := Except.bind_ok.mp h
  obtain rfl := Except.pure_ok.mp h
  obtain ⟨hlook, hwork⟩ := findParent_ok.mp hp
  unfold transaction at ht
  exact
    { tenant := guardThat_ok.mp (Except.seq_ok.mp ht).1
      registered := ⟨registration, findRegistration_ok.mp hr, guardThat_ok.mp ha⟩
      parent := hlook
      workItem := hwork
      row := rfl
      tip := htip
      current := hc }

/-- What a reservation has been granted against. -/
structure Granted (parent : BudgetRow) (values : Counter → ℤ) (limits : ParentBudget) : Prop where
  ceilings : ReviewDocuments.parentBudget parent.limitsJson = some limits
  invocations : values .invocations ≤ limits.maxInvocations
  repairs : values .repairs ≤ limits.maxRepairs
  tokens : values .tokensSpent + values .tokensReserved ≤ limits.maxTokens
  cost : values .costMicrousdSpent + values .costMicrousdReserved ≤ limits.maxCostMicrousd

omit [Sha256] [Pydantic] in
theorem withinLimits_ok {parent : BudgetRow} {updated : ReviewSession} {values : Counter → ℤ}
    {clock : Moment} (h : withinLimits parent updated values clock = .ok ()) :
    ∃ limits, Granted parent values limits := by
  unfold withinLimits ParentBudget.modelValidateJson at h
  obtain ⟨limits, hl, h⟩ := Except.bind_ok.mp h
  cases hp : updated.state.pending with
  | none => simp [hp] at h
  | some invocation =>
      simp only [hp] at h
      obtain ⟨deadline, -, h⟩ := Except.bind_ok.mp h
      obtain ⟨-, h⟩ := Except.seq_ok.mp h
      obtain ⟨-, hi, hr, ht, hc⟩ := guardThat_ok.mp h
      refine ⟨limits, ?_, hi, hr, ht, hc⟩
      split at hl
      · rename_i limits' hlimits
        obtain rfl := Except.ok.inj hl
        exact hlimits
      · cases hl

/-- What the writes of a transaction rest on. -/
structure Wrote (store : Store) (call : Call) (updated : ReviewSession) (reading : Reading)
    (kind : TransitionKind) (store' : Store) : Prop where
  extension : validateExtension reading.current updated = .ok kind
  nonneg : ∀ key, 0 ≤ movedCounters reading.parent reading.current updated key
  granted : kind = .reserve → ∃ limits,
    Granted reading.parent (movedCounters reading.parent reading.current updated) limits
  fits : ∀ key, movedCounters reading.parent reading.current updated key ≤ bigIntegerMax
  fresh : ∀ e ∈ store.events, ¬ e.conflicts
    (eventOf call updated reading.current kind (nextSequence reading.row))
  result : store' = store.written call updated reading kind
    (movedCounters reading.parent reading.current updated)

omit [Sha256] [Pydantic] in
theorem counters_ok {parent : BudgetRow} {current : Option ReviewSession}
    {updated : ReviewSession} {kind : TransitionKind} {clock : Moment} {values : Counter → ℤ}
    (h : counters parent current updated kind clock = .ok values) :
    values = movedCounters parent current updated ∧
      (∀ key, 0 ≤ movedCounters parent current updated key) ∧
      (kind = .reserve → ∃ limits,
        Granted parent (movedCounters parent current updated) limits) := by
  unfold counters at h
  obtain ⟨hn, h⟩ := Except.seq_ok.mp h
  obtain ⟨hw, h⟩ := Except.seq_ok.mp h
  obtain rfl := Except.pure_ok.mp h
  exact ⟨rfl, guardThat_ok.mp hn, fun hk => withinLimits_ok (whenThat_ok.mp hw hk)⟩

theorem writeUnit_ok {store store' : Store} {call : Call} {updated : ReviewSession}
    {reading : Reading} (h : writeUnit store call updated reading = .ok store') :
    ∃ kind, Wrote store call updated reading kind store' := by
  unfold writeUnit at h
  obtain ⟨kind, hk, h⟩ := Except.bind_ok.mp h
  obtain ⟨-, h⟩ := Except.seq_ok.mp h
  obtain ⟨values, hv, h⟩ := Except.bind_ok.mp h
  obtain ⟨hfit, h⟩ := Except.seq_ok.mp h
  obtain ⟨-, h⟩ := Except.seq_ok.mp h
  obtain ⟨hfresh, h⟩ := Except.seq_ok.mp h
  obtain rfl := Except.pure_ok.mp h
  obtain ⟨rfl, hn, hg⟩ := counters_ok hv
  exact ⟨kind,
    { extension := storeRaising_ok.mp hk
      nonneg := hn
      granted := hg
      fits := guardThat_ok.mp hfit
      fresh := guardThat_ok.mp hfresh
      result := rfl }⟩

/-- What a call that wrote has checked, read and written. -/
structure Committed (store : Store) (call : Call) (reading : Reading) (kind : TransitionKind)
    (store' : Store) : Prop where
  scope : call.updated.seed.scope = call.scope
  size : (ReviewDocuments.sessionJson call.updated).utf8ByteSize ≤ maxSessionBytes
  opened : Opened store call call.updated reading
  changed : reading.current ≠ some call.updated
  expected : call.expectedDigest = reading.current.map contentDigest
  wrote : Wrote store call call.updated reading kind store'

/-- What a call that answered False has read: the value it offers, or another than it expects. -/
structure Declined (store : Store) (call : Call) (reading : Reading) : Prop where
  opened : Opened store call call.updated reading
  differs : reading.current = some call.updated ∨
    call.expectedDigest ≠ reading.current.map contentDigest

/-- **What a call can do**: answer False and write nothing, or write. -/
theorem compareAndReserve_ok {store store' : Store} {call : Call} {wrote : Bool}
    (h : compareAndReserve store call = .ok (wrote, store')) :
    (wrote = false ∧ store' = store ∧ ∃ reading, Declined store call reading) ∨
      (wrote = true ∧ ∃ reading kind, Committed store call reading kind store') := by
  unfold compareAndReserve at h
  obtain ⟨updated, hv, h⟩ := Except.bind_ok.mp h
  obtain ⟨-, rfl⟩ := validateSession_ok.mp (storeRaising_ok.mp hv)
  obtain ⟨hs, h⟩ := Except.seq_ok.mp h
  obtain ⟨hsize, h⟩ := Except.seq_ok.mp h
  obtain ⟨reading, ho, h⟩ := Except.bind_ok.mp h
  split at h
  · rename_i hsame
    obtain ⟨rfl, rfl⟩ := Prod.mk.inj (Except.pure_ok.mp h)
    exact Or.inl ⟨rfl, rfl, reading, openUnit_ok ho, Or.inl hsame⟩
  · rename_i hchanged
    split at h
    · rename_i hexpected
      obtain ⟨rfl, rfl⟩ := Prod.mk.inj (Except.pure_ok.mp h)
      exact Or.inl ⟨rfl, rfl, reading, openUnit_ok ho, Or.inr hexpected⟩
    · rename_i hexpected
      obtain ⟨written, hw, h⟩ := Except.bind_ok.mp h
      obtain ⟨rfl, rfl⟩ := Prod.mk.inj (Except.pure_ok.mp h)
      obtain ⟨kind, hwrote⟩ := writeUnit_ok hw
      exact Or.inr ⟨rfl, reading, kind,
        { scope := guardThat_ok.mp hs
          size := guardThat_ok.mp hsize
          opened := openUnit_ok ho
          changed := hchanged
          expected := not_not.mp hexpected
          wrote := hwrote }⟩

/-! ## 6. Calls that return -/

theorem openUnit_of {store : Store} {call : Call} {updated : ReviewSession}
    {registration : RegistrationRow} {parent : BudgetRow} {current : Option ReviewSession}
    (ht : transaction call.worker call.scope = .ok ())
    (hr : AList.lookup call.scope store.registrations = some registration)
    (hb : registration.budgetId = call.parentBudgetId)
    (hs : registration.seedDigest = contentDigest updated.seed)
    (hp : AList.lookup (call.scope.tenantId, call.parentBudgetId) store.budgets = some parent)
    (hw : parent.workItemId = call.scope.workItemId)
    (htip : checkTip store call.scope (AList.lookup call.scope store.sessions) = .ok ())
    (hc : decodeRow (AList.lookup call.scope store.sessions) = .ok current) :
    openUnit store call updated =
      .ok ⟨parent, AList.lookup call.scope store.sessions, current⟩ := by
  unfold openUnit
  rw [ht, Except.ok_bind, findRegistration_ok.mpr hr, Except.ok_bind, guardThat_pass ⟨hb, hs⟩,
    Except.ok_bind, findParent_ok.mpr ⟨hp, hw⟩, Except.ok_bind]
  simp only [htip, hc, Except.ok_bind]
  rfl

/-- A valid value offered against what is stored is written, or refused, by `writeUnit`. -/
theorem compareAndReserve_of {store : Store} {call : Call} {reading : Reading}
    (hv : validateSession call.updated = .ok call.updated)
    (hs : call.updated.seed.scope = call.scope)
    (hsize : (ReviewDocuments.sessionJson call.updated).utf8ByteSize ≤ maxSessionBytes)
    (ho : openUnit store call call.updated = .ok reading)
    (hne : reading.current ≠ some call.updated)
    (he : call.expectedDigest = reading.current.map contentDigest) :
    compareAndReserve store call =
      (do
        let store' ← writeUnit store call call.updated reading
        pure (true, store')) := by
  unfold compareAndReserve
  rw [storeRaising_ok.mpr hv, Except.ok_bind, guardThat_pass hs, Except.ok_bind,
    guardThat_pass hsize, Except.ok_bind, ho, Except.ok_bind, if_neg hne, if_neg (not_not.mpr he)]

/-- Of the guards of a completion within its columns only the constraints of the events are
left. -/
theorem writeUnit_of_complete {store : Store} {call : Call} {updated : ReviewSession}
    {reading : Reading} (hk : validateExtension reading.current updated = .ok .complete)
    (hn : ∀ key, 0 ≤ movedCounters reading.parent reading.current updated key)
    (hfit : ∀ key, movedCounters reading.parent reading.current updated key ≤ bigIntegerMax)
    (hseq : nextSequence reading.row ≤ integerMax) :
    writeUnit store call updated reading =
      (do
        guardThat (∀ e ∈ store.events, ¬ e.conflicts
          (eventOf call updated reading.current .complete (nextSequence reading.row)))
          (.denied .conflict)
        pure (store.written call updated reading .complete
          (movedCounters reading.parent reading.current updated))) := by
  have hcounters : counters reading.parent reading.current updated .complete call.clock =
      .ok (movedCounters reading.parent reading.current updated) :=
    Except.seq_ok.mpr ⟨guardThat_pass hn, Except.seq_ok.mpr ⟨rfl, rfl⟩⟩
  have hroom : ¬ ((TransitionKind.complete = .create ∨ TransitionKind.complete = .reserve) ∧
      maxSessionBytes / 2 < (ReviewDocuments.sessionJson updated).utf8ByteSize) := by
    rintro ⟨h | h, -⟩
    · cases h
    · cases h
  unfold writeUnit
  rw [storeRaising_ok.mpr hk, Except.ok_bind, guardThat_pass hroom, Except.ok_bind, hcounters,
    Except.ok_bind, guardThat_pass hfit, Except.ok_bind, guardThat_pass hseq, Except.ok_bind]

/-! ## 7. What a call cannot raise -/

omit [Sha256] [Pydantic] in
theorem withinLimits_ne_underflow (parent : BudgetRow) (updated : ReviewSession)
    (values : Counter → ℤ) (clock : Moment) :
    withinLimits parent updated values clock ≠ .error (.denied .underflow) := by
  unfold withinLimits
  refine Except.bind_ne_error ?_ fun limits => ?_
  · unfold ParentBudget.modelValidateJson
    split
    · exact fun h => by cases h
    · exact fun h => by cases h
  · cases updated.state.pending with
    | none => exact fun h => by cases h
    | some invocation =>
        refine Except.bind_ne_error ?_ fun deadline => Except.bind_ne_error ?_ fun _ => ?_
        · unfold deadlineOf
          split
          · exact fun h => by cases h
          · exact fun h => by cases h
        · exact guardThat_ne_error (by decide)
        · exact guardThat_ne_error (by decide)

theorem decode_ne_underflow (row : SessionRow) :
    decode row ≠ .error (.denied .underflow) := by
  unfold decode
  refine Except.bind_ne_error (guardThat_ne_error (by decide)) fun _ =>
    Except.bind_ne_error ?_ fun parsed => Except.bind_ne_error ?_ fun result =>
      Except.bind_ne_error (guardThat_ne_error (by decide)) fun _ => nofun
  · unfold ReviewSession.modelValidateJson
    split
    · exact nofun
    · exact nofun
  · exact Except.liftWith_ne_error fun e => nofun

theorem openUnit_ne_underflow (store : Store) (call : Call) (updated : ReviewSession) :
    openUnit store call updated ≠ .error (.denied .underflow) := by
  unfold openUnit
  refine Except.bind_ne_error ?_ fun _ => Except.bind_ne_error ?_ fun registration =>
    Except.bind_ne_error (guardThat_ne_error (by decide)) fun _ =>
      Except.bind_ne_error ?_ fun parent => Except.bind_ne_error ?_ fun _ =>
        Except.bind_ne_error ?_ fun current => nofun
  · unfold transaction
    exact Except.bind_ne_error (guardThat_ne_error (by decide)) fun _ =>
      Except.bind_ne_error (guardThat_ne_error (by decide)) fun _ =>
        guardThat_ne_error (by decide)
  · unfold findRegistration
    split
    · exact nofun
    · exact nofun
  · unfold findParent
    split
    · exact Except.bind_ne_error (guardThat_ne_error (by decide)) fun _ => nofun
    · exact nofun
  · unfold checkTip
    split
    · exact nofun
    · exact guardThat_ne_error (by decide)
    · exact nofun
  · unfold decodeRow
    split
    · exact nofun
    · exact Except.bind_ne_error (decode_ne_underflow _) fun session => nofun

omit [Sha256] [Pydantic] in
theorem counters_underflow {parent : BudgetRow} {current : Option ReviewSession}
    {updated : ReviewSession} {kind : TransitionKind} {clock : Moment}
    (h : counters parent current updated kind clock = .error (.denied .underflow)) :
    ∃ key, movedCounters parent current updated key < 0 := by
  unfold counters at h
  rcases Except.bind_error.mp h with h | ⟨-, -, h⟩
  · obtain ⟨key, hkey⟩ := not_forall.mp (guardThat_error.mp h).1
    exact ⟨key, not_le.mp hkey⟩
  · refine absurd h (Except.bind_ne_error ?_ fun _ => nofun)
    unfold whenThat
    split
    · exact withinLimits_ne_underflow _ _ _ _
    · exact nofun

/-- Only a counter that would go below zero is reported as an underflow. -/
theorem writeUnit_underflow {store : Store} {call : Call} {updated : ReviewSession}
    {reading : Reading} (h : writeUnit store call updated reading = .error (.denied .underflow)) :
    ∃ key, movedCounters reading.parent reading.current updated key < 0 := by
  unfold writeUnit at h
  rcases Except.bind_error.mp h with h | ⟨kind, -, h⟩
  · exact absurd h (Except.liftWith_ne_error fun e => nofun)
  rcases Except.bind_error.mp h with h | ⟨-, -, h⟩
  · exact absurd h (guardThat_ne_error (by decide))
  rcases Except.bind_error.mp h with h | ⟨values, -, h⟩
  · exact counters_underflow h
  · exact absurd h (Except.bind_ne_error (guardThat_ne_error (by decide)) fun _ =>
      Except.bind_ne_error (guardThat_ne_error (by decide)) fun _ =>
        Except.bind_ne_error (guardThat_ne_error (by decide)) fun _ => nofun)

/-- A call reports an underflow only when it would move a counter of what it read below zero. -/
theorem compareAndReserve_underflow {store : Store} {call : Call}
    (h : compareAndReserve store call = .error (.denied .underflow)) :
    ∃ reading, Opened store call call.updated reading ∧
      ∃ key, movedCounters reading.parent reading.current call.updated key < 0 := by
  unfold compareAndReserve at h
  rcases Except.bind_error.mp h with h | ⟨updated, hv, h⟩
  · exact absurd h (Except.liftWith_ne_error fun e => nofun)
  obtain ⟨-, rfl⟩ := validateSession_ok.mp (storeRaising_ok.mp hv)
  rcases Except.bind_error.mp h with h | ⟨-, -, h⟩
  · exact absurd h (guardThat_ne_error (by decide))
  rcases Except.bind_error.mp h with h | ⟨-, -, h⟩
  · exact absurd h (guardThat_ne_error (by decide))
  rcases Except.bind_error.mp h with h | ⟨reading, ho, h⟩
  · exact absurd h (openUnit_ne_underflow _ _ _)
  refine ⟨reading, openUnit_ok ho, ?_⟩
  split at h
  · cases h
  · split at h
    · cases h
    · rcases Except.bind_error.mp h with h | ⟨store', -, h⟩
      · exact writeUnit_underflow h
      · cases h

end Documents

end NokincFactory
