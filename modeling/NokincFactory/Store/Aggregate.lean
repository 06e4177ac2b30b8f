/-
  File:      NokincFactory/Store/Aggregate.lean
  Subject:   The parent budget that the sessions of a work item share.

  The store moves the counters of a parent by the difference of two session budgets and
  never recomputes them. Over any sequence of calls they are the sums they stand for:

  A parent is provisioned before its sessions, and has the columns of `COUNTERS` and no others.

  * `Store.sum`: a measure summed over the stored sessions of a parent;
  * `Legal.budget`: what a legal step can do to the budget of a session;
  * `Aggregated`: the invariant between a parent row and its sessions;
  * `parent_budget_of_served`: it holds after any calls, and the underflow guard never fires.
-/
import NokincFactory.Adapters.PostgresReviewStore
import NokincFactory.Lib.Pool
import NokincFactory.Session.Budget

namespace NokincFactory

/-! ## 1. Resources -/

/-- What an attempt holds and is charged for. -/
inductive Resource where
  | tokens | costMicrousd
deriving DecidableEq

def Resource.spent : Resource → Counter
  | .tokens => .tokensSpent
  | .costMicrousd => .costMicrousdSpent

def Resource.reserved : Resource → Counter
  | .tokens => .tokensReserved
  | .costMicrousd => .costMicrousdReserved

def Usage.amount (usage : Usage) : Resource → Nat
  | .tokens => usage.tokens
  | .costMicrousd => usage.costMicrousd

def Reservation.amount (held : Reservation) : Resource → Nat
  | .tokens => held.tokens
  | .costMicrousd => held.costMicrousd

def ParentBudget.ceiling (limits : ParentBudget) : Resource → Nat
  | .tokens => limits.maxTokens
  | .costMicrousd => limits.maxCostMicrousd

section Aggregate

variable [Sha256]

/-- The charges of the completed attempts of a ledger. -/
def charged (resource : Resource) (attempts : List ReviewAttempt) : ℕ :=
  ((settlements [] attempts).map fun settled => settled.2.amount resource).sum

/-- The charges of the completed attempts of a ledger beyond their holds. -/
def overrun (resource : Resource) (attempts : List ReviewAttempt) : ℕ :=
  ((settlements [] attempts).map fun settled =>
    settled.2.amount resource - settled.1.amount resource).sum

@[simp] theorem charged_reserve (resource : Resource) (attempts : List ReviewAttempt)
    (invocation : Invocation) :
    charged resource (attempts ++ [⟨invocation, none⟩]) = charged resource attempts := by
  unfold charged
  rw [settlements_reserve]

@[simp] theorem charged_settle (resource : Resource) (attempts : List ReviewAttempt)
    (invocation : Invocation) (completion : Completion) :
    charged resource (attempts ++ [⟨invocation, some completion⟩]) = charged resource attempts +
      (attemptCharge attempts invocation completion.receipt).amount resource := by
  unfold charged
  rw [settlements_settle, List.map_append, List.sum_append, List.map_singleton, List.sum_singleton]

@[simp] theorem overrun_reserve (resource : Resource) (attempts : List ReviewAttempt)
    (invocation : Invocation) :
    overrun resource (attempts ++ [⟨invocation, none⟩]) = overrun resource attempts := by
  unfold overrun
  rw [settlements_reserve]

@[simp] theorem overrun_settle (resource : Resource) (attempts : List ReviewAttempt)
    (invocation : Invocation) (completion : Completion) :
    overrun resource (attempts ++ [⟨invocation, some completion⟩]) = overrun resource attempts +
      ((attemptCharge attempts invocation completion.receipt).amount resource -
        invocation.reservation.amount resource) := by
  unfold overrun
  rw [settlements_settle, List.map_append, List.sum_append, List.map_singleton, List.sum_singleton]

/-- What a budget has spent and holds of a resource. -/
def BudgetState.committed (budget : BudgetState) (resource : Resource) : ℤ :=
  budget.counter resource.spent + budget.counter resource.reserved

/-! ## 2. What a legal step does to a budget -/

/-- The spending of a session is the sum of its charges. -/
theorem Accounted.spent {seed : ReviewSeed} {attempts : List ReviewAttempt} {state : ReviewState}
    (h : Accounted seed attempts state) (resource : Resource) :
    state.budget.counter resource.spent = charged resource attempts := by
  cases resource with
  | tokens =>
      have hspent := h.tokensSpent
      unfold ledgerCharges at hspent
      rw [List.map_map] at hspent
      exact hspent
  | costMicrousd =>
      have hspent := h.costSpent
      unfold ledgerCharges at hspent
      rw [List.map_map] at hspent
      exact hspent

theorem Accounted.reserved {seed : ReviewSeed} {attempts : List ReviewAttempt}
    {state : ReviewState} (h : Accounted seed attempts state) (resource : Resource) :
    state.budget.counter resource.reserved =
      (state.pending.map (·.reservation.amount resource)).getD 0 := by
  cases resource with
  | tokens => exact h.tokensReserved
  | costMicrousd => exact h.costReserved

variable [Pydantic]

/-- The ledger of what is stored, empty where nothing is. -/
def attemptsOf (current : Option ReviewSession) : List ReviewAttempt :=
  (current.map (·.attempts)).getD []

omit [Sha256] [Pydantic] in
@[simp] theorem attemptsOf_some (session : ReviewSession) :
    attemptsOf (some session) = session.attempts := rfl

/-- What a step that reserves nothing may do to the budget of a session. -/
structure Settling (current : Option ReviewSession) (updated : ReviewSession) : Prop where
  invocations : updated.state.budget.invocations = (budgetOf current).invocations
  repairs : updated.state.budget.repairs = (budgetOf current).repairs
  /-- what it commits beyond what was committed is overrun -/
  committed : ∀ resource,
    updated.state.budget.committed resource - (budgetOf current).committed resource ≤
      (overrun resource updated.attempts : ℤ) - overrun resource (attemptsOf current)

omit [Pydantic] in
/-- A session that neither spends nor holds settles nothing. -/
theorem settling_of_eq {current : Option ReviewSession} {updated : ReviewSession}
    (hb : updated.state.budget = budgetOf current) (ha : updated.attempts = attemptsOf current) :
    Settling current updated := by
  refine ⟨congrArg _ hb, congrArg _ hb, fun resource => ?_⟩
  rw [hb, ha, sub_self, sub_self]

/-- What completing a call does to a budget: its hold is given back, its charge is spent. -/
structure SettlesHold (before after : BudgetState) (hold : Reservation) (charge : Usage) :
    Prop where
  invocations : after.invocations = before.invocations
  repairs : after.repairs = before.repairs
  held : ∀ resource, before.counter (Resource.reserved resource) = hold.amount resource
  released : ∀ resource, after.counter (Resource.reserved resource) = 0
  spent : ∀ resource, after.counter (Resource.spent resource) =
    before.counter resource.spent + charge.amount resource

theorem settlesHold_of_complete {current : ReviewSession} {earlier : List ReviewAttempt}
    {invocation : Invocation} {completion : Completion} {state : ReviewState}
    (hs : Recorded current) (hl : current.attempts = earlier ++ [⟨invocation, none⟩])
    (hp : current.state.pending = some invocation)
    (hc : complete current.seed current.state completion = .ok state) :
    SettlesHold current.state.budget state.budget invocation.reservation
      (attemptCharge earlier invocation completion.receipt) := by
  have hbefore : Accounted current.seed (earlier ++ [⟨invocation, none⟩]) current.state := by
    rw [← hl]
    exact hs.accounted
  have hafter : Accounted current.seed (earlier ++ [⟨invocation, some completion⟩]) state :=
    ((Advance.complete earlier invocation completion state hl hc).recorded hs).accounted
  have hidle : state.pending = none := by
    obtain ⟨pending, settled, -, -, ho, rfl⟩ := complete_ok hc
    exact ho.books.pending
  refine ⟨?_, ?_, fun resource => ?_, fun resource => ?_, fun resource => ?_⟩
  · rw [hbefore.invocations, hafter.invocations, List.length_append, List.length_append]
    rfl
  · rw [hbefore.repairs, hafter.repairs, List.countP_append, List.countP_append]
    rfl
  · have hheld := hbefore.reserved resource
    rw [hp, Option.map_some, Option.getD_some] at hheld
    exact_mod_cast hheld
  · have hheld := hafter.reserved resource
    rw [hidle, Option.map_none, Option.getD_none] at hheld
    exact_mod_cast hheld
  · have hspent := hbefore.spent resource
    have hspent' := hafter.spent resource
    rw [charged_reserve] at hspent
    rw [charged_settle] at hspent'
    rw [hspent, hspent']

/-- Completing the pending attempt settles its hold. -/
theorem settling_of_complete {current : ReviewSession} {earlier : List ReviewAttempt}
    {invocation : Invocation} {completion : Completion} {state : ReviewState}
    (hs : Recorded current) (hl : current.attempts = earlier ++ [⟨invocation, none⟩])
    (hp : current.state.pending = some invocation)
    (hc : complete current.seed current.state completion = .ok state) :
    Settling (some current)
      ⟨current.seed, earlier ++ [⟨invocation, some completion⟩], state⟩ := by
  have hsettles := settlesHold_of_complete hs hl hp hc
  refine ⟨hsettles.invocations, hsettles.repairs, fun resource => ?_⟩
  have hheld := hsettles.held resource
  have hreleased := hsettles.released resource
  have hspent := hsettles.spent resource
  rw [attemptsOf_some, hl, overrun_reserve, overrun_settle]
  unfold BudgetState.committed
  rw [budgetOf_some, hheld, hreleased, hspent]
  omega

/-- **What a legal step does to a budget**: it reserves, or it settles. -/
theorem Legal.budget {current : Option ReviewSession} {kind : TransitionKind}
    {updated : ReviewSession} (hs : ∀ s, current = some s → Recorded s)
    (h : Legal current kind updated) : kind = .reserve ∨ Settling current updated := by
  cases h with
  | create seed h => exact Or.inr (settling_of_eq rfl rfl)
  | reserve current proposed invocationId kind actor reservation now h => exact Or.inl rfl
  | complete current proposed pending receipt output now failureReason hp h =>
      obtain ⟨earlier, pending', completion, state, hl, hp', -, hc, rfl⟩ :=
        complete_of_completeInvocation h (ne_of_completeInvocation hp h)
      exact Or.inr (settling_of_complete (hs _ rfl) hl hp' hc)
  | unchanged current => exact Or.inr (settling_of_eq rfl rfl)

/-! ## 3. Sums over the sessions of a parent -/

variable [ReviewDocuments]

/-- The unit of a scope draws on the parent `key`, a tenant and a budget. -/
def drawsOn (registrations : Dict ReviewScope RegistrationRow) (key : Identifier × Identifier)
    (scope : ReviewScope) : Prop :=
  scope.tenantId = key.1 ∧ (AList.lookup scope registrations).map (·.budgetId) = some key.2

instance (registrations : Dict ReviewScope RegistrationRow) (key : Identifier × Identifier)
    (scope : ReviewScope) : Decidable (drawsOn registrations key scope) :=
  inferInstanceAs (Decidable (_ ∧ _))

/-- A measure of the session stored for a unit, where the unit draws on `key`. -/
def share (registrations : Dict ReviewScope RegistrationRow) (key : Identifier × Identifier)
    (measure : ReviewSession → ℤ) (scope : ReviewScope) (row : SessionRow) : ℤ :=
  if drawsOn registrations key scope then
    ((ReviewDocuments.session row.document).map measure).getD 0
  else 0

/-- A measure summed over the stored sessions of a parent. -/
def Store.sum (store : Store) (key : Identifier × Identifier) (measure : ReviewSession → ℤ) : ℤ :=
  Dict.total (share store.registrations key measure) store.sessions

/-- The counters of a parent row against its sessions and its ceilings. -/
structure Aggregated (store : Store) (key : Identifier × Identifier) (row : BudgetRow) :
    Prop where
  counters : ∀ counter, row.counters counter =
    store.sum key fun session => session.state.budget.counter counter
  invocations : ∀ limits, ReviewDocuments.parentBudget row.limitsJson = some limits →
    row.counters .invocations ≤ limits.maxInvocations
  repairs : ∀ limits, ReviewDocuments.parentBudget row.limitsJson = some limits →
    row.counters .repairs ≤ limits.maxRepairs
  /-- the ceilings may be exceeded by what completions were charged beyond their holds -/
  covered : ∀ limits resource, ReviewDocuments.parentBudget row.limitsJson = some limits →
    row.counters resource.spent + row.counters resource.reserved ≤
      limits.ceiling resource + store.sum key fun session => overrun resource session.attempts

/-- Every parent row of a store is aggregated. -/
def Audited (store : Store) : Prop :=
  ∀ key row, AList.lookup key store.budgets = some row → Aggregated store key row

omit [Sha256] [Pydantic] in
theorem share_nonneg {registrations : Dict ReviewScope RegistrationRow}
    {key : Identifier × Identifier} {measure : ReviewSession → ℤ} (h : ∀ s, 0 ≤ measure s)
    (scope : ReviewScope) (row : SessionRow) : 0 ≤ share registrations key measure scope row := by
  unfold share
  split
  · cases ReviewDocuments.session row.document with
    | none => exact le_rfl
    | some session => exact h session
  · exact le_rfl

/-! ## 4. One call -/

/-- What the stored row of a unit adds to the sums of its parent is what the call read. -/
theorem Opened.amountAt {store : Store} {call : Call} {updated : ReviewSession}
    {reading : Reading} (h : Opened store call updated reading) (measure : ReviewSession → ℤ) :
    Dict.amountAt (share store.registrations (call.scope.tenantId, call.parentBudgetId) measure)
      store.sessions call.scope = (reading.current.map measure).getD 0 := by
  obtain ⟨registration, hr, hb, -⟩ := h.registered
  have hdraws : drawsOn store.registrations (call.scope.tenantId, call.parentBudgetId)
      call.scope := ⟨rfl, by rw [hr, Option.map_some, hb]⟩
  have hcurrent := h.current
  cases hrow : reading.row with
  | none =>
      rw [Dict.amountAt_of_none (h.row.trans hrow)]
      rw [hrow] at hcurrent
      have hnone := Except.ok.inj hcurrent
      rw [← hnone]
      rfl
  | some row =>
      rw [Dict.amountAt_of_lookup (h.row.trans hrow)]
      rw [hrow] at hcurrent
      obtain ⟨session, hd, hc⟩ := Except.bind_ok.mp hcurrent
      have hsome := Except.pure_ok.mp hc
      obtain ⟨hdoc, -, -⟩ := decode_ok hd
      unfold share
      rw [if_pos hdraws, hdoc, ← hsome]

/-- What a call read back has been recorded. -/
theorem Opened.recorded {store : Store} {call : Call} {updated : ReviewSession}
    {reading : Reading} (h : Opened store call updated reading) :
    ∀ s, reading.current = some s → Recorded s := by
  intro s hs
  have hcurrent := h.current
  cases hrow : reading.row with
  | none =>
      rw [hrow] at hcurrent
      have hnone := Except.ok.inj hcurrent
      rw [← hnone] at hs
      cases hs
  | some row =>
      rw [hrow] at hcurrent
      obtain ⟨session, hd, hc⟩ := Except.bind_ok.mp hcurrent
      have hsome := Except.pure_ok.mp hc
      rw [← hsome] at hs
      obtain rfl := Option.some.inj hs
      exact (validateSession_iff.mp (decode_ok hd).2.1).1

/-- A unit draws on one parent only. -/
theorem Opened.not_drawsOn {store : Store} {call : Call} {updated : ReviewSession}
    {reading : Reading} (h : Opened store call updated reading) {key : Identifier × Identifier}
    (hk : key ≠ (call.scope.tenantId, call.parentBudgetId)) :
    ¬ drawsOn store.registrations key call.scope := by
  obtain ⟨registration, hr, hb, -⟩ := h.registered
  intro hd
  obtain ⟨ht, hbudget⟩ := hd
  rw [hr, Option.map_some, hb] at hbudget
  exact hk (Prod.ext ht.symm (Option.some.inj hbudget).symm)

/-- The sums of a parent after one of its sessions has been written. -/
theorem Store.sum_written {store : Store} {call : Call} {updated : ReviewSession}
    {reading : Reading} (h : Opened store call updated reading) (hread : updated.ReadsBack)
    (kind : TransitionKind) (values : Counter → ℤ) (measure : ReviewSession → ℤ) :
    (store.written call updated reading kind values).sum
        (call.scope.tenantId, call.parentBudgetId) measure =
      store.sum (call.scope.tenantId, call.parentBudgetId) measure + measure updated -
        (reading.current.map measure).getD 0 := by
  obtain ⟨registration, hr, hb, -⟩ := h.registered
  have hdraws : drawsOn store.registrations (call.scope.tenantId, call.parentBudgetId)
      call.scope := ⟨rfl, by rw [hr, Option.map_some, hb]⟩
  have hshare : share store.registrations (call.scope.tenantId, call.parentBudgetId) measure
      call.scope ⟨ReviewDocuments.sessionJson updated, contentDigest updated,
        nextSequence reading.row, 1⟩ = measure updated := by
    unfold share
    rw [if_pos hdraws, hread]
    rfl
  unfold Store.sum
  rw [← h.amountAt measure, ← hshare]
  exact Dict.total_insert _ _ _ _

theorem Store.sum_written_other {store : Store} {call : Call} {updated : ReviewSession}
    {reading : Reading} (h : Opened store call updated reading) (kind : TransitionKind)
    (values : Counter → ℤ) (measure : ReviewSession → ℤ) {key : Identifier × Identifier}
    (hk : key ≠ (call.scope.tenantId, call.parentBudgetId)) :
    (store.written call updated reading kind values).sum key measure = store.sum key measure := by
  refine Dict.total_insert_zero (fun row => ?_) _ _
  unfold share
  exact if_neg (h.not_drawsOn hk)

omit [Sha256] [Pydantic] [ReviewDocuments] in
/-- What the budget of a unit held before the call. -/
theorem budgetOf_counter (current : Option ReviewSession) (key : Counter) :
    ((current.map fun s => (s.state.budget.counter key : ℤ)).getD 0) =
      (budgetOf current).counter key := by
  cases current with
  | none => cases key <;> rfl
  | some session => rfl

omit [Pydantic] [ReviewDocuments] in
/-- What the ledger of a unit had overrun before the call. -/
theorem attemptsOf_overrun (current : Option ReviewSession) (resource : Resource) :
    ((current.map fun s => (overrun resource s.attempts : ℤ)).getD 0) =
      overrun resource (attemptsOf current) := by
  cases current with
  | none => rfl
  | some session => rfl

omit [Sha256] [Pydantic] in
theorem Granted.ceiling {parent : BudgetRow} {values : Counter → ℤ} {limits : ParentBudget}
    (h : Granted parent values limits) (resource : Resource) :
    values resource.spent + values resource.reserved ≤ limits.ceiling resource := by
  cases resource with
  | tokens => exact h.tokens
  | costMicrousd => exact h.cost

/-- **One write**: the row of the parent stays aggregated. -/
theorem Aggregated.written {store store' : Store} {call : Call} {updated : ReviewSession}
    {reading : Reading} {kind : TransitionKind}
    (h : Aggregated store (call.scope.tenantId, call.parentBudgetId) reading.parent)
    (ho : Opened store call updated reading)
    (hw : Wrote store call updated reading kind store') (hread : updated.ReadsBack) :
    Aggregated store' (call.scope.tenantId, call.parentBudgetId)
      { reading.parent with counters := movedCounters reading.parent reading.current updated } := by
  have hlegal : kind = .reserve ∨ Settling reading.current updated :=
    Legal.budget ho.recorded ((validateExtension_iff ho.recorded).mp hw.extension)
  have hgranted : ∀ limits, ReviewDocuments.parentBudget reading.parent.limitsJson = some limits →
      kind = .reserve →
        Granted reading.parent (movedCounters reading.parent reading.current updated) limits := by
    intro limits hl hk
    obtain ⟨limits', hg⟩ := hw.granted hk
    obtain rfl := Option.some.inj (hg.ceilings.symm.trans hl)
    exact hg
  rw [hw.result]
  refine ⟨fun key => ?_, fun limits hl => ?_, fun limits hl => ?_, fun limits resource hl => ?_⟩
  · rw [Store.sum_written ho hread, ← h.counters key, budgetOf_counter]
    rfl
  · rcases hlegal with hk | hsettle
    · exact (hgranted limits hl hk).invocations
    · show reading.parent.counters .invocations + updated.state.budget.invocations -
        (budgetOf reading.current).invocations ≤ limits.maxInvocations
      rw [hsettle.invocations, add_sub_cancel_right]
      exact h.invocations limits hl
  · rcases hlegal with hk | hsettle
    · exact (hgranted limits hl hk).repairs
    · show reading.parent.counters .repairs + updated.state.budget.repairs -
        (budgetOf reading.current).repairs ≤ limits.maxRepairs
      rw [hsettle.repairs, add_sub_cancel_right]
      exact h.repairs limits hl
  · rcases hlegal with hk | hsettle
    · -- a reservation is checked against the ceilings, whatever was overrun before
      refine ((hgranted limits hl hk).ceiling resource).trans (Int.le_add_of_nonneg_right ?_)
      exact Dict.total_nonneg (share_nonneg fun s => Int.natCast_nonneg _) _
    · rw [Store.sum_written ho hread, attemptsOf_overrun]
      have hbefore := h.covered limits resource hl
      have hstep := hsettle.committed resource
      show movedCounters reading.parent reading.current updated resource.spent +
        movedCounters reading.parent reading.current updated resource.reserved ≤ _
      unfold BudgetState.committed at hstep
      unfold movedCounters
      linarith

/-- One write keeps every parent row aggregated. -/
theorem Audited.written {store store' : Store} {call : Call} {updated : ReviewSession}
    {reading : Reading} {kind : TransitionKind} (h : Audited store)
    (ho : Opened store call updated reading)
    (hw : Wrote store call updated reading kind store') (hread : updated.ReadsBack) :
    Audited store' := by
  intro key row hrow
  by_cases hk : key = (call.scope.tenantId, call.parentBudgetId)
  · subst hk
    have hrow' : row = { reading.parent with
        counters := movedCounters reading.parent reading.current updated } := by
      rw [hw.result] at hrow
      exact (Option.some.inj ((AList.lookup_insert _).symm.trans hrow)).symm
    rw [hrow']
    exact (h _ _ ho.parent).written ho hw hread
  · rw [hw.result] at hrow ⊢
    have hbefore := h key row ((AList.lookup_insert_ne hk).symm.trans hrow)
    have hsum := fun measure => Store.sum_written_other ho kind
      (movedCounters reading.parent reading.current updated) measure hk
    refine ⟨fun counter => ?_, hbefore.invocations, hbefore.repairs, fun limits resource hl => ?_⟩
    · rw [hsum]
      exact hbefore.counters counter
    · rw [hsum]
      exact hbefore.covered limits resource hl

/-- One call, whatever it answers or raises, keeps every parent row aggregated. -/
theorem Audited.serve {store : Store} {call : Call} (h : Audited store)
    (hread : call.updated.ReadsBack) : Audited (store.serve call) := by
  unfold Store.serve
  cases hc : compareAndReserve store call with
  | error e => exact h
  | ok answer =>
      obtain ⟨wrote, store'⟩ := answer
      rcases compareAndReserve_ok hc with ⟨-, rfl, -⟩ | ⟨-, reading, kind, hcommitted⟩
      · exact h
      · exact h.written hcommitted.opened hcommitted.wrote hread

/-- A unit holds no more than its parent counts. -/
theorem Audited.covers {store : Store} {call : Call} {updated : ReviewSession}
    {reading : Reading} (h : Audited store) (ho : Opened store call updated reading)
    (key : Counter) :
    ((budgetOf reading.current).counter key : ℤ) ≤ reading.parent.counters key := by
  rw [(h _ _ ho.parent).counters key, ← budgetOf_counter, ← ho.amountAt]
  exact Dict.amountAt_le_total (share_nonneg fun s => Int.natCast_nonneg _) _ _

theorem Audited.moved_nonneg {store : Store} {call : Call} {updated : ReviewSession}
    {reading : Reading} (h : Audited store) (ho : Opened store call updated reading)
    (key : Counter) : 0 ≤ movedCounters reading.parent reading.current updated key := by
  have hold := h.covers ho key
  unfold movedCounters
  omega

/-- No call can move a counter below zero. -/
theorem Audited.ne_underflow {store : Store} (h : Audited store) (call : Call) :
    compareAndReserve store call ≠ .error (.denied .underflow) := by
  intro hcall
  obtain ⟨reading, ho, key, hkey⟩ := compareAndReserve_underflow hcall
  exact absurd (h.moved_nonneg ho key) (not_le.mpr hkey)

/-! ## 5. Any sequence of calls -/

/-- A store no unit of which has been opened, and no parent of which has been used. -/
structure Provisioned (store : Store) : Prop where
  sessions : store.sessions = ∅
  events : store.events = []
  counters : ∀ key row, AList.lookup key store.budgets = some row →
    ∀ counter, row.counters counter = 0

omit [Pydantic] in
theorem Provisioned.audited {store : Store} (h : Provisioned store) : Audited store := by
  have hsum : ∀ key measure, store.sum key measure = 0 := by
    intro key measure
    unfold Store.sum
    rw [h.sessions, Dict.total_empty]
  intro key row hrow
  have hzero := h.counters key row hrow
  refine ⟨fun counter => ?_, fun limits _ => ?_, fun limits _ => ?_, fun limits resource _ => ?_⟩
  · rw [hzero, hsum]
  · rw [hzero]
    exact Int.natCast_nonneg _
  · rw [hzero]
    exact Int.natCast_nonneg _
  · rw [hzero, hzero, hsum]
    exact Int.natCast_nonneg _

/-- Calls keep every parent row aggregated. -/
theorem Audited.served {store : Store} (h : Audited store) {calls : List Call}
    (hread : ∀ call ∈ calls, call.updated.ReadsBack) : Audited (store.served calls) :=
  List.foldlRecOn calls Store.serve h fun _ hs call hc => hs.serve (hread call hc)

end Aggregate

/-- **The aggregate budget across sessions**: after any calls on an unused store, whatever
    they answered or raised, each parent row counts what its sessions count, and stays within
    its ceilings but for what completions overran; and no call ever underflows. -/
theorem parent_budget_of_served [Sha256] [Pydantic] [ReviewDocuments] {store : Store}
    (h : Provisioned store) {calls : List Call}
    (hread : ∀ call ∈ calls, call.updated.ReadsBack) :
    (∀ key row, AList.lookup key (store.served calls).budgets = some row →
      Aggregated (store.served calls) key row) ∧
    ∀ call, compareAndReserve (store.served calls) call ≠ .error (.denied .underflow) := by
  have haudit := h.audited.served hread
  exact ⟨haudit, haudit.ne_underflow⟩

namespace Fixture

/-! The unit of the tests under one parent: it is opened, reserves its first review, and
settles it. -/

def fresh : ReviewSession := ⟨seed, [], freshState seed⟩

def held : ReviewSession where
  seed := seed
  attempts := [⟨invocation 0 .review "v1", none⟩]
  state :=
    { freshState seed with
      budget := { invocations := 1, tokensReserved := 100, costMicrousdReserved := 100 }
      invocationIds := [callId 0]
      pending := some (invocation 0 .review "v1") }

def settled : ReviewSession := ⟨seed, [rejecting], rejected⟩

def budgetId : Identifier := ⟨"budget-1", by decide⟩

def limits : ParentBudget where
  tenantId := scope.tenantId
  workItemId := scope.workItemId
  budgetId := budgetId
  maxInvocations := 4
  maxRepairs := 2
  maxTokens := 400
  maxCostMicrousd := 400
  expiresAt := clock 100
  maxInvocations_pos := by decide
  maxTokens_pos := by decide
  maxCostMicrousd_pos := by decide

scoped instance documents : ReviewDocuments where
  session
    | "fresh" => some fresh
    | "held" => some held
    | "settled" => some settled
    | _ => none
  sessionJson session := match session.attempts with
    | [] => "fresh"
    | ⟨_, none⟩ :: _ => "held"
    | ⟨_, some _⟩ :: _ => "settled"
  parentBudget
    | "limits" => some limits
    | _ => none

def provisioned : Store where
  budgets := AList.insert (scope.tenantId, budgetId) ⟨scope.workItemId, "limits", fun _ => 0⟩ ∅
  registrations := AList.insert scope ⟨budgetId, contentDigest seed⟩ ∅
  sessions := ∅
  events := []

def worker : Worker := ⟨⟨scope.tenantId, ⟨"worker-1", by decide⟩⟩, false, false⟩

def calls : List Call := [
  ⟨worker, scope, none, fresh, budgetId, clock 0⟩,
  ⟨worker, scope, some (contentDigest fresh), held, budgetId, clock 0⟩,
  ⟨worker, scope, some (contentDigest held), settled, budgetId, clock 2⟩]

theorem provisioned_unused : Provisioned provisioned where
  sessions := rfl
  events := rfl
  counters := fun key row hrow counter => by
    by_cases hk : key = (scope.tenantId, budgetId)
    · subst hk
      obtain rfl := Option.some.inj ((AList.lookup_insert _).symm.trans hrow)
      rfl
    · cases (AList.lookup_insert_ne hk).symm.trans hrow

theorem calls_readBack : ∀ call ∈ calls, call.updated.ReadsBack := by
  intro call hc
  simp only [calls, List.mem_cons, List.not_mem_nil, or_false] at hc
  rcases hc with rfl | rfl | rfl
  · rfl
  · rfl
  · rfl

/-- The parent row and the snapshot that the calls leave. -/
theorem calls_served :
    let store := provisioned.served calls
    ((AList.lookup (scope.tenantId, budgetId) store.budgets).map
        fun row => (row.counters .tokensSpent, row.counters .tokensReserved)) = some (10, 0) ∧
      (AList.lookup scope store.sessions).map (·.sequence) = some 3 := by
  decide +kernel

end Fixture

open Fixture in
theorem parent_budget_settled :
    let store := provisioned.served calls
    ∃ row, AList.lookup (scope.tenantId, budgetId) store.budgets = some row ∧
      row.counters .tokensSpent = 10 ∧ row.counters .tokensReserved = 0 ∧
      Aggregated store (scope.tenantId, budgetId) row := by
  obtain ⟨row, hlook, hcounters⟩ := Option.map_eq_some_iff.mp calls_served.1
  obtain ⟨hspent, hreserved⟩ := Prod.mk.inj hcounters
  exact ⟨row, hlook, hspent, hreserved,
    (parent_budget_of_served provisioned_unused calls_readBack).1 _ row hlook⟩

end NokincFactory
