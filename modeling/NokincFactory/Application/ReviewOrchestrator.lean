/-
  File:      NokincFactory/Application/ReviewOrchestrator.lean
  Subject:   `application/review.py`: any number of review orchestrators over one store, each
             at its own place in `step` and `_settle`.

  What runs inside one orchestrator between two uses of the store, the clock, the observer, the
  authorizer and the executor is a function; each such use is a step of the system, so that
  the steps of all orchestrators interleave. A crash, and whatever is raised, leaves a step
  where it is and nothing of it behind but what the store holds.

  * `propose`, `dispatchStop`, `normalizeResult`: the functions between the steps;
  * `Phase`, `World`, `Action`, `Step`: the system;
  * `orchestration`: its runs from an empty store.
-/
import NokincFactory.Adapters.PostgresReviewReader
import NokincFactory.Lib.Traces

namespace NokincFactory

/-! ## 1. What an executor may hand back -/

/-- `value.receipt`, as `InvocationReceipt.model_validate` finds it. -/
inductive ReturnedReceipt where
  | none
  | valid (receipt : InvocationReceipt)
  | invalid

/-- `value.output`: a report, a text, something else, or a text that cannot be encoded. -/
inductive ReturnedOutput where
  | none
  | output (output : Output)
  | other
  | unencodable

/-- What `execute` returned, or that it raised `ExecutorUnavailable`. -/
inductive Returned where
  | unavailable
  | other
  | result (receipt : ReturnedReceipt) (output : ReturnedOutput)

/-- `MAX_OUTPUT_BYTES`. -/
def maxOutputBytes : ℕ := 128000

section Orchestrator

variable [Sha256] [Pydantic]

/-- The checks of `normalize_result` on the output. -/
def normalizeOutput : ReturnedOutput → Option String × Option ExecutionStop
  | .none => (none, none)
  | .output output =>
      if maxOutputBytes < output.json.utf8ByteSize then (none, some .outputLimit)
      else (some output.json, none)
  | .other => (none, some .executionInvalid)
  | .unencodable => (none, some .executionInvalid)

/-- `normalize_result`. -/
def normalizeResult :
    Returned → Option InvocationReceipt × Option String × Option ExecutionStop
  | .unavailable => (none, none, none)
  | .other => (none, none, some .executionInvalid)
  | .result .invalid _ => (none, none, some .executionInvalid)
  | .result .none output => (none, normalizeOutput output)
  | .result (.valid receipt) output => (some receipt, normalizeOutput output)

/-! ## 2. Between the steps -/

/-- What an orchestrator is constructed with, but for the things it calls. -/
structure Orchestrator where
  worker : Worker
  scope : ReviewScope
  parentBudgetId : Identifier
  reservation : Reservation

variable [ReviewDocuments]

/-- `_current`. -/
def Orchestrator.current (o : Orchestrator) (store : Store) : Except StoreError ReviewSession := do
  let loaded ← loadCurrent store o.worker o.scope
  match loaded with
  | none => .error (.raised (.value (.message
      "Review unit must be registered and created before execution")))
  | some session => do
      let current ← storeRaising (validateSession session)
      guardThat (current.seed.scope = o.scope)
        (.raised (.value (.message "Store returned a foreign review unit")))
      pure current

omit [ReviewDocuments] in
/-- `step` up to the comparison: no proposal where the step ends without one. -/
def Orchestrator.propose (o : Orchestrator) (current : ReviewSession) (observed : ArtifactRef)
    (now : Datetime) (invocationId : Identifier) (startedAt : Datetime) :
    Except StoreError (Option ReviewSession) := do
  let decision ← storeRaising (evaluate current observed now)
  if current.state.pending ≠ none then pure none  -- AWAITING_SETTLEMENT
  else if decision.status = .eligible ∨ decision.status = .blocked ∨
      decision.status = .escalate then pure none  -- FINISHED
  else
    let repair := decision.status = .needsRepair
    match (if repair then some current.seed.originalDoer else current.seed.reviewers.head?) with
    -- a seed without reviewers is refused before
    | none => .error .assertion
    | some actor => do
        let pending ← storeRaising (reserveInvocation current invocationId
          (if repair then .repair else .review) actor o.reservation startedAt)
        pure (some pending)

/-- `started_at + timedelta(seconds=max_elapsed_seconds)`, within the calendar. -/
def sessionEnd (seed : ReviewSeed) : Except StoreError Moment :=
  if h : seed.startedAt.micros + seed.policy.maxElapsedSeconds * micro ≤ latest then
    .ok ⟨seed.startedAt.micros + seed.policy.maxElapsedSeconds * micro,
      seed.startedAt.lower.trans (Int.le_add_of_nonneg_right
        (Int.mul_nonneg (Int.natCast_nonneg _) (by decide))), h⟩
  else .error (.raised (.overflow "date value out of range"))

omit [Pydantic] [ReviewDocuments] in
/-- `_dispatch_stop`, with what the authorizer, the observer and the clock answered. -/
def dispatchStop (pending : ReviewSession) (authorized : Bool) (observed : ArtifactRef)
    (now : Datetime) : Except StoreError (Option ExecutionStop) :=
  match pending.state.pending with
  | none => .error .assertion
  | some invocation =>
      if authorized = false then pure (some .authorizationRevoked)
      else do
        let now ← storeRaising (raising (utc now))
        if observed ≠ pending.state.artifact then pure (some .artifactDrift)
        else if now < invocation.startedAt then pure (some .timeWindow)
        else do
          let deadline ← deadlineOf invocation
          if deadline ≤ now then pure (some .timeWindow)
          else do
            let sessionEnd ← sessionEnd pending.seed
            if sessionEnd ≤ now then pure (some .timeWindow) else pure none

/-- The call by which an orchestrator offers a value for what it expects. -/
def Orchestrator.offer (o : Orchestrator) (expected updated : ReviewSession) (clock : Moment) :
    Call where
  worker := o.worker
  scope := o.scope
  expectedDigest := some (contentDigest expected)
  updated := updated
  parentBudgetId := o.parentBudgetId
  clock := clock

/-! ## 3. The system -/

/-- Where an orchestrator stands in `step` and `_settle`. -/
inductive Phase where
  | idle
  | loaded (current : ReviewSession)
  | proposed (current pending : ReviewSession)
  /-- the comparison was won -/
  | reserved (pending : ReviewSession)
  /-- nothing stands against the dispatch -/
  | cleared (pending : ReviewSession)
  | executed (pending : ReviewSession)
  | settling (pending : ReviewSession) (receipt : Option InvocationReceipt)
      (output : Option String) (stop : Option ExecutionStop)
  | committing (pending finished : ReviewSession)

variable {ι : Type}

/-- The shared store, and where each orchestrator stands. -/
structure World (ι : Type) where
  store : Store
  phase : ι → Phase

/-- The steps of the orchestrators, and of other parties at the store with what these were
answered. -/
inductive Action (ι : Type) where
  | load (i : ι)
  | propose (i : ι) (observed : ArtifactRef) (now : Datetime) (invocationId : Identifier)
      (startedAt : Datetime)
  | reserve (i : ι) (call : Call)
  | clear (i : ι) (authorized : Bool) (observed : ArtifactRef) (now : Datetime)
  | execute (i : ι) (invocation : Invocation)
  | collect (i : ι) (returned : Returned)
  | complete (i : ι) (now : Datetime)
  | settle (i : ι) (call : Call)
  /-- a crash, or anything raised on the way -/
  | crash (i : ι)
  | foreign (call : Call) (wrote : Bool)

variable [DecidableEq ι]

/-- The orchestrator moves on. -/
def World.enter (w : World ι) (i : ι) (phase : Phase) : World ι :=
  { w with phase := Function.update w.phase i phase }

/-- One step of one party. -/
inductive Step (config : ι → Orchestrator) : World ι → Action ι → World ι → Prop where
  | load (w : World ι) (i : ι) (current : ReviewSession) (hphase : w.phase i = .idle)
      (h : (config i).current w.store = .ok current) :
      Step config w (.load i) (w.enter i (.loaded current))
  | propose (w : World ι) (i : ι) (current pending : ReviewSession) (observed : ArtifactRef)
      (now : Datetime) (invocationId : Identifier) (startedAt : Datetime)
      (hphase : w.phase i = .loaded current)
      (h : (config i).propose current observed now invocationId startedAt = .ok (some pending)) :
      Step config w (.propose i observed now invocationId startedAt)
        (w.enter i (.proposed current pending))
  | finished (w : World ι) (i : ι) (current : ReviewSession) (observed : ArtifactRef)
      (now : Datetime) (invocationId : Identifier) (startedAt : Datetime)
      (hphase : w.phase i = .loaded current)
      (h : (config i).propose current observed now invocationId startedAt = .ok none) :
      Step config w (.propose i observed now invocationId startedAt) (w.enter i .idle)
  | reserve (w : World ι) (i : ι) (current pending : ReviewSession) (clock : Moment)
      (store' : Store) (hphase : w.phase i = .proposed current pending)
      (h : compareAndReserve w.store ((config i).offer current pending clock) =
        .ok (true, store')) :
      Step config w (.reserve i ((config i).offer current pending clock))
        (World.enter { w with store := store' } i (.reserved pending))
  | contended (w : World ι) (i : ι) (current pending : ReviewSession) (clock : Moment)
      (hphase : w.phase i = .proposed current pending)
      (h : compareAndReserve w.store ((config i).offer current pending clock) =
        .ok (false, w.store)) :
      Step config w (.reserve i ((config i).offer current pending clock)) (w.enter i .idle)
  | clear (w : World ι) (i : ι) (pending : ReviewSession) (authorized : Bool)
      (observed : ArtifactRef) (now : Datetime) (hphase : w.phase i = .reserved pending)
      (h : dispatchStop pending authorized observed now = .ok none) :
      Step config w (.clear i authorized observed now) (w.enter i (.cleared pending))
  | stop (w : World ι) (i : ι) (pending : ReviewSession) (authorized : Bool)
      (observed : ArtifactRef) (now : Datetime) (stop : ExecutionStop)
      (hphase : w.phase i = .reserved pending)
      (h : dispatchStop pending authorized observed now = .ok (some stop)) :
      Step config w (.clear i authorized observed now)
        (w.enter i (.settling pending none none (some stop)))
  | execute (w : World ι) (i : ι) (pending : ReviewSession) (invocation : Invocation)
      (hphase : w.phase i = .cleared pending) (hp : pending.state.pending = some invocation) :
      Step config w (.execute i invocation) (w.enter i (.executed pending))
  | collect (w : World ι) (i : ι) (pending : ReviewSession) (returned : Returned)
      (hphase : w.phase i = .executed pending) :
      Step config w (.collect i returned)
        (w.enter i (.settling pending (normalizeResult returned).1 (normalizeResult returned).2.1
          (normalizeResult returned).2.2))
  | complete (w : World ι) (i : ι) (pending finished : ReviewSession)
      (receipt : Option InvocationReceipt) (output : Option String) (stop : Option ExecutionStop)
      (invocation : Invocation) (now : Datetime)
      (hphase : w.phase i = .settling pending receipt output stop)
      (hp : pending.state.pending = some invocation)
      (h : completeInvocation pending invocation.invocationId receipt (output.map Output.str) now
        stop = .ok finished) :
      Step config w (.complete i now) (w.enter i (.committing pending finished))
  | settle (w : World ι) (i : ι) (pending finished : ReviewSession) (clock : Moment)
      (hphase : w.phase i = .committing pending finished) :
      Step config w (.settle i ((config i).offer pending finished clock))
        (World.enter
          { w with store := w.store.serve ((config i).offer pending finished clock) } i .idle)
  | crash (w : World ι) (i : ι) : Step config w (.crash i) (w.enter i .idle)
  | foreign (w : World ι) (call : Call) (wrote : Bool) (store' : Store)
      (h : compareAndReserve w.store call = .ok (wrote, store')) :
      Step config w (.foreign call wrote) { w with store := store' }

/-- Runs from a store without sessions and events, with every orchestrator idle. -/
def orchestration (config : ι → Orchestrator) : Labelled (Action ι) (World ι) where
  start w := w.store.sessions = ∅ ∧ w.store.events = [] ∧ ∀ i, w.phase i = .idle
  step := Step config

end Orchestrator

end NokincFactory
