/-
  File:      NokincFactory/Adapters/PostgresReviewReader.lean
  Subject:   `postgres_review_store.py`: the two readers of a unit, each in a transaction of its
             own.

  What a transaction reads is taken to be the store of one moment.

  * `loadCurrent`: the snapshot, checked against the latest event and the registration;
  * `history`: every event of the unit in order, checked one against the next.
-/
import Mathlib.Data.List.Sort
import NokincFactory.Adapters.PostgresReviewStore

namespace NokincFactory

section Readers

variable [Sha256] [Pydantic] [ReviewDocuments]

/-- The budget row a registration names, locked for reading: `one()` wants it to be there. -/
def lockBudget (store : Store) (scope : ReviewScope) (registration : RegistrationRow) :
    Except StoreError Unit :=
  guardThat ((AList.lookup (scope.tenantId, registration.budgetId) store.budgets).isSome)
    .noResultFound

/-- `load_current`. -/
def loadCurrent (store : Store) (worker : Worker) (scope : ReviewScope) :
    Except StoreError (Option ReviewSession) := do
  transaction worker scope
  let registration ← findRegistration store scope
  lockBudget store scope registration
  let row := AList.lookup scope store.sessions
  checkTip store scope row
  match row with
  | none => pure none
  | some row => do
      let result ← decode row
      guardThat (result.seed.scope = scope ∧
        contentDigest result.seed = registration.seedDigest) (.denied .seedDisagrees)
      pure (some result)

/-- The events of a unit, `order_by(sequence)`. -/
def auditTrail (store : Store) (scope : ReviewScope) : List EventRow :=
  (store.events.filter (·.scope = scope)).insertionSort (·.sequence ≤ ·.sequence)

/-- One round of the loop of `history`: the event against the sessions read so far. -/
def readEvent (result : List ReviewSession) (row : EventRow) :
    Except StoreError (List ReviewSession) := do
  let parsed ← ReviewSession.modelValidateJson row.document
  let item ← storeRaising (validateSession parsed)
  guardThat (row.sequence = result.length + 1 ∧ row.afterDigest = contentDigest item ∧
    row.beforeDigest = result.getLast?.map contentDigest) (.denied .chainInconsistent)
  let kind ← storeRaising (validateExtension result.getLast? item)
  guardThat (row.kind = kind) (.denied .chainInconsistent)
  pure (result ++ [item])

/-- `history`. -/
def history (store : Store) (worker : Worker) (scope : ReviewScope) :
    Except StoreError (List ReviewSession) := do
  transaction worker scope
  let _ ← findRegistration store scope
  (auditTrail store scope).foldlM readEvent []

end Readers

end NokincFactory
