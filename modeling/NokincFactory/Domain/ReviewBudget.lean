/-
  File:      NokincFactory/Domain/ReviewBudget.lean
  Subject:   `review_budget.py`: the ceilings of a parent budget, and who a worker of the
             store acts for; and `COUNTERS`, the columns the store keeps for a parent.
-/
import Mathlib.Data.Fintype.Defs
import NokincFactory.Domain.ReviewSession

namespace NokincFactory

/-- Immutable ceilings of one work item. -/
structure ParentBudget where
  tenantId : Identifier
  workItemId : Identifier
  budgetId : Identifier
  maxInvocations : Nat
  maxRepairs : Nat
  maxTokens : Nat
  maxCostMicrousd : Nat
  expiresAt : Moment
  maxInvocations_pos : 0 < maxInvocations
  maxTokens_pos : 0 < maxTokens
  maxCostMicrousd_pos : 0 < maxCostMicrousd

/-- What a budget holds, its bounds apart. -/
def ParentBudget.fields (b : ParentBudget) :=
  ((b.tenantId, b.workItemId, b.budgetId), b.maxInvocations, b.maxRepairs, b.maxTokens,
    b.maxCostMicrousd, b.expiresAt)

theorem ParentBudget.fields_injective : Function.Injective ParentBudget.fields := by
  intro a b h
  cases a
  cases b
  cases h
  rfl

instance : DecidableEq ParentBudget := ParentBudget.fields_injective.decidableEq

/-- The tenant and worker a store was opened for. -/
structure ReviewStoreGrant where
  tenantId : Identifier
  subjectId : Identifier
deriving DecidableEq

/-- `COUNTERS`. -/
inductive Counter where
  | invocations | repairs | tokensSpent | costMicrousdSpent | tokensReserved
  | costMicrousdReserved
deriving DecidableEq

instance : Fintype Counter where
  elems := {.invocations, .repairs, .tokensSpent, .costMicrousdSpent, .tokensReserved,
    .costMicrousdReserved}
  complete := fun key => by cases key <;> decide

/-- `getattr(budget, key)`. -/
def BudgetState.counter (budget : BudgetState) : Counter → Nat
  | .invocations => budget.invocations
  | .repairs => budget.repairs
  | .tokensSpent => budget.tokensSpent
  | .costMicrousdSpent => budget.costMicrousdSpent
  | .tokensReserved => budget.tokensReserved
  | .costMicrousdReserved => budget.costMicrousdReserved

/-- A stored session and a stored ceiling are JSON texts: parsing them (`none` where
    validation raises), and dumping a session. -/
class ReviewDocuments where
  session : String → Option ReviewSession
  sessionJson : ReviewSession → String
  parentBudget : String → Option ParentBudget

/-- The text a session is dumped to reads back as the session. -/
def ReviewSession.ReadsBack [ReviewDocuments] (session : ReviewSession) : Prop :=
  ReviewDocuments.session (ReviewDocuments.sessionJson session) = some session

end NokincFactory
