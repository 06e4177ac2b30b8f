/-
  File:      NokincFactory/Domain/States.lean
  Subject:   `states.py`: the lifecycle of a work item.

  * `WorkItemState`, `humanGates`, `allowedFrom`: the states, the gates among them, and where
    each may go;
  * `Transition.validateAgainst`: the comparison with the expected state, legality, approval,
    in this order; `validateAgainst_ok` is what a transition that passes has.
-/
import NokincFactory.Domain.ReviewBase

namespace NokincFactory

/-! ## 1. States -/

inductive WorkItemState where
  | new | refining | businessReady | designing | solutionReady | implementing | devVerifying
  | devVerified | preprodVerifying | preprodVerified | releasing | done | blocked | rejected
  | rolledBack
deriving DecidableEq, Repr

namespace WorkItemState

/-- The value of the enumeration member. -/
def value : WorkItemState → String
  | new => "NEW"
  | refining => "REFINING"
  | businessReady => "BUSINESS_READY"
  | designing => "DESIGNING"
  | solutionReady => "SOLUTION_READY"
  | implementing => "IMPLEMENTING"
  | devVerifying => "DEV_VERIFYING"
  | devVerified => "DEV_VERIFIED"
  | preprodVerifying => "PREPROD_VERIFYING"
  | preprodVerified => "PREPROD_VERIFIED"
  | releasing => "RELEASING"
  | done => "DONE"
  | blocked => "BLOCKED"
  | rejected => "REJECTED"
  | rolledBack => "ROLLED_BACK"

/-- Every state, in the order of the source. -/
def all : List WorkItemState :=
  [new, refining, businessReady, designing, solutionReady, implementing, devVerifying,
    devVerified, preprodVerifying, preprodVerified, releasing, done, blocked, rejected,
    rolledBack]

theorem mem_all (s : WorkItemState) : s ∈ all := by
  cases s <;> decide

end WorkItemState

/-- States whose exit requires a human approval. -/
def humanGates : List WorkItemState :=
  [.businessReady, .solutionReady, .devVerified, .preprodVerified]

/-- `_ALLOWED`. -/
def allowedFrom : WorkItemState → List WorkItemState
  | .new => [.refining, .rejected]
  | .refining => [.businessReady, .rejected]
  | .businessReady => [.designing, .refining, .rejected]
  | .designing => [.solutionReady, .blocked]
  | .solutionReady => [.implementing, .designing, .rejected]
  | .implementing => [.devVerifying, .blocked, .solutionReady]
  | .devVerifying => [.devVerified, .implementing]
  | .devVerified => [.preprodVerifying, .implementing]
  | .preprodVerifying => [.preprodVerified, .implementing]
  | .preprodVerified => [.releasing, .implementing]
  | .releasing => [.done, .rolledBack]
  | .blocked => [.refining, .designing, .implementing, .rejected]
  | .done => []
  | .rejected => []
  | .rolledBack => [.implementing]

/-- No state may stay where it is. -/
theorem allowedFrom_moves (s : WorkItemState) : s ∉ allowedFrom s := by
  cases s <;> decide

/-! ## 2. Transitions -/

inductive TransitionError where
  | illegalTransition (message : String)
  | staleTransition (message : String)
deriving DecidableEq, Repr

/-- One lifecycle transition, as far as the lifecycle reads it. -/
structure Transition where
  workItemId : String
  expectedCurrent : WorkItemState
  target : WorkItemState
  eventId : String
  approvalId : Option String
deriving DecidableEq

namespace Transition

/-- An approval reference that is there and not blank. -/
def approved (t : Transition) : Bool :=
  match t.approvalId with
  | none => false
  | some approval => approval.toList.any (fun c => !isSpace c)

/-- `validate_against`: raise unless this transition may be applied to `actual`. -/
def validateAgainst (t : Transition) (actual : WorkItemState) : Except TransitionError Unit := do
  guardThat (actual = t.expectedCurrent) (.staleTransition
    (t.workItemId ++ ": expected " ++ t.expectedCurrent.value ++ ", found " ++ actual.value))
  guardThat (t.target ∈ allowedFrom actual) (.illegalTransition
    (actual.value ++ " -> " ++ t.target.value ++ " is not permitted"))
  guardThat (¬ (actual ∈ humanGates ∧ t.approved = false)) (.illegalTransition
    ("leaving " ++ actual.value ++ " requires a bound human approval"))

variable {t : Transition} {actual : WorkItemState} {u : Unit}

theorem validateAgainst_ok : t.validateAgainst actual = .ok u ↔
    actual = t.expectedCurrent ∧ t.target ∈ allowedFrom actual ∧
      (actual ∈ humanGates → t.approved = true) := by
  unfold validateAgainst
  rw [Except.seq_ok, Except.seq_ok, guardThat_ok, guardThat_ok, guardThat_ok]
  simp

end Transition

end NokincFactory
