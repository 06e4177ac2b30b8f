/-
  File:      NokincFactory/Policy/ReviewPersistence.lean
  Subject:   `review_persistence.py`: which value may follow a stored session.
-/
import NokincFactory.Policy.Review

namespace NokincFactory

variable [Sha256] [Pydantic]

inductive TransitionKind where
  | create | reserve | complete | unchanged
deriving DecidableEq

def TransitionKind.value : TransitionKind → String
  | .create => "CREATE"
  | .reserve => "RESERVE"
  | .complete => "COMPLETE"
  | .unchanged => "UNCHANGED"

/-- The reservation branch of `validate_extension`: what the stored session makes of the
    last attempt of the proposal. -/
def expectedReservation (current : ReviewSession) (attempt : ReviewAttempt) :
    Except PyError ReviewSession := do
  raising (guardThat (attempt.completion = none)
    (.message "A reservation and completion need separate committed transitions"))
  let invocation := attempt.invocation
  reserveInvocation current invocation.invocationId invocation.kind invocation.actor
    invocation.reservation invocation.startedAt.datetime

/-- The completion branch of `validate_extension`. -/
def expectedCompletion (current : ReviewSession) (attempt : ReviewAttempt) :
    Except PyError ReviewSession :=
  match attempt.completion with
  | none => .error (.value (.message "A pending transition has no completion"))
  | some completion =>
      completeInvocation current completion.invocationId completion.receipt
        (completion.outputJson.map Output.str) completion.finishedAt.datetime
        completion.failureReason

/-- The proposal adds one attempt to a stored session that has none pending. -/
def addsAttempt (current proposed : ReviewSession) : Prop :=
  current.state.pending = none ∧ proposed.attempts.length = current.attempts.length + 1 ∧
    proposed.attempts.dropLast = current.attempts

/-- The proposal differs from a stored session with a pending attempt in the last attempt
    only, and there not in the invocation. -/
def settlesAttempt (current proposed : ReviewSession) : Prop :=
  current.state.pending ≠ none ∧ proposed.attempts.length = current.attempts.length ∧
    proposed.attempts.dropLast = current.attempts.dropLast ∧
    proposed.attempts.getLast?.map (·.invocation) = current.attempts.getLast?.map (·.invocation)

instance (current proposed : ReviewSession) : Decidable (addsAttempt current proposed) :=
  inferInstanceAs (Decidable (_ ∧ _ ∧ _))

instance (current proposed : ReviewSession) : Decidable (settlesAttempt current proposed) :=
  inferInstanceAs (Decidable (_ ∧ _ ∧ _ ∧ _))

/-- `review_persistence.validate_extension`. -/
def validateExtension (current : Option ReviewSession) (proposed : ReviewSession) :
    Except PyError TransitionKind := do
  let proposed ← validateSession proposed
  match current with
  | none => do
      raising (guardThat (proposed.attempts = [])
        (.message "New sessions must be empty and independently registered"))
      pure .create
  | some current => do
      let current ← validateSession current
      raising (guardThat (current.seed = proposed.seed)
        (.message "Registered seed cannot change"))
      if current = proposed then pure .unchanged
      else
        match proposed.attempts.getLast? with
        | some attempt =>
            if addsAttempt current proposed then do
              let expected ← expectedReservation current attempt
              raising (guardThat (expected = proposed)
                (.message "Proposed state disagrees with the next transition"))
              pure .reserve
            else if settlesAttempt current proposed then do
              let expected ← expectedCompletion current attempt
              raising (guardThat (expected = proposed)
                (.message "Proposed state disagrees with the next transition"))
              pure .complete
            else .error (.value (.message "Session is not the next committed transition"))
        -- neither branch of the source applies to a proposal without attempts: a stored
        -- session with a pending attempt has one
        | none => .error (.value (.message "Session is not the next committed transition"))

end NokincFactory
