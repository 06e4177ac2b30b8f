/-
  File:      NokincFactory/Session/Budget.lean
  Subject:   What a session has spent, and that it stays within its policy.

  * `attemptCharge`: what one completed attempt costs, read off the ledger before it;
    `charge_eq`: it is what the reducer charges;
  * `Accounted`: the invariant between the ledger and the budget;
  * `budget_of_reachable`: the budget of every reachable session is the ledger's, and
    within the policy unless the session has been stopped.
-/
import NokincFactory.Session.Replay

namespace NokincFactory

section Accounting

variable [Sha256]

/-! ## 1. What an attempt costs -/

/-- The keys of the executions that the receipts of a ledger report. -/
def executionsOf (attempts : List ReviewAttempt) : List Digest :=
  attempts.filterMap fun a => (a.completion.bind (·.receipt)).map executionKey

/-- A receipt that names its invocation, its binding and its actor, is not cached, and
    reports an execution that no earlier receipt reported. -/
def validReceipt (earlier : List ReviewAttempt) (invocation : Invocation)
    (proof : InvocationReceipt) : Prop :=
  proof.invocationId = invocation.invocationId ∧ proof.binding = invocation.binding ∧
    proof.actualModel = invocation.actor ∧ proof.cached = false ∧
    executionKey proof ∉ executionsOf earlier

instance (earlier : List ReviewAttempt) (invocation : Invocation) (proof : InvocationReceipt) :
    Decidable (validReceipt earlier invocation proof) :=
  inferInstanceAs (Decidable (_ ∧ _ ∧ _ ∧ _ ∧ _))

/-- What a completed attempt costs after the attempts before it: the reported usage of a
    valid receipt, at least the hold for any other receipt, the hold without one. -/
def attemptCharge (earlier : List ReviewAttempt) (invocation : Invocation)
    (receipt : Option InvocationReceipt) : Usage :=
  let held := invocation.reservation
  match receipt with
  | none => ⟨held.tokens, held.costMicrousd⟩
  | some proof =>
      if validReceipt earlier invocation proof then proof.usage
      else ⟨max proof.usage.tokens held.tokens, max proof.usage.costMicrousd held.costMicrousd⟩

/-- The hold and the charge of each completed attempt of `rest`, which comes after `earlier`. -/
def settlements : List ReviewAttempt → List ReviewAttempt → List (Reservation × Usage)
  | _, [] => []
  | earlier, a :: rest =>
      (match a.completion with
        | none => []
        | some completion =>
            [(a.invocation.reservation, attemptCharge earlier a.invocation completion.receipt)]) ++
      settlements (earlier ++ [a]) rest

theorem settlements_append (rest' : List ReviewAttempt) :
    ∀ (earlier rest : List ReviewAttempt),
      settlements earlier (rest ++ rest') =
        settlements earlier rest ++ settlements (earlier ++ rest) rest'
  | earlier, [] => by simp [settlements]
  | earlier, a :: rest => by
      rw [List.cons_append, settlements, settlements_append rest' (earlier ++ [a]) rest,
        settlements, List.append_assoc, List.append_assoc]
      rfl

@[simp] theorem settlements_reserve (attempts : List ReviewAttempt) (invocation : Invocation) :
    settlements [] (attempts ++ [⟨invocation, none⟩]) = settlements [] attempts := by
  rw [settlements_append]
  simp [settlements]

@[simp] theorem settlements_settle (attempts : List ReviewAttempt) (invocation : Invocation)
    (completion : Completion) :
    settlements [] (attempts ++ [⟨invocation, some completion⟩]) = settlements [] attempts ++
      [(invocation.reservation, attemptCharge attempts invocation completion.receipt)] := by
  rw [settlements_append]
  simp [settlements]

/-- What the completed attempts of a ledger cost. -/
def ledgerCharges (attempts : List ReviewAttempt) : List Usage :=
  (settlements [] attempts).map (·.2)

@[simp] theorem ledgerCharges_reserve (attempts : List ReviewAttempt) (invocation : Invocation) :
    ledgerCharges (attempts ++ [⟨invocation, none⟩]) = ledgerCharges attempts := by
  unfold ledgerCharges
  rw [settlements_reserve]

@[simp] theorem ledgerCharges_settle (attempts : List ReviewAttempt) (invocation : Invocation)
    (completion : Completion) :
    ledgerCharges (attempts ++ [⟨invocation, some completion⟩]) =
      ledgerCharges attempts ++ [attemptCharge attempts invocation completion.receipt] := by
  unfold ledgerCharges
  rw [settlements_settle, List.map_append]
  rfl

/-- The execution ids of a state are the keys of the receipts in its ledger. -/
def ExecutionsSeen (attempts : List ReviewAttempt) (state : ReviewState) : Prop :=
  ∀ key, key ∈ state.executionIds ↔ key ∈ executionsOf attempts

@[simp] theorem executionsOf_append (attempts rest : List ReviewAttempt) :
    executionsOf (attempts ++ rest) = executionsOf attempts ++ executionsOf rest :=
  List.filterMap_append

theorem mem_recordExecution {executionIds : List Digest} {receipt : Option InvocationReceipt}
    {key : Digest} : key ∈ recordExecution executionIds receipt ↔
      key ∈ executionIds ∨ key ∈ (receipt.map executionKey).toList := by
  cases receipt with
  | none => simp [recordExecution]
  | some proof =>
      show key ∈ (if _ then _ else _) ↔ _ ∨ key ∈ [executionKey proof]
      by_cases hin : executionKey proof ∈ executionIds
      · rw [if_pos hin, List.mem_singleton]
        refine ⟨Or.inl, fun h => h.elim id fun e => ?_⟩
        rw [e]
        exact hin
      · rw [if_neg hin, List.mem_append]

theorem receiptFault_eq_none {executionIds : List Digest} {invocation : Invocation}
    {proof : InvocationReceipt} {earlier : List ReviewAttempt}
    (hseen : ∀ key, key ∈ executionIds ↔ key ∈ executionsOf earlier) :
    receiptFault executionIds invocation (some proof) = none ↔
      validReceipt earlier invocation proof := by
  unfold receiptFault validReceipt
  rw [← hseen]
  by_cases hm : proof.invocationId ≠ invocation.invocationId ∨ proof.binding ≠ invocation.binding ∨
      proof.actualModel ≠ invocation.actor
  · simp only [hm, if_true]
    constructor
    · intro h
      cases h
    · rintro ⟨h1, h2, h3, -⟩
      rcases hm with hm | hm | hm
      · exact absurd h1 hm
      · exact absurd h2 hm
      · exact absurd h3 hm
  · simp only [hm, if_false]
    simp only [not_or, not_not] at hm
    obtain ⟨h1, h2, h3⟩ := hm
    by_cases hc : proof.cached = true ∨ executionKey proof ∈ executionIds
    · simp only [hc, if_true]
      constructor
      · intro h
        cases h
      · rintro ⟨-, -, -, h4, h5⟩
        rcases hc with hc | hc
        · rw [h4] at hc
          cases hc
        · exact absurd hc h5
    · simp only [hc, if_false]
      simp only [not_or, Bool.not_eq_true] at hc
      exact ⟨fun _ => ⟨h1, h2, h3, hc.1, hc.2⟩, fun _ => trivial⟩

/-- The reducer charges what the ledger says the attempt costs. -/
theorem charge_eq {attempts : List ReviewAttempt} {state : ReviewState}
    (hseen : ExecutionsSeen attempts state) (invocation : Invocation)
    (receipt : Option InvocationReceipt) :
    charge state.executionIds invocation receipt = attemptCharge attempts invocation receipt := by
  unfold charge attemptCharge
  cases receipt with
  | none => simp [receiptFault]
  | some proof =>
      have hiff : receiptFault state.executionIds invocation (some proof) = none ↔
          validReceipt attempts invocation proof := receiptFault_eq_none hseen
      by_cases hv : validReceipt attempts invocation proof
      · simp [hiff.mpr hv, hv]
      · simp [mt hiff.mp hv, hv]

variable [Pydantic] {seed : ReviewSeed}

theorem Ledger.executionsSeen {attempts : List ReviewAttempt} {state : ReviewState}
    (h : Ledger seed attempts state) : ExecutionsSeen attempts state := by
  refine Ledger.rule (motive := ExecutionsSeen) ?_ ?_ ?_ h
  · intro _ key
    exact Iff.rfl
  · intro attempts state invocation _ _ ih key
    rw [executionsOf_append, List.mem_append, ← ih key]
    exact (or_iff_left List.not_mem_nil).symm
  · intro attempts state invocation completion settled _ _ _ _ ho ih key
    have hprev := ih key
    rw [executionsOf_append, List.mem_append] at hprev ⊢
    rw [ho.books.executionIds]
    show key ∈ recordExecution state.executionIds completion.receipt ↔ _
    rw [mem_recordExecution, hprev]
    refine or_congr (or_iff_left List.not_mem_nil) ?_
    cases hr : completion.receipt with
    | none => simp [executionsOf, hr]
    | some proof => simp [executionsOf, hr]

/-! ## 2. Overruns stop the session -/

omit [Sha256] [Pydantic] in
theorem endsSession_stop (stop : ExecutionStop) : endsSession stop.reason = true := by
  cases stop <;> rfl

omit [Pydantic] in
theorem failure_terminal_ne_nil {state : ReviewState} {reason : ReviewReason}
    (h : endsSession reason = true) :
    (capacity seed (failure seed state reason)).terminalReasons ≠ [] :=
  List.ne_nil_of_mem (mem_capacity_terminal.mpr
    (Or.inl (mem_failure_terminal.mpr (Or.inr (Or.inl ⟨rfl, h⟩)))))

/-- A charge beyond the hold, on whatever path, leaves a terminal reason. -/
theorem Outcome.overrun {state settled : ReviewState} {invocation : Invocation}
    {completion : Completion} (ho : Outcome seed state invocation completion settled)
    (hover : invocation.reservation.tokens <
        (charge state.executionIds invocation completion.receipt).tokens ∨
      invocation.reservation.costMicrousd <
        (charge state.executionIds invocation completion.receipt).costMicrousd) :
    (capacity seed settled).terminalReasons ≠ [] := by
  have hreason : (account state invocation completion).2 = some .budgetOverrun := by
    unfold account
    exact if_pos hover
  have hfault : completionFault seed state invocation completion = some .timeWindow ∨
      completionFault seed state invocation completion = some .budgetOverrun := by
    unfold completionFault
    dsimp only
    split
    · exact Or.inl rfl
    · exact Or.inr hreason
  have hunclean : ¬ Clean seed state invocation completion := by
    intro hclean
    rcases hfault with hf | hf
    · rw [hclean.faultless] at hf
      cases hf
    · rw [hclean.faultless] at hf
      cases hf
  cases ho with
  | stopped stop h => exact failure_terminal_ne_nil (endsSession_stop stop)
  | faulted reason hn h =>
      -- the window is checked after the receipt, so its reason may hide the overrun
      rcases hfault with hf | hf
      · obtain rfl := Option.some.inj (hf.symm.trans h)
        exact failure_terminal_ne_nil rfl
      · obtain rfl := Option.some.inj (hf.symm.trans h)
        exact failure_terminal_ne_nil rfl
  | refused exc h hunbound hmissing hrepair => exact absurd h hunclean
  | uncredited text report exc h hk ho hb hc => exact absurd h hunclean
  | credited text report updated h hk ho hb hc => exact absurd h hunclean
  | repaired text repair resolutions updated h hk ho hp hr => exact absurd h hunclean

/-- A session that is not stopped has charged no more than the hold. -/
theorem Outcome.within {state settled : ReviewState} {invocation : Invocation}
    {completion : Completion} (ho : Outcome seed state invocation completion settled)
    (hnil : (capacity seed settled).terminalReasons = []) :
    (charge state.executionIds invocation completion.receipt).tokens ≤
        invocation.reservation.tokens ∧
      (charge state.executionIds invocation completion.receipt).costMicrousd ≤
        invocation.reservation.costMicrousd := by
  by_contra hover
  refine ho.overrun ?_ hnil
  omega

omit [Pydantic] in
/-- An accepted delivery is within the session window and the reserved seconds. -/
theorem Clean.time {state : ReviewState} {invocation : Invocation} {completion : Completion}
    (h : Clean seed state invocation completion) :
    withinWindow seed state completion.finishedAt ∧
      0 ≤ totalSeconds completion.finishedAt invocation.startedAt ∧
      totalSeconds completion.finishedAt invocation.startedAt < invocation.reservation.seconds := by
  have hnone := h.faultless
  unfold completionFault at hnone
  dsimp only at hnone
  split at hnone
  · cases hnone
  · rename_i htime
    simpa only [not_or, not_not] using htime

omit [Pydantic] in
/-- An accepted delivery comes with a valid receipt within its hold. -/
theorem Clean.receipt {attempts : List ReviewAttempt} {state : ReviewState}
    {invocation : Invocation} {completion : Completion}
    (hseen : ExecutionsSeen attempts state) (h : Clean seed state invocation completion) :
    ∃ proof, completion.receipt = some proof ∧ validReceipt attempts invocation proof ∧
      proof.usage.tokens ≤ invocation.reservation.tokens ∧
      proof.usage.costMicrousd ≤ invocation.reservation.costMicrousd := by
  have hnone : (account state invocation completion).2 = none := by
    have hf := h.faultless
    unfold completionFault at hf
    dsimp only at hf
    split at hf
    · cases hf
    · exact hf
  unfold account at hnone
  dsimp only at hnone
  split at hnone
  · cases hnone
  · rename_i hover
    cases hr : completion.receipt with
    | none =>
        rw [hr] at hnone
        cases hnone
    | some proof =>
        rw [hr] at hnone hover
        have hvalid := (receiptFault_eq_none hseen).mp hnone
        rw [charge_eq hseen] at hover
        simp only [attemptCharge, hvalid, if_true, not_or, not_lt] at hover
        exact ⟨proof, rfl, hvalid, hover⟩

omit [Pydantic] in
/-- A valid receipt within its hold, in time and without a runtime stop, is accepted. -/
theorem clean_of_receipt {attempts : List ReviewAttempt} {state : ReviewState}
    {invocation : Invocation} {completion : Completion} {proof : InvocationReceipt}
    (hseen : ExecutionsSeen attempts state) (hf : completion.failureReason = none)
    (hr : completion.receipt = some proof) (hv : validReceipt attempts invocation proof)
    (hheld : proof.usage.tokens ≤ invocation.reservation.tokens ∧
      proof.usage.costMicrousd ≤ invocation.reservation.costMicrousd)
    (hw : withinWindow seed state completion.finishedAt)
    (hs : 0 ≤ totalSeconds completion.finishedAt invocation.startedAt ∧
      totalSeconds completion.finishedAt invocation.startedAt < invocation.reservation.seconds) :
    Clean seed state invocation completion where
  running := hf
  faultless := by
    have hcharge : charge state.executionIds invocation completion.receipt = proof.usage := by
      rw [hr, charge_eq hseen]
      simp [attemptCharge, hv]
    have hnone : (account state invocation completion).2 = none := by
      unfold account
      dsimp only
      rw [hcharge, if_neg (not_or.mpr ⟨not_lt.mpr hheld.1, not_lt.mpr hheld.2⟩), hr]
      exact (receiptFault_eq_none hseen).mpr hv
    unfold completionFault
    dsimp only
    rw [if_neg (not_or.mpr ⟨not_not.mpr hw, not_not.mpr hs⟩)]
    exact hnone

omit [Pydantic] in
/-- Reserving an attempt reports no execution. -/
theorem ExecutionsSeen.settle {attempts : List ReviewAttempt} {state : ReviewState}
    {invocation : Invocation} (h : ExecutionsSeen (attempts ++ [⟨invocation, none⟩]) state) :
    ExecutionsSeen attempts state := by
  intro key
  rw [h key, executionsOf_append, List.mem_append]
  exact or_iff_left List.not_mem_nil

/-! ## 3. The budget invariant -/

/-- The budget of a state, as its ledger and its policy say it must be. -/
structure Accounted (seed : ReviewSeed) (attempts : List ReviewAttempt) (state : ReviewState) :
    Prop where
  invocations : state.budget.invocations = attempts.length
  maxInvocations : state.budget.invocations ≤ seed.policy.maxInvocations
  repairs : state.budget.repairs =
    attempts.countP fun a => a.invocation.kind = .repair
  maxRepairs : state.budget.repairs ≤ seed.policy.maxImplementationRepairs
  tokensReserved : state.budget.tokensReserved =
    (state.pending.map (·.reservation.tokens)).getD 0
  costReserved : state.budget.costMicrousdReserved =
    (state.pending.map (·.reservation.costMicrousd)).getD 0
  tokensSpent : state.budget.tokensSpent = ((ledgerCharges attempts).map (·.tokens)).sum
  costSpent : state.budget.costMicrousdSpent =
    ((ledgerCharges attempts).map (·.costMicrousd)).sum
  maxTokens : state.terminalReasons = [] →
    state.budget.tokensSpent + state.budget.tokensReserved ≤ seed.policy.maxTokens
  maxCost : state.terminalReasons = [] →
    state.budget.costMicrousdSpent + state.budget.costMicrousdReserved ≤
      seed.policy.maxCostMicrousd

omit [Pydantic] in
theorem accounted_fresh (seed : ReviewSeed) : Accounted seed [] (freshState seed) where
  invocations := rfl
  maxInvocations := Nat.zero_le _
  repairs := rfl
  maxRepairs := Nat.zero_le _
  tokensReserved := rfl
  costReserved := rfl
  tokensSpent := rfl
  costSpent := rfl
  maxTokens := fun _ => Nat.zero_le _
  maxCost := fun _ => Nat.zero_le _

omit [Pydantic] in
theorem Accounted.reserve {attempts : List ReviewAttempt} {state : ReviewState}
    {invocation : Invocation} (ha : Accounted seed attempts state)
    (hr : Reservable seed state invocation) :
    Accounted seed (attempts ++ [⟨invocation, none⟩]) (reserved state invocation) where
  invocations := by
    rw [List.length_append, ← ha.invocations]
    rfl
  maxInvocations := hr.invocations
  repairs := by
    rw [List.countP_append, ← ha.repairs]
    show state.budget.repairs + _ = state.budget.repairs + List.countP _ [_]
    rw [List.countP_singleton]
    by_cases hk : invocation.kind = .repair
    · simp [hk]
    · simp [hk]
  maxRepairs := by
    show state.budget.repairs + (if _ then 1 else 0) ≤ _
    by_cases hk : invocation.kind = .repair
    · rw [if_pos hk]
      exact ((reserveKind_repair hk).mp hr.kind).2.2
    · rw [if_neg hk]
      exact ha.maxRepairs
  tokensReserved := rfl
  costReserved := rfl
  tokensSpent := by
    rw [ledgerCharges_reserve]
    exact ha.tokensSpent
  costSpent := by
    rw [ledgerCharges_reserve]
    exact ha.costSpent
  maxTokens := fun _ => hr.tokens
  maxCost := fun _ => hr.cost

theorem Accounted.settle {attempts : List ReviewAttempt} {state settled : ReviewState}
    {invocation : Invocation} {completion : Completion}
    (ha : Accounted seed (attempts ++ [⟨invocation, none⟩]) state)
    (hseen : ExecutionsSeen (attempts ++ [⟨invocation, none⟩]) state)
    (hp : state.pending = some invocation) (hopen : state.terminalReasons = [])
    (ho : Outcome seed state invocation completion settled) :
    Accounted seed (attempts ++ [⟨invocation, some completion⟩]) (capacity seed settled) := by
  have hb := ho.books.budget
  have hcharge : charge state.executionIds invocation completion.receipt =
      attemptCharge attempts invocation completion.receipt :=
    charge_eq hseen.settle invocation completion.receipt
  have htokens := ha.maxTokens hopen
  have hcost := ha.maxCost hopen
  rw [ha.tokensReserved, hp, Option.map_some, Option.getD_some] at htokens
  rw [ha.costReserved, hp, Option.map_some, Option.getD_some] at hcost
  constructor
  · rw [hb, List.length_append]
    have := ha.invocations
    rw [List.length_append] at this
    exact this
  · rw [hb]
    exact ha.maxInvocations
  · rw [hb, List.countP_append]
    have := ha.repairs
    rw [List.countP_append] at this
    exact this
  · rw [hb]
    exact ha.maxRepairs
  · rw [hb, ho.books.pending]
    rfl
  · rw [hb, ho.books.pending]
    rfl
  · have hspent := ha.tokensSpent
    rw [ledgerCharges_reserve] at hspent
    rw [hb, ledgerCharges_settle, List.map_append, List.sum_append, ← hspent, ← hcharge]
    simp [account]
  · have hspent := ha.costSpent
    rw [ledgerCharges_reserve] at hspent
    rw [hb, ledgerCharges_settle, List.map_append, List.sum_append, ← hspent, ← hcharge]
    simp [account]
  · intro hnil
    have hle := (ho.within hnil).1
    rw [hb]
    show state.budget.tokensSpent + _ + 0 ≤ _
    omega
  · intro hnil
    have hle := (ho.within hnil).2
    rw [hb]
    show state.budget.costMicrousdSpent + _ + 0 ≤ _
    omega

theorem Ledger.accounted {attempts : List ReviewAttempt} {state : ReviewState}
    (h : Ledger seed attempts state) : Accounted seed attempts state := by
  refine Ledger.rule (motive := Accounted seed) ?_ ?_ ?_ h
  · intro _
    exact accounted_fresh seed
  · intro attempts state invocation _ hr ih
    exact ih.reserve hr
  · intro attempts state invocation completion settled hl _ hp _ ho ih
    have hopen := hl.running (by rw [hp]; exact Option.some_ne_none _)
    exact ih.settle hl.executionsSeen hp hopen ho

end Accounting

/-- **Budget safety of a session**: its counters, holds and spending are those of its
    ledger, and stay within the policy unless the session carries a terminal reason. -/
theorem budget_of_reachable [Sha256] [Pydantic] {session : ReviewSession}
    (h : sessions.Reachable session) :
    Accounted session.seed session.attempts session.state ∧
      Settled session.attempts session.state := by
  have hs := recorded_of_reachable h
  exact ⟨hs.accounted, hs.settled⟩

open Fixture in
theorem budget_accepted :
    Accounted seed [rejecting, repairing, accepting] accepted ∧
      accepted.budget.tokensSpent = 30 := by
  exact ⟨(budget_of_reachable (reachable_of_ledger ledger_accepted)).1, rfl⟩

end NokincFactory
