/-
  File:      NokincFactory/Session/Progress.lean
  Subject:   What a session that is not decided can still do.

  That somebody does it is not covered.

  * `one_le_secondsLeft`, `secondsLeft_overflow`: the seconds a reservation may hold, and
    the limits for which the code cannot compute them;
  * `Ledger.spare`: an idle session that is not stopped has capacity left;
  * `Alive`: no dead end. What `evaluate` asks for can be reserved, what is pending can be
    completed, and the number of reservations is bounded;
  * `alive_iff`: every session of a seed is alive exactly when the policy's seconds convert
    to a double.
-/
import NokincFactory.Session.Stops

namespace NokincFactory

section Progress

variable [Sha256] {seed : ReviewSeed}

/-! ## 1. The seconds left -/

omit [Sha256] in
/-- With a whole second left in the window, the code finds at least one second left. -/
theorem one_le_secondsLeft {startedAt : Moment}
    (hlimit : (seed.policy.maxElapsedSeconds : ℤ) < Binary64.intOverflow)
    (hleft : totalSeconds startedAt seed.startedAt + 1 ≤ seed.policy.maxElapsedSeconds) :
    ∃ left, secondsLeft seed startedAt = .ok left ∧ 1 ≤ left := by
  have hof : Binary64.ofInt? seed.policy.maxElapsedSeconds =
      some (Binary64.round ((seed.policy.maxElapsedSeconds : ℤ) : ℚ)) := by
    unfold Binary64.ofInt?
    rw [abs_of_nonneg (Int.natCast_nonneg _), if_pos hlimit]
  refine ⟨Binary64.round (Binary64.round ((seed.policy.maxElapsedSeconds : ℤ) : ℚ) -
    totalSeconds startedAt seed.startedAt), ?_, ?_⟩
  · unfold secondsLeft
    rw [hof]
  · have hone : ((1 : ℤ) : ℚ) ≤ Binary64.round ((seed.policy.maxElapsedSeconds : ℤ) : ℚ) -
        totalSeconds startedAt seed.startedAt := by
      rcases lt_or_ge (seed.policy.maxElapsedSeconds : ℤ) (2 ^ 53) with hsmall | hlarge
      · -- the limit is a double, and the difference is exact enough
        have hint : Binary64.round ((seed.policy.maxElapsedSeconds : ℤ) : ℚ) =
            ((seed.policy.maxElapsedSeconds : ℤ) : ℚ) :=
          Binary64.round_int (by rwa [abs_of_nonneg (Int.natCast_nonneg _)])
        rw [hint]
        push_cast
        linarith
      · -- the limit is out of reach of any two moments
        have hspan : totalSeconds startedAt seed.startedAt ≤ ((2 ^ 52 - 1 : ℤ) : ℚ) := by
          refine Binary64.round_le (by norm_num) ?_
          have hbound := (abs_le.mp (span_bound startedAt seed.startedAt)).2
          rwa [show ((2 ^ 52 - 1 : ℤ) : ℚ) = 2 ^ 52 - 1 by norm_num]
        have hlow : ((2 ^ 53 - 1 : ℤ) : ℚ) ≤
            Binary64.round ((seed.policy.maxElapsedSeconds : ℤ) : ℚ) := by
          refine Binary64.le_round (by norm_num) ?_
          exact_mod_cast (by omega : (2 ^ 53 - 1 : ℤ) ≤ (seed.policy.maxElapsedSeconds : ℤ))
        push_cast at hspan hlow ⊢
        linarith
    have hround := Binary64.le_round (by norm_num) hone
    push_cast at hround
    exact hround

omit [Sha256] in
/-- A limit beyond the doubles leaves no seconds the code can compute. -/
theorem secondsLeft_overflow (hlimit : Binary64.intOverflow ≤ (seed.policy.maxElapsedSeconds : ℤ))
    (startedAt : Moment) :
    secondsLeft seed startedAt = .error (.overflow "int too large to convert to float") := by
  have hof : Binary64.ofInt? seed.policy.maxElapsedSeconds = none := by
    unfold Binary64.ofInt?
    rw [abs_of_nonneg (Int.natCast_nonneg _), if_neg (not_lt.mpr hlimit)]
  unfold secondsLeft
  rw [hof]

omit [Sha256] in
@[simp] theorem totalSeconds_self (at' : Moment) : totalSeconds at' at' = 0 := by
  have h : Binary64.round ((0 : ℤ) : ℚ) = (0 : ℤ) := Binary64.round_int (by norm_num)
  unfold totalSeconds
  simpa using h

/-! ## 2. Capacity left -/

/-- An idle session that is neither stopped nor eligible has used up no capacity. -/
def Spare (seed : ReviewSeed) (state : ReviewState) : Prop :=
  state.pending = none → state.terminalReasons = [] → eligibilityReasons seed state ≠ [] →
    exhausted seed state = []

omit [Sha256] in
theorem not_openBlocker_fresh (seed : ReviewSeed) : ¬ openBlocker (freshState seed) := by
  intro h
  obtain ⟨item, hi, -⟩ := h
  exact absurd (mem_openFindings.mp hi).1 List.not_mem_nil

theorem spare_fresh (seed : ReviewSeed) : Spare seed (freshState seed) := by
  intro _ _ _
  have hrepair : ¬ needsRepair (freshState seed) := fun h =>
    not_openBlocker_fresh seed (openBlocker_of_needsRepair h)
  have hpasses : (freshState seed).validCompletedReports.length < seed.policy.maxReviewPasses :=
    lt_of_lt_of_le (by decide : 0 < 2) seed.policy.maxReviewPasses_ge
  have hinvocations : (freshState seed).budget.invocations < seed.policy.maxInvocations :=
    seed.policy.maxInvocations_pos
  have htokens : (freshState seed).budget.tokensSpent < seed.policy.maxTokens :=
    seed.policy.maxTokens_pos
  have hcost : (freshState seed).budget.costMicrousdSpent < seed.policy.maxCostMicrousd :=
    seed.policy.maxCostMicrousd_pos
  unfold exhausted
  rw [if_neg fun h => hrepair h.1, if_neg (not_le.mpr hpasses), if_neg (not_le.mpr hinvocations),
    if_neg (not_le.mpr htokens), if_neg (not_le.mpr hcost)]
  rfl

theorem spare_capacity (seed : ReviewSeed) (state : ReviewState) :
    Spare seed (capacity seed state) := by
  intro _ hopen hreasons
  rw [capacity_exhausted]
  refine List.eq_nil_iff_forall_not_mem.mpr fun r hr => ?_
  by_cases he : eligibilityReasons seed state = []
  · unfold capacity at hreasons
    rw [if_pos he] at hreasons
    exact hreasons he
  · have hmem : r ∈ (capacity seed state).terminalReasons :=
      mem_capacity_terminal.mpr (Or.inr ⟨he, hr⟩)
    rw [hopen] at hmem
    exact List.not_mem_nil hmem

variable [Pydantic]

theorem Ledger.spare {attempts : List ReviewAttempt} {state : ReviewState}
    (h : Ledger seed attempts state) : Spare seed state := by
  refine Ledger.rule (motive := fun _ state => Spare seed state) ?_ ?_ ?_ h
  · intro _
    exact spare_fresh seed
  · intro attempts state invocation _ _ _ hidle
    cases hidle
  · intro attempts state invocation completion settled _ _ _ _ _ _
    exact spare_capacity seed settled

/-! ## 3. What is asked for -/

/-- The invocation a decision asks for. -/
def askedKind : DecisionStatus → Option InvocationKind
  | .needsReview => some .review
  | .needsRepair => some .repair
  | .eligible | .blocked | .escalate => none

/-- Who is asked: the first reviewer of the seed, or the original doer. -/
def askedActor (seed : ReviewSeed) : InvocationKind → Option ModelIdentity
  | .review => seed.reviewers.head?
  | .repair => some seed.originalDoer

/-- The least a reservation can hold: one token, no cost, one second. -/
def minimalHold : Reservation := ⟨1, 0, 1, by decide, by decide⟩

/-- What a decision that asks for something has found. -/
structure Asked (session : ReviewSession) (at' : Moment) (kind : InvocationKind) : Prop where
  running : session.state.terminalReasons = []
  unfinished : eligibilityReasons session.seed session.state ≠ []
  window : withinWindow session.seed session.state at'
  repair : kind = .repair → needsRepair session.state ∧
    session.state.budget.repairs < session.seed.policy.maxImplementationRepairs

omit [Pydantic] in
theorem asked_of_status {session : ReviewSession} {at' : Moment} {kind : InvocationKind}
    (h : askedKind (decisionStatus session
      (decisionReasons session session.state.artifact at')) = some kind) :
    Asked session at' kind := by
  generalize hreasons : decisionReasons session session.state.artifact at' = reasons at h
  unfold decisionStatus at h
  split at h
  · cases h
  · rename_i hne
    split at h
    · cases h
    · split at h
      · cases h
      · rename_i hblocked
        rw [not_or, not_not] at hblocked
        obtain ⟨hopen, hdrift⟩ := hblocked
        have hwindow : withinWindow session.seed session.state at' := by
          by_contra hw
          refine hdrift ⟨.timeWindow, by simp, ?_⟩
          rw [← hreasons]
          unfold decisionReasons
          rw [if_neg hw]
          exact List.mem_append_right _ (List.mem_singleton_self _)
        have hunfinished : eligibilityReasons session.seed session.state ≠ [] := by
          intro hnil
          refine hne ?_
          rw [← hreasons]
          unfold decisionReasons
          rw [hnil, if_neg (not_not.mpr rfl), if_pos hwindow]
          rfl
        split at h
        · rename_i hrepair
          exact ⟨hopen, hunfinished, hwindow, fun _ => hrepair⟩
        · refine ⟨hopen, hunfinished, hwindow, fun hk => ?_⟩
          rw [hk] at h
          cases h

/-- What is asked for can be reserved, with a second left that the code can compute. -/
theorem reservable_of_asked {session : ReviewSession} {at' : Moment} {kind : InvocationKind}
    {actor : ModelIdentity} {invocationId : Identifier} (hs : Recorded session)
    (hidle : session.state.pending = none) (h : Asked session at' kind)
    (hlimit : (session.seed.policy.maxElapsedSeconds : ℤ) < Binary64.intOverflow)
    (hleft : totalSeconds at' session.seed.startedAt + 1 ≤ session.seed.policy.maxElapsedSeconds)
    (hactor : askedActor session.seed kind = some actor)
    (hfresh : invocationId ∉ session.state.invocationIds) :
    Reservable session.seed session.state
      (requested session invocationId kind actor minimalHold at') := by
  have hnone := hs.spare hidle h.running h.unfinished
  unfold exhausted at hnone
  simp only [List.append_eq_nil_iff, ite_eq_right_iff, List.cons_ne_nil, imp_false, not_le]
    at hnone
  obtain ⟨⟨⟨⟨-, hpasses⟩, hinvocations⟩, htokens⟩, hcost⟩ := hnone
  obtain ⟨left, hok, hone⟩ := one_le_secondsLeft hlimit hleft
  exact
    { running := h.running
      unfinished := h.unfinished
      idle := hidle
      fresh := hfresh
      binding := rfl
      window := h.window
      seconds := ⟨left, hok, by simpa [requested, minimalHold] using hone⟩
      invocations := hinvocations
      tokens := htokens
      cost := hcost.le
      kind := by
        cases kind with
        | review =>
            have hmem : actor ∈ session.seed.reviewers := List.mem_of_head? hactor
            refine (reserveKind_review rfl).mpr ⟨hpasses, hmem, ?_⟩
            rw [independent_congr hs.producers]
            exact hs.validSeed.independent actor hmem
        | repair =>
            obtain rfl := Option.some.inj hactor
            exact (reserveKind_repair rfl).mpr ⟨rfl, h.repair rfl⟩ }

omit [Pydantic] in
theorem askedActor_of_valid (hv : ValidSeed seed) (kind : InvocationKind) :
    ∃ actor, askedActor seed kind = some actor := by
  cases kind with
  | review =>
      obtain ⟨actor, rest, hr⟩ := List.exists_cons_of_ne_nil hv.staffed
      exact ⟨actor, by simp [askedActor, hr]⟩
  | repair => exact ⟨seed.originalDoer, rfl⟩

/-! ## 4. No dead end -/

/-- A session is no dead end. -/
structure Alive (session : ReviewSession) : Prop where
  /-- with a second left, an idle session can reserve exactly what `evaluate` asks for -/
  asked : session.state.pending = none → ∀ now at' decision kind invocationId,
    utc now = .ok at' →
    totalSeconds at' session.seed.startedAt + 1 ≤ session.seed.policy.maxElapsedSeconds →
    evaluate session session.state.artifact now = .ok decision →
    askedKind decision.status = some kind →
    invocationId ∉ session.state.invocationIds →
    ∃ actor, askedActor session.seed kind = some actor ∧ ∃ next,
      reserveInvocation session invocationId kind actor minimalHold now = .ok next
  /-- a pending attempt can be completed, whatever is delivered for it -/
  settles : ∀ invocation, session.state.pending = some invocation →
    ∀ receipt output now at' stop, utc now = .ok at' →
    ∃ next, completeInvocation session invocation.invocationId receipt output now stop = .ok next
  /-- an idle session is decided or can go on, while a second and an id are left -/
  moves : session.state.pending = none → ∀ now at' invocationId,
    utc now = .ok at' →
    totalSeconds at' session.seed.startedAt + 1 ≤ session.seed.policy.maxElapsedSeconds →
    invocationId ∉ session.state.invocationIds →
    ∃ decision, evaluate session session.state.artifact now = .ok decision ∧
      (decision.status ∈ [DecisionStatus.eligible, .blocked, .escalate] ∨
        ∃ next, sessions.step session next ∧
          next.attempts.length = session.attempts.length + 1)
  /-- when the window is over, the session is decided -/
  expired : ∀ now at', utc now = .ok at' → ¬ withinWindow session.seed session.state at' →
    ∃ decision, evaluate session session.state.artifact now = .ok decision ∧
      decision.status ∈ [DecisionStatus.blocked, .escalate]
  bounded : session.attempts.length ≤ session.seed.policy.maxInvocations

omit [Pydantic] in
/-- Out of the window a decision is BLOCKED or ESCALATE. -/
theorem status_of_over {session : ReviewSession} {at' : Moment}
    (h : ¬ withinWindow session.seed session.state at') :
    decisionStatus session (decisionReasons session session.state.artifact at') ∈
      [DecisionStatus.blocked, .escalate] := by
  have hmem : ReviewReason.timeWindow ∈
      decisionReasons session session.state.artifact at' := by
    unfold decisionReasons
    rw [if_neg h]
    exact List.mem_append_right _ (List.mem_singleton_self _)
  unfold decisionStatus
  rw [if_neg (List.ne_nil_of_mem hmem)]
  split
  · simp
  · rw [if_pos (Or.inr ⟨.timeWindow, by simp, hmem⟩)]
    simp

omit [Sha256] [Pydantic] in
/-- A decision asks for something or is final. -/
theorem askedKind_or_final (status : DecisionStatus) :
    status ∈ [DecisionStatus.eligible, .blocked, .escalate] ∨
      ∃ kind, askedKind status = some kind := by
  cases status with
  | eligible => exact Or.inl (by simp)
  | needsReview => exact Or.inr ⟨.review, rfl⟩
  | needsRepair => exact Or.inr ⟨.repair, rfl⟩
  | blocked => exact Or.inl (by simp)
  | escalate => exact Or.inl (by simp)

theorem evaluate_recorded {session : ReviewSession} (hs : Recorded session) {now : Datetime}
    {at' : Moment} (hnow : utc now = .ok at') :
    ∃ decision, evaluate session session.state.artifact now = .ok decision ∧
      decision.status =
        decisionStatus session (decisionReasons session session.state.artifact at') :=
  ⟨_, evaluate_ok.mpr ⟨validateSession_iff.mpr ⟨hs, rfl⟩, at', hnow, rfl⟩, rfl⟩

theorem status_of_evaluate {session : ReviewSession} {now : Datetime} {at' : Moment}
    {decision : ReviewDecision} (hnow : utc now = .ok at')
    (h : evaluate session session.state.artifact now = .ok decision) :
    decision.status =
      decisionStatus session (decisionReasons session session.state.artifact at') := by
  obtain ⟨-, at'', hnow', rfl⟩ := evaluate_ok.mp h
  obtain rfl := Except.ok.inj (hnow.symm.trans hnow')
  rfl

theorem reserve_asked {session : ReviewSession} (hs : Recorded session)
    (hlimit : (session.seed.policy.maxElapsedSeconds : ℤ) < Binary64.intOverflow)
    (hidle : session.state.pending = none) {now : Datetime} {at' : Moment}
    {kind : InvocationKind} {invocationId : Identifier} (hnow : utc now = .ok at')
    (hleft : totalSeconds at' session.seed.startedAt + 1 ≤ session.seed.policy.maxElapsedSeconds)
    (hasked : askedKind (decisionStatus session
      (decisionReasons session session.state.artifact at')) = some kind)
    (hfresh : invocationId ∉ session.state.invocationIds) :
    ∃ actor, askedActor session.seed kind = some actor ∧ ∃ next,
      reserveInvocation session invocationId kind actor minimalHold now = .ok next ∧
        next.attempts.length = session.attempts.length + 1 := by
  obtain ⟨actor, hactor⟩ := askedActor_of_valid hs.validSeed kind
  have hr := reservable_of_asked hs hidle (asked_of_status hasked) hlimit hleft hactor hfresh
  refine ⟨actor, hactor, _, reserveInvocation_ok.mpr ⟨validateSession_iff.mpr ⟨hs, rfl⟩, at', _,
    hnow, reserve_ok.mpr ⟨hr, rfl⟩, rfl⟩, ?_⟩
  exact List.length_append

theorem alive_of_recorded {session : ReviewSession} (hs : Recorded session)
    (hlimit : (session.seed.policy.maxElapsedSeconds : ℤ) < Binary64.intOverflow) :
    Alive session where
  asked := fun hidle now at' decision kind invocationId hnow hleft he hk hfresh => by
    rw [status_of_evaluate hnow he] at hk
    obtain ⟨actor, hactor, next, hnext, -⟩ :=
      reserve_asked hs hlimit hidle hnow hleft hk hfresh
    exact ⟨actor, hactor, next, hnext⟩
  settles := fun invocation hp receipt output now at' stop hnow => by
    obtain ⟨earlier, hl⟩ := hs.last_of_pending hp
    obtain ⟨state, hc⟩ : ∃ state, complete session.seed session.state
        (delivered invocation.invocationId receipt output at' stop) = .ok state :=
      complete_total hp rfl
    exact ⟨_, completeInvocation_ok.mpr ⟨validateSession_iff.mpr ⟨hs, rfl⟩, at',
      ⟨invocation, none⟩, hnow, hs.find_pending hl, Or.inr ⟨rfl, state, hc, rfl⟩⟩⟩
  moves := fun hidle now at' invocationId hnow hleft hfresh => by
    obtain ⟨decision, he, hstatus⟩ := evaluate_recorded hs hnow
    refine ⟨decision, he, ?_⟩
    rcases askedKind_or_final decision.status with hfinal | ⟨kind, hk⟩
    · exact Or.inl hfinal
    · rw [hstatus] at hk
      obtain ⟨actor, -, next, hnext, hlen⟩ :=
        reserve_asked hs hlimit hidle hnow hleft hk hfresh
      exact Or.inr ⟨next, ⟨.reserve _ _ _ _ _, hnext⟩, hlen⟩
  expired := fun now at' hnow hw => by
    obtain ⟨decision, he, hstatus⟩ := evaluate_recorded hs hnow
    refine ⟨decision, he, ?_⟩
    rw [hstatus]
    exact status_of_over hw
  bounded := by
    rw [← hs.accounted.invocations]
    exact hs.accounted.maxInvocations

/-! ## 5. The dead end -/

omit [Pydantic] in
/-- A limit beyond the doubles denies every reservation. -/
theorem not_reservable_of_overflow
    (hlimit : Binary64.intOverflow ≤ (seed.policy.maxElapsedSeconds : ℤ)) (state : ReviewState)
    (invocation : Invocation) : ¬ Reservable seed state invocation := by
  intro hr
  obtain ⟨left, hok, -⟩ := hr.seconds
  rw [secondsLeft_overflow hlimit] at hok
  cases hok

omit [Pydantic] in
/-- A fresh session asks for a review at once. -/
theorem status_fresh (seed : ReviewSeed) :
    decisionStatus ⟨seed, [], freshState seed⟩
      (decisionReasons ⟨seed, [], freshState seed⟩ (freshState seed).artifact seed.startedAt) =
        .needsReview := by
  have hidle : ¬ (freshState seed).pending ≠ none := not_not.mpr rfl
  have hmin : (freshState seed).validCompletedReports.length < seed.policy.minReviewPasses :=
    lt_of_lt_of_le (by decide : 0 < 2) seed.policy.minReviewPasses_ge
  have hwindow : withinWindow seed (freshState seed) seed.startedAt := by
    refine ⟨le_rfl, le_rfl, ?_⟩
    rw [totalSeconds_self]
    exact_mod_cast seed.policy.maxElapsedSeconds_pos
  have hblocker := not_openBlocker_fresh seed
  have hreasons : eligibilityReasons seed (freshState seed) =
      [ReviewReason.minReviews, .unreviewedArtifact] := by
    unfold eligibilityReasons
    rw [if_neg hidle, if_pos hmin, if_neg hblocker]
    rfl
  have hdecision : decisionReasons ⟨seed, [], freshState seed⟩ (freshState seed).artifact
      seed.startedAt = [ReviewReason.minReviews, .unreviewedArtifact] := by
    unfold decisionReasons
    rw [hreasons, if_neg (not_not.mpr rfl), if_pos hwindow]
    rfl
  have hrepair : ¬ needsRepair (freshState seed) := fun h => hblocker (openBlocker_of_needsRepair h)
  rw [hdecision]
  unfold decisionStatus
  rw [if_neg (List.cons_ne_nil _ _), if_neg (by decide), if_neg, if_neg fun h => hrepair h.1]
  rintro (hne | h)
  · exact hne rfl
  · exact absurd h (by decide)

/-- The fresh session of a limit beyond the doubles is a dead end. -/
theorem dead_of_overflow (hv : ValidSeed seed)
    (hlimit : Binary64.intOverflow ≤ (seed.policy.maxElapsedSeconds : ℤ)) :
    ¬ Alive ⟨seed, [], freshState seed⟩ := by
  intro h
  have hs : Recorded ⟨seed, [], freshState seed⟩ := .start hv
  obtain ⟨decision, he, hstatus⟩ := evaluate_recorded hs (utc_datetime seed.startedAt)
  have hasked : askedKind decision.status = some .review := by
    rw [hstatus]
    exact congrArg askedKind (status_fresh seed)
  have hleft : totalSeconds seed.startedAt seed.startedAt + 1 ≤ seed.policy.maxElapsedSeconds := by
    rw [totalSeconds_self, zero_add]
    exact_mod_cast seed.policy.maxElapsedSeconds_pos
  obtain ⟨actor, -, next, hnext⟩ := h.asked rfl _ _ decision .review seed.scope.workItemId
    (utc_datetime seed.startedAt) hleft he hasked List.not_mem_nil
  obtain ⟨-, _, _, -, hr, -⟩ := reserveInvocation_ok.mp hnext
  exact not_reservable_of_overflow hlimit _ _ (reserve_ok.mp hr).1

end Progress

/-- **No reachable dead end**, exactly when the policy's seconds convert to a double. -/
theorem alive_iff [Sha256] [Pydantic] {seed : ReviewSeed} (hv : ValidSeed seed) :
    (∀ session, sessions.Reachable session → session.seed = seed → Alive session) ↔
      (seed.policy.maxElapsedSeconds : ℤ) < Binary64.intOverflow := by
  constructor
  · intro h
    by_contra hlimit
    refine dead_of_overflow hv (not_lt.mp hlimit) (h _ ?_ rfl)
    exact reachable_of_ledger (.start hv)
  · intro hlimit session hr hseed
    refine alive_of_recorded (recorded_of_reachable hr) ?_
    rw [hseed]
    exact hlimit

open Fixture in
theorem alive_rejected : Alive ⟨seed, [rejecting], rejected⟩ := by
  have hlimit : (seed.policy.maxElapsedSeconds : ℤ) < Binary64.intOverflow := by
    decide +kernel
  exact (alive_iff validSeed).mpr hlimit _ (reachable_of_ledger ledger_rejected) rfl

namespace Fixture

/-- The seed of the tests under a policy of `2 ^ 1024` seconds. -/
def boundless : ReviewSeed :=
  { seed with
    policy := { policy with
      maxElapsedSeconds := 2 ^ 1024
      maxElapsedSeconds_pos := Nat.two_pow_pos 1024 } }

end Fixture

open Fixture in
/-- The fresh session asks for a review, which no reservation can give it. -/
theorem boundless_dead_end :
    let session : ReviewSession := ⟨boundless, [], freshState boundless⟩
    sessions.Reachable session ∧ ¬ Alive session ∧
      (∃ decision, evaluate session session.state.artifact (clock 0).datetime = .ok decision ∧
        decision.status = .needsReview) ∧
      reserveInvocation session (callId 0) .review reviewer minimalHold (clock 0).datetime =
        .error (.overflow "int too large to convert to float") := by
  have hv : ValidSeed boundless := by
    have h : validateSeed boundless = .ok () := by decide +kernel
    exact validateSeed_ok.mp h
  have hs : Recorded ⟨boundless, [], freshState boundless⟩ := .start hv
  have hlimit : Binary64.intOverflow ≤ (boundless.policy.maxElapsedSeconds : ℤ) := by
    decide +kernel
  refine ⟨reachable_of_ledger hs, dead_of_overflow hv hlimit, ?_, ?_⟩
  · obtain ⟨decision, he, hstatus⟩ := evaluate_recorded hs (utc_datetime (clock 0))
    exact ⟨decision, he, hstatus.trans (status_fresh boundless)⟩
  · decide +kernel

end NokincFactory
