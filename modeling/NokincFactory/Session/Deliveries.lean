/-
  File:      NokincFactory/Session/Deliveries.lean
  Subject:   A delivery that arrives again, at any later place of a run.

  * `Delivers`: a call that delivers what an attempt was completed with;
  * `attempts_kept`: a completed attempt stays as it is;
  * `DeliveredOnce`: what a session answers to deliveries, the ones it has seen and others.
-/
import NokincFactory.Session.Replay

namespace NokincFactory

section Deliveries

variable [Sha256] [Pydantic]

/-- A call delivers what a completion has recorded. -/
structure Delivers (done : Completion) (receipt : Option InvocationReceipt)
    (output : Option Output) (failureReason : Option ExecutionStop) : Prop where
  receipt : done.receipt = receipt
  output : done.outputJson = output.map Output.json
  failureReason : done.failureReason = failureReason

/-! ## 1. Attempts that stay -/

/-- A call leaves a completed attempt as it is. -/
theorem Advance.keeps {session session' : ReviewSession} (h : Advance session session')
    {a : ReviewAttempt} (ha : a ∈ session.attempts) (hc : a.completion ≠ none) :
    a ∈ session'.attempts := by
  cases h with
  | redelivered => exact ha
  | reserve invocation h => exact List.mem_append_left _ ha
  | complete earlier invocation completion state hl hstate =>
      rw [hl] at ha
      rcases List.mem_append.mp ha with ha | ha
      · exact List.mem_append_left _ ha
      · rw [List.mem_singleton.mp ha] at hc
        exact absurd rfl hc

/-- So does every run. -/
theorem attempts_kept {session later : ReviewSession} (h : sessions.Reachable session)
    (hs : sessions.Steps session later) {a : ReviewAttempt} (ha : a ∈ session.attempts)
    (hc : a.completion ≠ none) : a ∈ later.attempts := by
  have hstep : ∀ s s', sessions.Reachable s → a ∈ s.attempts → sessions.step s s' →
      a ∈ s'.attempts := fun s s' _ hmem hs => (advance_of_step hs).keeps hmem hc
  exact hs.stable hstep h ha

/-- The attempt of an invocation is the one that is found by its id. -/
theorem Recorded.find_attempt {session : ReviewSession} (hs : Recorded session) {a : ReviewAttempt}
    (ha : a ∈ session.attempts) :
    session.attempts.find? (fun b => b.invocation.invocationId = a.invocation.invocationId) =
      some a := by
  obtain ⟨hids, hn⟩ := hs.numbered
  rw [hids] at hn
  cases hfind : session.attempts.find?
      (fun b => b.invocation.invocationId = a.invocation.invocationId) with
  | none =>
      have hnot := List.find?_eq_none.mp hfind a ha
      simp at hnot
  | some b =>
      have hmem := List.mem_of_find?_eq_some hfind
      have hid : b.invocation.invocationId = a.invocation.invocationId := by
        simpa using List.find?_some hfind
      rw [List.inj_on_of_nodup_map hn hmem ha hid]

/-! ## 2. Deliveries -/

/-- A delivery for a completed attempt returns only if it is the one that was recorded, and leaves
the session as it is. -/
theorem delivers_of_ok {session session' : ReviewSession} (hs : Recorded session)
    {a : ReviewAttempt} {done : Completion} (ha : a ∈ session.attempts)
    (hdone : a.completion = some done) {receipt : Option InvocationReceipt}
    {output : Option Output} {failureReason : Option ExecutionStop} {now : Datetime}
    (h : completeInvocation session a.invocation.invocationId receipt output now failureReason =
      .ok session') : Delivers done receipt output failureReason ∧ session' = session := by
  obtain ⟨-, _, previous, -, hfind, h⟩ := completeInvocation_ok.mp h
  rw [hs.find_attempt ha] at hfind
  cases hfind
  rcases h with ⟨done', hdone', hreceipt, houtput, hreason, hsame⟩ | ⟨hnone, -⟩
  · rw [hdone] at hdone'
    cases hdone'
    exact ⟨⟨hreceipt, houtput, hreason⟩, hsame⟩
  · rw [hdone] at hnone
    cases hnone

/-- The delivery that was recorded leaves the session as it is. -/
theorem completeInvocation_again {session : ReviewSession} (hs : Recorded session)
    {a : ReviewAttempt} {done : Completion} (ha : a ∈ session.attempts)
    (hdone : a.completion = some done) {receipt : Option InvocationReceipt}
    {output : Option Output} {failureReason : Option ExecutionStop}
    (h : Delivers done receipt output failureReason) {now : Datetime} {at' : Moment}
    (hnow : utc now = .ok at') :
    completeInvocation session a.invocation.invocationId receipt output now failureReason =
      .ok session :=
  completeInvocation_ok.mpr ⟨validateSession_iff.mpr ⟨hs, rfl⟩, at', a, hnow, hs.find_attempt ha,
    .inl ⟨done, hdone, h.receipt, h.output, h.failureReason, rfl⟩⟩

/-- A call that returns has recorded what it delivered. -/
theorem recorded_verbatim {session session' : ReviewSession} (hs : Recorded session)
    {invocationId : Identifier} {receipt : Option InvocationReceipt} {output : Option Output}
    {now : Datetime} {failureReason : Option ExecutionStop}
    (h : completeInvocation session invocationId receipt output now failureReason = .ok session') :
    ∃ a ∈ session'.attempts, a.invocation.invocationId = invocationId ∧
      ∃ done, a.completion = some done ∧ Delivers done receipt output failureReason := by
  obtain ⟨-, finishedAt, previous, -, hfind, h⟩ := completeInvocation_ok.mp h
  have hid : previous.invocation.invocationId = invocationId := by
    simpa using List.find?_some hfind
  rcases h with ⟨done, hdone, hreceipt, houtput, hreason, rfl⟩ | ⟨-, state, -, rfl⟩
  · exact ⟨previous, List.mem_of_find?_eq_some hfind, hid, done, hdone, hreceipt, houtput, hreason⟩
  · exact ⟨_, List.mem_append_right _ (List.mem_singleton_self _), hid, _, rfl, rfl, rfl, rfl⟩

/-- What a later session answers to deliveries for the attempts that a session has completed. -/
structure DeliveredOnce (session later : ReviewSession) : Prop where
  unchanged : ∀ a ∈ session.attempts, ∀ done, a.completion = some done →
    ∀ receipt output failureReason, Delivers done receipt output failureReason →
    ∀ now at', utc now = .ok at' →
      completeInvocation later a.invocation.invocationId receipt output now failureReason =
        .ok later
  conflict : ∀ a ∈ session.attempts, ∀ done, a.completion = some done →
    ∀ receipt output failureReason, ¬ Delivers done receipt output failureReason → ∀ now,
      ∃ error, completeInvocation later a.invocation.invocationId receipt output now
        failureReason = .error error
  unknown : ∀ invocationId, invocationId ∉ later.attempts.map (·.invocation.invocationId) →
    ∀ receipt output now failureReason, ∃ error,
      completeInvocation later invocationId receipt output now failureReason = .error error
  unique : (later.attempts.map (·.invocation.invocationId)).Nodup
  verbatim : ∀ invocationId receipt output now failureReason session',
    completeInvocation later invocationId receipt output now failureReason = .ok session' →
    ∃ a ∈ session'.attempts, a.invocation.invocationId = invocationId ∧
      ∃ done, a.completion = some done ∧ Delivers done receipt output failureReason

end Deliveries

/-- A delivery that arrives again. At every later place of a run, and at every time that
`utc` accepts, a session answers what it has recorded for an invocation by itself, unchanged; it
raises where anything else is delivered for it, and for an invocation that it does not know; no
two of its attempts share an invocation; and what a call delivers is recorded word for word. -/
theorem delivered_once [Sha256] [Pydantic] {session later : ReviewSession}
    (h : sessions.Reachable session) (hs : sessions.Steps session later) :
    DeliveredOnce session later := by
  have hrecorded := recorded_of_reachable (h.steps hs)
  have hkept : ∀ a ∈ session.attempts, ∀ done, a.completion = some done → a ∈ later.attempts :=
    fun a ha done hdone => attempts_kept h hs ha (by rw [hdone]; exact Option.some_ne_none _)
  refine ⟨?_, ?_, ?_, ?_, fun invocationId receipt output now failureReason session' hcall =>
    recorded_verbatim hrecorded hcall⟩
  · intro a ha done hdone receipt output failureReason hsame now at' hnow
    exact completeInvocation_again hrecorded (hkept a ha done hdone) hdone hsame hnow
  · intro a ha done hdone receipt output failureReason hother now
    refine Except.error_of_not_ok fun session' hcall => ?_
    exact hother (delivers_of_ok hrecorded (hkept a ha done hdone) hdone hcall).1
  · intro invocationId hunknown receipt output now failureReason
    refine Except.error_of_not_ok fun session' hcall => ?_
    obtain ⟨-, finishedAt, previous, -, hfind, -⟩ := completeInvocation_ok.mp hcall
    refine hunknown (List.mem_map.mpr ⟨previous, List.mem_of_find?_eq_some hfind, ?_⟩)
    simpa using List.find?_some hfind
  · obtain ⟨hids, hn⟩ := hrecorded.numbered
    rw [← hids]
    exact hn

namespace Fixture

/-- A repair goes on from the rejection. -/
theorem steps_repaired :
    sessions.Steps ⟨seed, [rejecting], rejected⟩ ⟨seed, [rejecting, repairing], repaired⟩ := by
  have hrepaired : Ledger seed ([rejecting] ++ [repairing]) repaired := ledger_repaired
  obtain ⟨held, hheld, -⟩ := hrepaired.uncomplete
  exact .tail (.single (step_of_reserved ledger_rejected hheld))
    (step_of_completed hheld hrepaired)

/-- Midnight of the first day, in a zone that is ahead of UTC: an aware time before the first
one in UTC. -/
def dawn : Datetime := ⟨earliest, some (14 * 3600 * micro)⟩

end Fixture

open Fixture in
theorem delivered_once_repaired :
    DeliveredOnce ⟨seed, [rejecting], rejected⟩ ⟨seed, [rejecting, repairing], repaired⟩ :=
  delivered_once (reachable_of_ledger ledger_rejected) steps_repaired

open Fixture in
theorem delivered_at_dawn : sessions.Reachable ⟨seed, [rejecting], rejected⟩ ∧
    dawn.offset ≠ none ∧ ∃ done, rejecting.completion = some done ∧
      Delivers done done.receipt (some (.str "rejection")) done.failureReason ∧
      completeInvocation ⟨seed, [rejecting], rejected⟩ rejecting.invocation.invocationId
          done.receipt (some (.str "rejection")) dawn done.failureReason =
        .error (.value (.message "Timestamp is outside the supported UTC range")) := by
  refine ⟨reachable_of_ledger ledger_rejected, Option.some_ne_none _, _, rfl, ⟨rfl, rfl, rfl⟩, ?_⟩
  have hvalid : validateSession ⟨seed, [rejecting], rejected⟩ =
      .ok ⟨seed, [rejecting], rejected⟩ :=
    validateSession_iff.mpr ⟨ledger_rejected, rfl⟩
  have hdawn : utc dawn = .error (.message "Timestamp is outside the supported UTC range") := by
    decide
  unfold completeInvocation
  rw [hvalid, Except.ok_bind, hdawn]
  rfl

end NokincFactory
