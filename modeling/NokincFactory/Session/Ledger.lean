/-
  File:      NokincFactory/Session/Ledger.lean
  Subject:   The sessions that the public operations can reach, and their attempt ledgers.

  Three descriptions of one set of sessions, and why they agree:

  * `sessions`: the system of `start_session`, `reserve_invocation` and
    `complete_invocation`, one successful call after another;
  * `Ledger`: the ledgers that grow attempt by attempt, each with the state it reaches.
    `Ledger.rule` is the induction every invariant of a session is proved by;
  * `validateSession`: the sessions whose ledger replays to their recorded state.

  `replay_iff` joins the last two, `recorded_of_reachable` and `reachable_of_ledger` the
  first two. `Advance` lists what one call can make of a reachable session.
-/
import NokincFactory.Lib.Runs
import NokincFactory.Policy.ReviewPersistence

namespace NokincFactory

variable [Sha256] [Pydantic]

/-! ## 1. The system of operations -/

/-- A call that moves a session on, with its arguments. -/
inductive Operation where
  | reserve (invocationId : Identifier) (kind : InvocationKind) (actor : ModelIdentity)
      (reservation : Reservation) (now : Datetime)
  | complete (invocationId : Identifier) (receipt : Option InvocationReceipt)
      (output : Option Output) (now : Datetime) (failureReason : Option ExecutionStop)

/-- What a call makes of a session. -/
def Operation.apply (session : ReviewSession) : Operation → Except PyError ReviewSession
  | .reserve invocationId kind actor reservation now =>
      reserveInvocation session invocationId kind actor reservation now
  | .complete invocationId receipt output now failureReason =>
      completeInvocation session invocationId receipt output now failureReason

/-- Sessions start by `start_session` and move on by the calls that return. -/
def sessions : System ReviewSession where
  start session := ∃ scope contract policy doer reviewers artifact now,
    startSession scope contract policy doer reviewers artifact now = .ok session
  step session session' := ∃ op : Operation, op.apply session = .ok session'

/-! ## 2. Ledgers -/

/-- The attempt ledgers of a seed, with the state each of them reaches. -/
inductive Ledger (seed : ReviewSeed) : List ReviewAttempt → ReviewState → Prop where
  | start (h : ValidSeed seed) : Ledger seed [] (freshState seed)
  | reserve (attempts : List ReviewAttempt) (state : ReviewState) (invocation : Invocation)
      (hl : Ledger seed attempts state) (hr : Reservable seed state invocation) :
      Ledger seed (attempts ++ [⟨invocation, none⟩]) (reserved state invocation)
  | complete (attempts : List ReviewAttempt) (state state' : ReviewState)
      (invocation : Invocation) (completion : Completion)
      (hl : Ledger seed (attempts ++ [⟨invocation, none⟩]) state)
      (hc : complete seed state completion = .ok state') :
      Ledger seed (attempts ++ [⟨invocation, some completion⟩]) state'

omit [Sha256] [Pydantic] in
theorem append_singleton_inj {α : Type} {l l' : List α} {a a' : α}
    (h : l ++ [a] = l' ++ [a']) : l = l' ∧ a = a' := by
  obtain ⟨hl, ha⟩ := List.append_inj' h rfl
  exact ⟨hl, List.singleton_inj.mp ha⟩

variable {seed : ReviewSeed}

theorem Ledger.validSeed {attempts : List ReviewAttempt} {state : ReviewState}
    (h : Ledger seed attempts state) : ValidSeed seed := by
  induction h with
  | start h => exact h
  | reserve _ _ _ _ _ ih => exact ih
  | complete _ _ _ _ _ _ _ ih => exact ih

/-- A ledger with an uncompleted last attempt comes from a reservation. -/
theorem Ledger.unreserve {attempts : List ReviewAttempt} {invocation : Invocation}
    {state : ReviewState} (h : Ledger seed (attempts ++ [⟨invocation, none⟩]) state) :
    ∃ before, Ledger seed attempts before ∧ Reservable seed before invocation ∧
      state = reserved before invocation := by
  generalize hl : attempts ++ [⟨invocation, none⟩] = ledger at h
  cases h with
  | start => exact absurd hl (by simp)
  | reserve attempts' before invocation' hb hr =>
      obtain ⟨rfl, ha⟩ := append_singleton_inj hl
      obtain ⟨rfl, -⟩ := ReviewAttempt.mk.inj ha
      exact ⟨before, hb, hr, rfl⟩
  | complete attempts' _ _ invocation' completion _ _ =>
      obtain ⟨-, ha⟩ := append_singleton_inj hl
      cases (ReviewAttempt.mk.inj ha).2

/-- A ledger with a completed last attempt comes from its completion. -/
theorem Ledger.uncomplete {attempts : List ReviewAttempt} {invocation : Invocation}
    {completion : Completion} {state' : ReviewState}
    (h : Ledger seed (attempts ++ [⟨invocation, some completion⟩]) state') :
    ∃ state, Ledger seed (attempts ++ [⟨invocation, none⟩]) state ∧
      NokincFactory.complete seed state completion = .ok state' := by
  generalize hl : attempts ++ [⟨invocation, some completion⟩] = ledger at h
  cases h with
  | start => exact absurd hl (by simp)
  | reserve attempts' before invocation' hb hr =>
      obtain ⟨-, ha⟩ := append_singleton_inj hl
      cases (ReviewAttempt.mk.inj ha).2
  | complete attempts' state _ invocation' completion' hb hc =>
      obtain ⟨rfl, ha⟩ := append_singleton_inj hl
      obtain ⟨rfl, hsome⟩ := ReviewAttempt.mk.inj ha
      obtain rfl := Option.some.inj hsome
      exact ⟨state, hb, hc⟩

/-- An uncompleted last attempt is the pending one. -/
theorem Ledger.pending_last {attempts : List ReviewAttempt} {invocation : Invocation}
    {state : ReviewState} (h : Ledger seed (attempts ++ [⟨invocation, none⟩]) state) :
    state.pending = some invocation := by
  obtain ⟨before, -, -, rfl⟩ := h.unreserve
  rfl

/-- The induction over a ledger, with the completion taken apart: it settles the pending
    invocation, with one of the outcomes a completion can have. -/
theorem Ledger.rule {motive : List ReviewAttempt → ReviewState → Prop}
    (start : ValidSeed seed → motive [] (freshState seed))
    (reserve : ∀ attempts state invocation, Ledger seed attempts state →
      Reservable seed state invocation → motive attempts state →
      motive (attempts ++ [⟨invocation, none⟩]) (reserved state invocation))
    (settle : ∀ attempts state invocation completion settled,
      Ledger seed (attempts ++ [⟨invocation, none⟩]) state →
      Ledger seed (attempts ++ [⟨invocation, some completion⟩]) (capacity seed settled) →
      state.pending = some invocation → completion.invocationId = invocation.invocationId →
      Outcome seed state invocation completion settled →
      motive (attempts ++ [⟨invocation, none⟩]) state →
      motive (attempts ++ [⟨invocation, some completion⟩]) (capacity seed settled))
    {attempts : List ReviewAttempt} {state : ReviewState} (h : Ledger seed attempts state) :
    motive attempts state := by
  induction h with
  | start h => exact start h
  | reserve attempts state invocation hl hr ih => exact reserve _ _ _ hl hr ih
  | complete attempts state state' invocation completion hl hc ih =>
      obtain ⟨pending, settled, hp, hid, ho, rfl⟩ := complete_ok hc
      obtain rfl := Option.some.inj (hl.pending_last.symm.trans hp)
      exact settle _ _ _ _ _ hl (.complete _ _ _ _ _ hl hc) hp hid ho ih

omit [Sha256] [Pydantic] in
/-- All attempts but the last are completed, and the last one is pending if it is not. -/
def Settled (attempts : List ReviewAttempt) (state : ReviewState) : Prop :=
  (state.pending = none ∧ ∀ a ∈ attempts, a.completion ≠ none) ∨
    ∃ earlier invocation, attempts = earlier ++ [⟨invocation, none⟩] ∧
      state.pending = some invocation ∧ ∀ a ∈ earlier, a.completion ≠ none

theorem Ledger.settled {attempts : List ReviewAttempt} {state : ReviewState}
    (h : Ledger seed attempts state) : Settled attempts state := by
  refine Ledger.rule (motive := Settled) ?_ ?_ ?_ h
  · intro _
    exact Or.inl ⟨rfl, fun a ha => (List.not_mem_nil ha).elim⟩
  · intro attempts state invocation _ hr ih
    rcases ih with ⟨-, hall⟩ | ⟨earlier, pending, -, hp, -⟩
    · exact Or.inr ⟨attempts, invocation, rfl, rfl, hall⟩
    · exact absurd hp (by rw [hr.idle]; exact fun e => by cases e)
  · intro attempts state invocation completion settled _ _ hp _ ho ih
    rcases ih with ⟨hn, -⟩ | ⟨earlier, pending, hl, -, hall⟩
    · exact absurd hp (by rw [hn]; exact fun e => by cases e)
    · obtain ⟨rfl, -⟩ := append_singleton_inj hl
      refine Or.inl ⟨ho.books.pending, fun a ha => ?_⟩
      rcases List.mem_append.mp ha with ha | ha
      · exact hall a ha
      · obtain rfl := List.mem_singleton.mp ha
        exact fun e => by cases e

/-- Nothing is pending in a session that has been stopped. -/
theorem Ledger.running {attempts : List ReviewAttempt} {state : ReviewState}
    (h : Ledger seed attempts state) (hp : state.pending ≠ none) : state.terminalReasons = [] := by
  revert hp
  refine Ledger.rule (motive := fun _ state =>
    state.pending ≠ none → state.terminalReasons = []) ?_ ?_ ?_ h
  · intro _ _
    rfl
  · intro attempts state invocation _ hr _ _
    exact hr.running
  · intro attempts state invocation completion settled _ _ _ _ ho _ hp
    exact absurd ho.books.pending hp

omit [Sha256] [Pydantic] in
/-- The invocation ids of a state are those of its ledger, and no two attempts share one. -/
def Numbered (attempts : List ReviewAttempt) (state : ReviewState) : Prop :=
  state.invocationIds = attempts.map (·.invocation.invocationId) ∧ state.invocationIds.Nodup

theorem Ledger.numbered {attempts : List ReviewAttempt} {state : ReviewState}
    (h : Ledger seed attempts state) : Numbered attempts state := by
  refine Ledger.rule (motive := Numbered) ?_ ?_ ?_ h
  · intro _
    exact ⟨rfl, List.nodup_nil⟩
  · intro attempts state invocation _ hr ih
    obtain ⟨hids, hn⟩ := ih
    refine ⟨?_, List.nodup_append.mpr ⟨hn, List.nodup_singleton _, ?_⟩⟩
    · show state.invocationIds ++ [invocation.invocationId] = _
      rw [hids, List.map_append]
      rfl
    · intro a ha b hb
      obtain rfl := List.mem_singleton.mp hb
      exact fun e => hr.fresh (e ▸ ha)
  · intro attempts state invocation completion settled _ _ _ _ ho ih
    obtain ⟨hids, hn⟩ := ih
    have heq : (capacity seed settled).invocationIds = state.invocationIds :=
      ho.books.invocationIds
    refine ⟨?_, heq ▸ hn⟩
    rw [heq, hids, List.map_append, List.map_append]
    rfl

/-- Every finding of a session stands under its own fingerprint, once. -/
theorem Ledger.keyed {attempts : List ReviewAttempt} {state : ReviewState}
    (h : Ledger seed attempts state) : Keyed state.findings := by
  refine Ledger.rule (motive := fun _ state => Keyed state.findings) ?_ ?_ ?_ h
  · intro _
    exact List.nodup_nil
  · intro attempts state invocation _ _ ih
    exact ih
  · intro attempts state invocation completion settled _ _ _ _ ho ih
    rw [capacity_findings]
    cases ho with
    | stopped stop h => exact ih
    | faulted reason hn h => exact ih
    | refused exc h hunbound hmissing hrepair => exact ih
    | uncredited text report exc h hk ho hb hc =>
        rw [failure_findings]
        exact retainStops_keyed (boundReport_ok.mp hb).2.findings ih
    | credited text report updated h hk ho hb hc =>
        have hbound := (boundReport_ok.mp hb).2
        exact (reconcileFindings_ok hbound.findings hbound.rechecks hc.reconciled).keyed
    | repaired text repair resolutions updated h hk ho hp hr =>
        rw [hr.state]
        exact ih

/-- Repairs keep the producers of the artifact. -/
theorem Ledger.producers {attempts : List ReviewAttempt} {state : ReviewState}
    (h : Ledger seed attempts state) :
    state.artifact.producers = seed.initialArtifact.producers := by
  refine Ledger.rule (motive := fun _ state =>
    state.artifact.producers = seed.initialArtifact.producers) ?_ ?_ ?_ h
  · intro _
    rfl
  · intro attempts state invocation _ _ ih
    exact ih
  · intro attempts state invocation completion settled hl _ _ _ ho ih
    rw [capacity_artifact]
    cases ho with
    | stopped stop h => exact ih
    | faulted reason hn h => exact ih
    | refused exc h hunbound hmissing hrepair => exact ih
    | uncredited text report exc h hk ho hb hc =>
        rw [failure_artifact, retainStops_frame]
        exact ih
    | credited text report updated h hk ho hb hc =>
        rw [hc.state]
        exact ih
    | repaired text repair resolutions updated h hk ho hp hr =>
        have hresolved := reconcileRepair_ok hl.keyed hr.reconciled
        rw [hr.state]
        exact hresolved.producers.trans ih

/-- `a` is a completed attempt of the ledger, after `earlier`, and `state` is what its
    completion found. -/
structure CompletedIn (seed : ReviewSeed) (attempts earlier : List ReviewAttempt)
    (a : ReviewAttempt) (state : ReviewState) : Prop where
  within : earlier ++ [a] <+: attempts
  completed : a.completion ≠ none
  ledger : Ledger seed (earlier ++ [⟨a.invocation, none⟩]) state

theorem CompletedIn.append {attempts earlier : List ReviewAttempt} {a : ReviewAttempt}
    {state : ReviewState} (h : CompletedIn seed attempts earlier a state)
    (rest : List ReviewAttempt) : CompletedIn seed (attempts ++ rest) earlier a state :=
  ⟨h.within.trans (List.prefix_append _ _), h.completed, h.ledger⟩

/-- A completed attempt stands before the pending one. -/
theorem CompletedIn.before {attempts earlier : List ReviewAttempt} {a : ReviewAttempt}
    {invocation : Invocation} {state : ReviewState}
    (h : CompletedIn seed (attempts ++ [⟨invocation, none⟩]) earlier a state) :
    CompletedIn seed attempts earlier a state := by
  refine ⟨?_, h.completed, h.ledger⟩
  rcases List.prefix_concat_iff.mp h.within with heq | hpre
  · obtain ⟨-, rfl⟩ := append_singleton_inj heq
    exact absurd rfl h.completed
  · exact hpre

/-- What completed the pending attempt is completed in the ledger it leaves. -/
theorem completedIn_last {attempts : List ReviewAttempt} {invocation : Invocation}
    {completion : Completion} {state : ReviewState}
    (hl : Ledger seed (attempts ++ [⟨invocation, none⟩]) state) :
    CompletedIn seed (attempts ++ [⟨invocation, some completion⟩]) attempts
      ⟨invocation, some completion⟩ state :=
  ⟨List.prefix_rfl, Option.some_ne_none _, hl⟩

/-! ## 3. Replaying a ledger -/

theorem replayAttempt_ok {state state' : ReviewState} {attempt : ReviewAttempt} :
    replayAttempt seed state attempt = .ok state' ↔
      ∃ held, reserve seed state attempt.invocation = .ok held ∧
        ((attempt.completion = none ∧ held = state') ∨
          ∃ completion, attempt.completion = some completion ∧
            complete seed held completion = .ok state') := by
  unfold replayAttempt
  rw [Except.bind_ok]
  refine exists_congr fun held => and_congr_right fun _ => ?_
  cases attempt.completion with
  | none => simp [Except.pure_ok]
  | some completion => simp

/-- Replaying further attempts grows the ledger by them. -/
theorem Ledger.append {state' : ReviewState} :
    ∀ (rest : List ReviewAttempt) {attempts : List ReviewAttempt} {state : ReviewState},
      Ledger seed attempts state → rest.foldlM (replayAttempt seed) state = .ok state' →
        Ledger seed (attempts ++ rest) state'
  | [], attempts, state, hl, h => by
      obtain rfl := Except.pure_ok.mp h
      rw [List.append_nil]
      exact hl
  | attempt :: rest, attempts, state, hl, h => by
      rw [List.foldlM_cons, Except.bind_ok] at h
      obtain ⟨next, hn, h⟩ := h
      obtain ⟨held, hr, hc⟩ := replayAttempt_ok.mp hn
      obtain ⟨hreservable, rfl⟩ := reserve_ok.mp hr
      have hheld := Ledger.reserve _ _ _ hl hreservable
      have hnext : Ledger seed (attempts ++ [attempt]) next := by
        obtain ⟨invocation, completion⟩ := attempt
        rcases hc with ⟨rfl, rfl⟩ | ⟨completion, rfl, hc⟩
        · exact hheld
        · exact .complete _ _ _ _ _ hheld hc
      have hrest := Ledger.append rest hnext h
      rwa [List.append_assoc] at hrest

theorem replay_ok {attempts : List ReviewAttempt} {state : ReviewState} :
    replay seed attempts = .ok state ↔
      ValidSeed seed ∧ attempts.foldlM (replayAttempt seed) (freshState seed) = .ok state := by
  unfold replay
  rw [Except.bind_ok]
  constructor
  · rintro ⟨initial, hi, h⟩
    obtain ⟨hv, rfl⟩ := initialState_ok.mp (raising_ok.mp hi)
    exact ⟨hv, h⟩
  · rintro ⟨hv, h⟩
    exact ⟨_, raising_ok.mpr (initialState_ok.mpr ⟨hv, rfl⟩), h⟩

/-- **A ledger replays to the state it reaches, and to no other.** -/
theorem replay_iff {attempts : List ReviewAttempt} {state : ReviewState} :
    replay seed attempts = .ok state ↔ Ledger seed attempts state := by
  constructor
  · intro h
    obtain ⟨hv, h⟩ := replay_ok.mp h
    exact Ledger.append attempts (.start hv) h
  · intro h
    induction h with
    | start hv => exact replay_ok.mpr ⟨hv, rfl⟩
    | reserve attempts state invocation hl hr ih =>
        obtain ⟨hv, ih⟩ := replay_ok.mp ih
        refine replay_ok.mpr ⟨hv, ?_⟩
        rw [List.foldlM_append, ih]
        refine Except.bind_ok.mpr ⟨state, rfl, ?_⟩
        rw [List.foldlM_cons]
        exact Except.bind_ok.mpr ⟨_, replayAttempt_ok.mpr
          ⟨_, reserve_ok.mpr ⟨hr, rfl⟩, Or.inl ⟨rfl, rfl⟩⟩, rfl⟩
    | complete attempts state state' invocation completion hl hc ih =>
        obtain ⟨hv, ih⟩ := replay_ok.mp ih
        refine replay_ok.mpr ⟨hv, ?_⟩
        rw [List.foldlM_append, Except.bind_ok] at ih ⊢
        obtain ⟨before, hb, ih⟩ := ih
        rw [List.foldlM_cons, Except.bind_ok] at ih
        obtain ⟨next, hn, hp⟩ := ih
        obtain rfl := Except.pure_ok.mp hp
        obtain ⟨held, hr, hc'⟩ := replayAttempt_ok.mp hn
        refine ⟨before, hb, ?_⟩
        rw [List.foldlM_cons]
        rcases hc' with ⟨-, rfl⟩ | ⟨_, hsome, -⟩
        · exact Except.bind_ok.mpr ⟨_, replayAttempt_ok.mpr
            ⟨_, hr, Or.inr ⟨completion, rfl, hc⟩⟩, rfl⟩
        · cases hsome

theorem Ledger.deterministic {attempts : List ReviewAttempt} {state state' : ReviewState}
    (h : Ledger seed attempts state) (h' : Ledger seed attempts state') : state = state' :=
  Except.ok.inj ((replay_iff.mpr h).symm.trans (replay_iff.mpr h'))

/-- The session's recorded state is the one its ledger reaches. -/
def Recorded (session : ReviewSession) : Prop :=
  Ledger session.seed session.attempts session.state

theorem validateSession_iff {session session' : ReviewSession} :
    validateSession session = .ok session' ↔ Recorded session ∧ session = session' := by
  rw [validateSession_ok, replay_iff]
  rfl

/-! ## 4. What one call makes of a recorded session -/

/-- The ways a call that returned can move a session on. -/
inductive Advance (session : ReviewSession) : ReviewSession → Prop where
  /-- a delivery repeated word for word -/
  | redelivered : Advance session session
  | reserve (invocation : Invocation) (h : Reservable session.seed session.state invocation) :
      Advance session ⟨session.seed, session.attempts ++ [⟨invocation, none⟩],
        reserved session.state invocation⟩
  | complete (earlier : List ReviewAttempt) (invocation : Invocation) (completion : Completion)
      (state : ReviewState) (hl : session.attempts = earlier ++ [⟨invocation, none⟩])
      (hc : complete session.seed session.state completion = .ok state) :
      Advance session ⟨session.seed, earlier ++ [⟨invocation, some completion⟩], state⟩

theorem Advance.seed_eq {session session' : ReviewSession} (h : Advance session session') :
    session'.seed = session.seed := by
  cases h with
  | redelivered => rfl
  | reserve invocation h => rfl
  | complete earlier invocation completion state hl hc => rfl

theorem Advance.recorded {session session' : ReviewSession} (hs : Recorded session)
    (h : Advance session session') : Recorded session' := by
  cases h with
  | redelivered => exact hs
  | reserve invocation h => exact .reserve _ _ _ hs h
  | complete earlier invocation completion state hl hc =>
      refine .complete _ _ _ _ _ ?_ hc
      rw [← hl]
      exact hs

/-- The attempt found under an id without a completion is the last one. -/
theorem Recorded.pending_of_find {session : ReviewSession} (hs : Recorded session)
    {invocationId : Identifier} {previous : ReviewAttempt}
    (hf : session.attempts.find? (fun a => a.invocation.invocationId = invocationId) =
      some previous) (hc : previous.completion = none) :
    ∃ earlier, session.attempts = earlier ++ [⟨previous.invocation, none⟩] := by
  have hm := List.mem_of_find?_eq_some hf
  rcases hs.settled with ⟨-, hall⟩ | ⟨earlier, invocation, hl, -, hall⟩
  · exact absurd hc (hall _ hm)
  · rw [hl] at hm
    rcases List.mem_append.mp hm with hm | hm
    · exact absurd hc (hall _ hm)
    · obtain rfl := List.mem_singleton.mp hm
      exact ⟨earlier, hl⟩

/-- The id of the pending attempt finds the pending attempt. -/
theorem Recorded.find_pending {session : ReviewSession} (hs : Recorded session)
    {earlier : List ReviewAttempt} {invocation : Invocation}
    (hl : session.attempts = earlier ++ [⟨invocation, none⟩]) :
    session.attempts.find? (fun a => a.invocation.invocationId = invocation.invocationId) =
      some ⟨invocation, none⟩ := by
  obtain ⟨hids, hn⟩ := hs.numbered
  rw [hids, hl, List.map_append, List.nodup_append] at hn
  rw [hl, List.find?_append, List.find?_eq_none.mpr, Option.none_or]
  · simp
  · intro a ha he
    have hid : a.invocation.invocationId = invocation.invocationId := by simpa using he
    exact hn.2.2 _ (List.mem_map_of_mem ha) _ (List.mem_singleton_self _) hid

/-- The pending attempt of a recorded session is its last one. -/
theorem Recorded.last_of_pending {session : ReviewSession} (hs : Recorded session)
    {pending : Invocation} (hp : session.state.pending = some pending) :
    ∃ earlier, session.attempts = earlier ++ [⟨pending, none⟩] := by
  rcases hs.settled with ⟨hn, -⟩ | ⟨earlier, invocation, hl, hi, -⟩
  · rw [hn] at hp
    cases hp
  · obtain rfl := Option.some.inj (hi.symm.trans hp)
    exact ⟨earlier, hl⟩

theorem advance_of_reserve {session session' : ReviewSession} {invocationId : Identifier}
    {kind : InvocationKind} {actor : ModelIdentity} {reservation : Reservation} {now : Datetime}
    (h : reserveInvocation session invocationId kind actor reservation now = .ok session') :
    Advance session session' := by
  obtain ⟨-, startedAt, state, -, hr, rfl⟩ := reserveInvocation_ok.mp h
  obtain ⟨hreservable, rfl⟩ := reserve_ok.mp hr
  exact .reserve _ hreservable

theorem advance_of_complete {session session' : ReviewSession} {invocationId : Identifier}
    {receipt : Option InvocationReceipt} {output : Option Output} {now : Datetime}
    {failureReason : Option ExecutionStop}
    (h : completeInvocation session invocationId receipt output now failureReason =
      .ok session') : Advance session session' := by
  obtain ⟨hv, finishedAt, previous, -, hf, h⟩ := completeInvocation_ok.mp h
  rcases h with ⟨done, -, -, -, -, rfl⟩ | ⟨hn, state, hc, rfl⟩
  · exact .redelivered
  · obtain ⟨earlier, hl⟩ := (validateSession_iff.mp hv).1.pending_of_find hf hn
    rw [hl, List.dropLast_concat]
    exact .complete earlier _ _ _ hl hc

theorem advance_of_step {session session' : ReviewSession}
    (h : sessions.step session session') : Advance session session' := by
  obtain ⟨op, h⟩ := h
  cases op with
  | reserve invocationId kind actor reservation now => exact advance_of_reserve h
  | complete invocationId receipt output now failureReason => exact advance_of_complete h

/-! ## 5. Reachable sessions -/

theorem recorded_of_start {session : ReviewSession} (h : sessions.start session) :
    Recorded session := by
  obtain ⟨scope, contract, policy, doer, reviewers, artifact, now, h⟩ := h
  obtain ⟨hv, ha, hs⟩ := startSession_ok h
  unfold Recorded
  rw [ha, hs]
  exact .start hv

theorem recorded_of_reachable {session : ReviewSession} (h : sessions.Reachable session) :
    Recorded session :=
  h.invariant (fun _ hs => recorded_of_start hs)
    fun _ _ _ hs hstep => (advance_of_step hstep).recorded hs

/-- A reservation the reducer accepts is one `reserve_invocation` accepts. -/
theorem reserveInvocation_of_reservable {session : ReviewSession} (hs : Recorded session)
    {invocation : Invocation} (hr : Reservable session.seed session.state invocation) :
    reserveInvocation session invocation.invocationId invocation.kind invocation.actor
      invocation.reservation invocation.startedAt.datetime =
        .ok ⟨session.seed, session.attempts ++ [⟨invocation, none⟩],
          reserved session.state invocation⟩ := by
  have heq : requested session invocation.invocationId invocation.kind invocation.actor
      invocation.reservation invocation.startedAt = invocation := by
    unfold requested
    rw [← hr.binding]
  refine reserveInvocation_ok.mpr ⟨validateSession_iff.mpr ⟨hs, rfl⟩, invocation.startedAt,
    reserved session.state invocation, utc_datetime _, ?_, ?_⟩
  · rw [heq]
    exact reserve_ok.mpr ⟨hr, rfl⟩
  · rw [heq]

/-- A completion the reducer accepts is one `complete_invocation` accepts. -/
theorem completeInvocation_of_complete {session : ReviewSession} (hs : Recorded session)
    {earlier : List ReviewAttempt} {invocation : Invocation} {completion : Completion}
    {state : ReviewState} (hl : session.attempts = earlier ++ [⟨invocation, none⟩])
    (hc : complete session.seed session.state completion = .ok state) :
    completeInvocation session completion.invocationId completion.receipt
      (completion.outputJson.map Output.str) completion.finishedAt.datetime
      completion.failureReason =
        .ok ⟨session.seed, earlier ++ [⟨invocation, some completion⟩], state⟩ := by
  obtain ⟨pending, -, hp, hid, -, -⟩ := complete_ok hc
  have hledger : Ledger session.seed (earlier ++ [⟨invocation, none⟩]) session.state := by
    rw [← hl]
    exact hs
  have hpend := hledger.pending_last
  obtain rfl := Option.some.inj (hpend.symm.trans hp)
  have hdel : delivered completion.invocationId completion.receipt
      (completion.outputJson.map Output.str) completion.finishedAt completion.failureReason =
      completion := by
    unfold delivered
    rw [Option.map_map]
    show Completion.mk _ _ _ (Option.map id completion.outputJson) _ = completion
    rw [Option.map_id]
    rfl
  have hfind := hs.find_pending hl
  rw [← hid] at hfind
  refine completeInvocation_ok.mpr ⟨validateSession_iff.mpr ⟨hs, rfl⟩, completion.finishedAt,
    ⟨invocation, none⟩, utc_datetime _, hfind, Or.inr ⟨rfl, state, ?_, ?_⟩⟩
  · rw [hdel]
    exact hc
  · rw [hdel, hl, List.dropLast_concat]

omit [Pydantic] in
theorem startSession_of_valid (hv : ValidSeed seed) :
    startSession seed.scope seed.contract seed.policy seed.originalDoer seed.reviewers
      seed.initialArtifact seed.startedAt.datetime = .ok ⟨seed, [], freshState seed⟩ := by
  unfold startSession
  refine Except.bind_ok.mpr ⟨seed.startedAt, raising_ok.mpr (utc_datetime _), ?_⟩
  exact Except.bind_ok.mpr ⟨freshState seed, raising_ok.mpr (initialState_ok.mpr ⟨hv, rfl⟩), rfl⟩

theorem step_of_reserved {attempts : List ReviewAttempt} {invocation : Invocation}
    {before state : ReviewState} (hb : Ledger seed attempts before)
    (h : Ledger seed (attempts ++ [⟨invocation, none⟩]) state) :
    sessions.step ⟨seed, attempts, before⟩ ⟨seed, attempts ++ [⟨invocation, none⟩], state⟩ := by
  obtain ⟨before', hb', hr, rfl⟩ := h.unreserve
  obtain rfl := hb'.deterministic hb
  have hrec : Recorded ⟨seed, attempts, before'⟩ := hb
  exact ⟨.reserve _ _ _ _ _, reserveInvocation_of_reservable hrec hr⟩

theorem step_of_completed {attempts : List ReviewAttempt} {invocation : Invocation}
    {completion : Completion} {state state' : ReviewState}
    (hs : Ledger seed (attempts ++ [⟨invocation, none⟩]) state)
    (h : Ledger seed (attempts ++ [⟨invocation, some completion⟩]) state') :
    sessions.step ⟨seed, attempts ++ [⟨invocation, none⟩], state⟩
      ⟨seed, attempts ++ [⟨invocation, some completion⟩], state'⟩ := by
  obtain ⟨held, hl, hc⟩ := h.uncomplete
  obtain rfl := hl.deterministic hs
  have hrec : Recorded ⟨seed, attempts ++ [⟨invocation, none⟩], held⟩ := hs
  exact ⟨.complete _ _ _ _ _, completeInvocation_of_complete hrec rfl hc⟩

theorem reachable_of_ledger {attempts : List ReviewAttempt} {state : ReviewState}
    (h : Ledger seed attempts state) : sessions.Reachable ⟨seed, attempts, state⟩ := by
  induction h with
  | start hv => exact .start _ ⟨_, _, _, _, _, _, _, startSession_of_valid hv⟩
  | reserve attempts state invocation hl hr ih =>
      exact .step _ _ ih (step_of_reserved hl (.reserve _ _ _ hl hr))
  | complete attempts state state' invocation completion hl hc ih =>
      exact .step _ _ ih (step_of_completed hl (.complete _ _ _ _ _ hl hc))

/-- **A session is reachable iff it is the one its ledger replays to.** -/
theorem reachable_iff {session : ReviewSession} :
    sessions.Reachable session ↔ Recorded session :=
  ⟨recorded_of_reachable, fun h => reachable_of_ledger h⟩

end NokincFactory
