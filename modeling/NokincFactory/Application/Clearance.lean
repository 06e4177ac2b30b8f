/-
  File:      NokincFactory/Application/Clearance.lean
  Subject:   Under which conditions an orchestrator dispatches, and how often for one unit.

  `Dispatch.lean` shows that no invocation is handed over twice. Here:

  * `Continues`: what every later session of a unit keeps of an earlier one;
    `Stored.continues`: what is stored only goes on in this way;
  * `dispatchStop_none`: what stands behind a dispatch that nothing stopped;
  * `Prepared`: the steps of one orchestrator that led it where it stands;
  * `Handed`: the invariant, whatever was handed over is an attempt of its unit;
  * `dispatch_within_policy`.
-/
import NokincFactory.Application.Dispatch
import NokincFactory.Session.Budget
import NokincFactory.Session.Findings
import Mathlib.Data.List.Perm.Subperm

namespace NokincFactory

/-! ## 1. A session that goes on -/

/-- The same attempt later: its invocation stays, and so does a completion. -/
structure SameAttempt (earlier later : ReviewAttempt) : Prop where
  invocation : later.invocation = earlier.invocation
  completion : earlier.completion ≠ none → later.completion = earlier.completion

theorem SameAttempt.refl (a : ReviewAttempt) : SameAttempt a a :=
  ⟨rfl, fun _ => rfl⟩

theorem SameAttempt.trans {a b c : ReviewAttempt} (h : SameAttempt a b) (h' : SameAttempt b c) :
    SameAttempt a c := by
  refine ⟨h'.invocation.trans h.invocation, fun hne => ?_⟩
  have hsame := h.completion hne
  rw [← hsame] at hne
  exact (h'.completion hne).trans hsame

/-- What a later session keeps of an earlier one: the seed, every attempt in its place, and the
reports that were credited. -/
structure Continues (earlier later : ReviewSession) : Prop where
  seed : later.seed = earlier.seed
  attempts : ∀ (k : ℕ) (a : ReviewAttempt), earlier.attempts[k]? = some a →
    ∃ a', later.attempts[k]? = some a' ∧ SameAttempt a a'
  reports : earlier.state.validCompletedReports <+: later.state.validCompletedReports

theorem Continues.refl (session : ReviewSession) : Continues session session :=
  ⟨rfl, fun _ a hk => ⟨a, hk, SameAttempt.refl a⟩, List.prefix_rfl⟩

theorem Continues.trans {s s' s'' : ReviewSession} (h : Continues s s') (h' : Continues s' s'') :
    Continues s s'' := by
  refine ⟨h'.seed.trans h.seed, fun k a hk => ?_, h.reports.trans h'.reports⟩
  obtain ⟨b, hb, hsame⟩ := h.attempts k a hk
  obtain ⟨c, hc, hsame'⟩ := h'.attempts k b hb
  exact ⟨c, hc, hsame.trans hsame'⟩

/-- The attempts of the earlier session are attempts of the later one. -/
theorem Continues.mem {s s' : ReviewSession} (h : Continues s s') {a : ReviewAttempt}
    (ha : a ∈ s.attempts) : ∃ a' ∈ s'.attempts, SameAttempt a a' := by
  obtain ⟨k, hk⟩ := List.mem_iff_getElem?.mp ha
  obtain ⟨a', ha', hsame⟩ := h.attempts k a hk
  exact ⟨a', List.mem_of_getElem? ha', hsame⟩

section Clearance

variable [Sha256] [Pydantic]

/-- A completion credits at most one more report. -/
theorem Outcome.reports {seed : ReviewSeed} {state settled : ReviewState}
    {invocation : Invocation} {completion : Completion}
    (h : Outcome seed state invocation completion settled) :
    state.validCompletedReports <+: settled.validCompletedReports := by
  cases h.inspection with
  | untouched hf hr => rw [hr]
  | retained report hb hf hr ht => rw [hr]
  | credited text report hclean hk ho hp hb hc h hr =>
      rw [hr]
      exact List.prefix_append _ _

theorem Advance.reports {session session' : ReviewSession} (h : Advance session session') :
    session.state.validCompletedReports <+: session'.state.validCompletedReports := by
  cases h with
  | redelivered => exact List.prefix_rfl
  | reserve invocation h => exact List.prefix_rfl
  | complete earlier invocation completion state hl hc =>
      obtain ⟨pending, settled, -, -, ho, rfl⟩ := complete_ok hc
      show _ <+: (capacity session.seed settled).validCompletedReports
      rw [capacity_validCompletedReports]
      exact ho.reports

theorem Legal.reports {current proposed : ReviewSession} {kind : TransitionKind}
    (h : Legal (some current) kind proposed) :
    current.state.validCompletedReports <+: proposed.state.validCompletedReports := by
  cases h with
  | unchanged current => exact List.prefix_rfl
  | reserve current proposed invocationId kind actor reservation now h =>
      exact (advance_of_reserve h).reports
  | complete current proposed pending receipt output now failureReason hp h =>
      exact (advance_of_complete h).reports

/-- What may follow a session goes on from it. -/
theorem Legal.continues {current proposed : ReviewSession} {kind : TransitionKind}
    (h : Legal (some current) kind proposed) : Continues current proposed := by
  refine ⟨h.seed_eq, fun k a hk => ?_, h.reports⟩
  rcases h.attempts with rfl | ⟨invocation, hp⟩ | ⟨earlier, pending, completion, hl, hp⟩
  · exact ⟨a, hk, SameAttempt.refl a⟩
  · refine ⟨a, ?_, SameAttempt.refl a⟩
    rw [hp, List.getElem?_append_left (List.getElem?_eq_some_iff.mp hk).1, hk]
  · rw [hl] at hk
    rw [hp]
    by_cases hearlier : k < earlier.length
    · rw [List.getElem?_append_left hearlier] at hk ⊢
      exact ⟨a, hk, SameAttempt.refl a⟩
    · -- the pending attempt, which has no completion to keep
      rw [List.getElem?_append_right (Nat.le_of_not_lt hearlier)] at hk ⊢
      cases hzero : k - earlier.length with
      | zero =>
          rw [hzero] at hk
          obtain rfl := Option.some.inj hk
          exact ⟨_, rfl, rfl, fun hne => absurd rfl hne⟩
      | succ n =>
          rw [hzero] at hk
          cases hk

variable [ReviewDocuments]

variable {store store' : Store} {scope : ReviewScope} {session : ReviewSession} {call : Call}
  {reading : Reading} {kind : TransitionKind} {invocation : Invocation}

/-- What is stored for a unit goes on in what a call stores. -/
theorem Stored.continues (hs : Stored store scope session) (hch : Chronicled store)
    (hc : Committed store call reading kind store') (hread : call.updated.ReadsBack) :
    ∃ session', Stored store' scope session' ∧ Continues session session' := by
  by_cases hscope : scope = call.scope
  · subst hscope
    have hlegal := legal_of_extension hc.wrote.extension
    rw [hc.read hch hs] at hlegal
    exact ⟨call.updated, hc.stored hch hread, hlegal.continues⟩
  · exact ⟨session, hs.other hc hscope, .refl _⟩

/-- What is stored for a unit is the outcome of its ledger. -/
theorem Chronicled.recorded (h : Chronicled store) (hs : Stored store scope session) :
    Recorded session := by
  obtain ⟨items, hitems⟩ := h scope
  exact (hitems.chain.last (hitems.stored_iff.mp hs)).2

theorem Stored.unique (hs : Stored store scope session) {session' : ReviewSession}
    (hs' : Stored store scope session') : session = session' := by
  obtain ⟨row, hrow, hdecode⟩ := hs
  obtain ⟨row', hrow', hdecode'⟩ := hs'
  obtain rfl := Option.some.inj (hrow.symm.trans hrow')
  exact Except.ok.inj (hdecode.symm.trans hdecode')

/-- The unit's stored session has the invocation as an attempt. -/
def AttemptIn (store : Store) (scope : ReviewScope) (invocation : Invocation) : Prop :=
  ∃ session, Stored store scope session ∧ ∃ a ∈ session.attempts, a.invocation = invocation

/-! ## 2. What one step leaves -/

variable {ι : Type} [DecidableEq ι] {config : ι → Orchestrator} {w w' : World ι} {a : Action ι}
  {i : ι} {run : List (Action ι)} {pending : ReviewSession}

theorem Step.continues (h : Step config w a w') (hch : Chronicled w.store)
    (hread : ∀ call, a.offered = some call → call.updated.ReadsBack)
    (hs : Stored w.store scope session) :
    ∃ session', Stored w'.store scope session' ∧ Continues session session' := by
  rcases h.effect.commits with hsame | ⟨call, reading, kind, hcall, hc⟩
  · exact ⟨session, by rwa [hsame], .refl _⟩
  · exact hs.continues hch hc (hread call hcall)

theorem AttemptIn.step (ha : AttemptIn w.store scope invocation) (h : Step config w a w')
    (hch : Chronicled w.store)
    (hread : ∀ call, a.offered = some call → call.updated.ReadsBack) :
    AttemptIn w'.store scope invocation := by
  obtain ⟨session, hs, x, hx, rfl⟩ := ha
  obtain ⟨session', hs', hcontinues⟩ := h.continues hch hread hs
  obtain ⟨x', hx', hsame⟩ := hcontinues.mem hx
  exact ⟨session', hs', x', hx', hsame.invocation⟩

omit [DecidableEq ι] in
/-- A reservation that was won is stored, on a session that it fits. -/
theorem Won.recorded (hw : Won config w a w' i pending) (hch : Chronicled w.store)
    (hread : ∀ call, a.offered = some call → call.updated.ReadsBack)
    (hp : pending.state.pending = some invocation) :
    Recorded pending ∧ AttemptIn w'.store (config i).scope invocation := by
  obtain ⟨current, clock, reading, kind, rfl, -, hc⟩ := hw
  have hr : Recorded pending := recorded_of_extension hc.wrote.extension
  obtain ⟨earlier, hl⟩ := hr.last_of_pending hp
  refine ⟨hr, pending, hc.stored hch (hread _ rfl), ⟨invocation, none⟩, ?_, rfl⟩
  rw [hl]
  exact List.mem_append_right _ List.mem_cons_self

/-! ## 3. What was handed over -/

/-- What an orchestrator holds, and what a run has handed over, are attempts of the unit. -/
structure Handed (config : ι → Orchestrator) (run : List (Action ι)) (w : World ι) : Prop where
  held : ∀ i pending invocation, (w.phase i).right = some pending →
    pending.state.pending = some invocation →
    Recorded pending ∧ AttemptIn w.store (config i).scope invocation
  executed : ∀ i invocation, (i, invocation) ∈ executions run →
    AttemptIn w.store (config i).scope invocation

theorem Handed.step (h : Handed config run w) (hs : Step config w a w')
    (hch : Chronicled w.store)
    (hread : ∀ call, a.offered = some call → call.updated.ReadsBack) :
    Handed config (run ++ [a]) w' where
  held := by
    intro i pending invocation hright hp
    rcases hs.right hright with hkept | hwon
    · obtain ⟨hr, ha⟩ := h.held i pending invocation hkept hp
      exact ⟨hr, ha.step hs hch hread⟩
    · exact hwon.recorded hch hread hp
  executed := by
    intro i invocation hmem
    rw [executions_snoc] at hmem
    rcases List.mem_append.mp hmem with hmem | hmem
    · exact (h.executed i invocation hmem).step hs hch hread
    · obtain ⟨pending, hu, hp, -⟩ := hs.executes (Option.mem_toList.mp hmem)
      exact (h.held i pending invocation (Phase.right_of_undispatched hu) hp).2.step hs hch hread

/-- The calls that a run offers to the store read back. -/
def OffersReadBack (run : List (Action ι)) : Prop :=
  ∀ a ∈ run, ∀ call, a.offered = some call → call.updated.ReadsBack

omit [Sha256] [Pydantic] [DecidableEq ι] in
theorem OffersReadBack.init (h : OffersReadBack (run ++ [a])) : OffersReadBack run :=
  fun x hx => h x (List.mem_append_left _ hx)

omit [Sha256] [Pydantic] [DecidableEq ι] in
theorem OffersReadBack.last (h : OffersReadBack (run ++ [a])) :
    ∀ call, a.offered = some call → call.updated.ReadsBack :=
  h a (List.mem_append_right _ List.mem_cons_self)

theorem handed_of_trace (h : (orchestration config).Trace run w) :
    OffersReadBack run → Handed config run w := by
  refine h.invariant (fun run w => OffersReadBack run → Handed config run w)
    (fun w hw _ => ⟨fun i pending _ hright => ?_, fun i invocation hm => ?_⟩)
    (fun run w a w' htrace ih hs hread => ?_)
  · rw [hw.2.2 i] at hright
    cases hright
  · cases hm
  · exact (ih hread.init).step hs (disciplined_of_trace htrace hread.init).chronicled hread.last

/-! ## 4. What led to a dispatch -/

/-- What stands behind a dispatch that nothing stopped: it is authorised, the artifact is the one
observed, and it is in time for its invocation and for its session. -/
structure Clear (pending : ReviewSession) (authorized : Bool) (observed : ArtifactRef)
    (now : Datetime) (invocation : Invocation) (moment : Moment) : Prop where
  waits : pending.state.pending = some invocation
  authorized : authorized = true
  undrifted : observed = pending.state.artifact
  clock : utc now = .ok moment
  started : invocation.startedAt ≤ moment
  reserved : moment.micros <
    invocation.startedAt.micros + invocation.reservation.seconds * micro
  session : moment.micros <
    pending.seed.startedAt.micros + pending.seed.policy.maxElapsedSeconds * micro

omit [Sha256] [Pydantic] [ReviewDocuments] in
theorem deadlineOf_ok {deadline : Moment} (h : deadlineOf invocation = .ok deadline) :
    deadline.micros = invocation.startedAt.micros + invocation.reservation.seconds * micro := by
  unfold deadlineOf at h
  split at h
  · obtain rfl := Except.ok.inj h
    rfl
  · cases h

omit [Sha256] [Pydantic] [ReviewDocuments] in
theorem sessionEnd_ok {seed : ReviewSeed} {ends : Moment} (h : sessionEnd seed = .ok ends) :
    ends.micros = seed.startedAt.micros + seed.policy.maxElapsedSeconds * micro := by
  unfold sessionEnd at h
  split at h
  · obtain rfl := Except.ok.inj h
    rfl
  · cases h

omit [Sha256] [Pydantic] [ReviewDocuments] in
theorem dispatchStop_none {authorized : Bool} {observed : ArtifactRef} {now : Datetime}
    (h : dispatchStop pending authorized observed now = .ok none) :
    ∃ invocation moment, Clear pending authorized observed now invocation moment := by
  unfold dispatchStop at h
  cases hp : pending.state.pending with
  | none =>
      rw [hp] at h
      cases h
  | some invocation =>
      rw [hp] at h
      dsimp only at h
      split at h
      · cases Except.pure_ok.mp h
      · rename_i hauthorized
        obtain ⟨moment, hmoment, h⟩ := Except.bind_ok.mp h
        split at h
        · cases Except.pure_ok.mp h
        · rename_i hartifact
          split at h
          · cases Except.pure_ok.mp h
          · rename_i hstarted
            obtain ⟨deadline, hdeadline, h⟩ := Except.bind_ok.mp h
            split at h
            · cases Except.pure_ok.mp h
            · rename_i hlate
              obtain ⟨ends, hends, h⟩ := Except.bind_ok.mp h
              split at h
              · cases Except.pure_ok.mp h
              · rename_i hover
                have hdeadline' : moment.micros < deadline.micros := not_le.mp hlate
                have hends' : moment.micros < ends.micros := not_le.mp hover
                rw [deadlineOf_ok hdeadline] at hdeadline'
                rw [sessionEnd_ok hends] at hends'
                exact ⟨invocation, moment, hp, (Bool.not_eq_false _).mp hauthorized,
                  not_not.mp hartifact, raising_ok.mp (storeRaising_ok.mp hmoment),
                  not_lt.mp hstarted, hdeadline', hends'⟩

/-- The orchestrator that takes a step. -/
def Action.actor : Action ι → Option ι
  | .load i | .propose i _ _ _ _ | .reserve i _ | .clear i _ _ _ | .execute i _ => some i
  | .collect i _ | .complete i _ | .settle i _ | .crash i => some i
  | .foreign _ _ => none

/-- None of the steps is the orchestrator's. -/
def Away (i : ι) (steps : List (Action ι)) : Prop :=
  ∀ a ∈ steps, a.actor ≠ some i

/-- The last step of the orchestrator won the reservation. -/
def JustReserved (config : ι → Orchestrator) (run : List (Action ι)) (i : ι)
    (pending : ReviewSession) : Prop :=
  ∃ first current clock rest,
    run = first ++ .reserve i ((config i).offer current pending clock) :: rest ∧ Away i rest

/-- The last two steps of the orchestrator won the reservation and cleared its dispatch. -/
def JustCleared (config : ι → Orchestrator) (run : List (Action ι)) (i : ι)
    (pending : ReviewSession) : Prop :=
  ∃ before observed now rest, run = before ++ .clear i true observed now :: rest ∧
    Away i rest ∧ JustReserved config before i pending ∧
    dispatchStop pending true observed now = .ok none

/-- What led an orchestrator where it stands, up to its dispatch. -/
def Prepared (config : ι → Orchestrator) (run : List (Action ι)) (i : ι) : Phase → Prop
  | .reserved pending => JustReserved config run i pending
  | .cleared pending => JustCleared config run i pending
  | _ => True

omit [Pydantic] [ReviewDocuments] [DecidableEq ι] in
theorem Prepared.away {phase : Phase} (h : Prepared config run i phase) (ha : a.actor ≠ some i) :
    Prepared config (run ++ [a]) i phase := by
  have hrest : ∀ rest : List (Action ι), Away i rest → Away i (rest ++ [a]) := by
    intro rest hr x hx
    rcases List.mem_append.mp hx with hx | hx
    · exact hr x hx
    · rwa [List.mem_singleton.mp hx]
  cases phase with
  | reserved pending =>
      obtain ⟨first, current, clock, rest, rfl, hr⟩ := h
      exact ⟨first, current, clock, rest ++ [a], by simp, hrest rest hr⟩
  | cleared pending =>
      obtain ⟨before, observed, now, rest, rfl, hr, hx⟩ := h
      exact ⟨before, observed, now, rest ++ [a], by simp, hrest rest hr, hx⟩
  | _ => trivial

/-- A step leaves the other orchestrators where they stand. -/
theorem Step.others (h : Step config w a w') (ha : a.actor ≠ some i) : w'.phase i = w.phase i := by
  have hne : ∀ (k : ι) (phase : Phase), a.actor = some k →
      (w.enter k phase).phase i = w.phase i := by
    intro k phase hk
    refine Function.update_of_ne ?_ _ _
    rintro rfl
    exact ha hk
  cases h with
  | foreign call wrote store' h => rfl
  | _ => exact hne _ _ rfl

theorem Step.prepared (h : Step config w a w') (hp : ∀ i, Prepared config run i (w.phase i))
    (i : ι) : Prepared config (run ++ [a]) i (w'.phase i) := by
  by_cases ha : a.actor = some i
  · have henter : ∀ (k : ι) (phase : Phase), some k = some i →
        Prepared config (run ++ [a]) k phase →
        Prepared config (run ++ [a]) i ((w.enter k phase).phase i) := by
      intro k phase hk hphase
      obtain rfl := Option.some.inj hk
      rcases w.enter_cases k phase k with ⟨hne, -⟩ | ⟨-, hnew⟩
      · exact absurd rfl hne
      · rwa [hnew]
    cases h with
    | reserve k current pending clock store' hphase h =>
        exact henter k (.reserved pending) ha ⟨run, current, clock, [], rfl, by simp [Away]⟩
    | clear k pending authorized observed now hphase h =>
        refine henter k (.cleared pending) ha ?_
        have hbefore := hp k
        rw [hphase] at hbefore
        obtain ⟨invocation, moment, hclear⟩ := dispatchStop_none h
        obtain rfl := hclear.authorized
        exact ⟨run, observed, now, [], rfl, by simp [Away], hbefore, h⟩
    | foreign call wrote store' h => cases ha
    | _ => exact henter _ _ ha trivial
  · rw [h.others ha]
    exact (hp i).away ha

theorem prepared_of_trace (h : (orchestration config).Trace run w) (i : ι) :
    Prepared config run i (w.phase i) := by
  refine h.invariant (fun run w => ∀ i, Prepared config run i (w.phase i)) (fun w hw i => ?_)
    (fun _ _ _ _ _ ih hs => Step.prepared hs ih) i
  rw [hw.2.2 i]
  trivial

/-! ## 5. Every dispatch -/

/-- What was handed over for a unit, in order. -/
def executedFor (config : ι → Orchestrator) (scope : ReviewScope) (run : List (Action ι)) :
    List Invocation :=
  ((executions run).filter fun executed => (config executed.1).scope = scope).map (·.2)

/-- What stands behind a dispatch: the dispatcher's own last two steps, and the session they were
taken on. -/
structure Dispatchable (config : ι → Orchestrator) (earlier : List (Action ι)) (store : Store)
    (i : ι) (invocation : Invocation) (pending : ReviewSession) : Prop where
  cleared : ∃ before observed now rest moment,
    earlier = before ++ .clear i true observed now :: rest ∧ Away i rest ∧
    JustReserved config before i pending ∧ Clear pending true observed now invocation moment
  running : pending.state.terminalReasons = []
  tokens : pending.state.budget.tokensSpent + invocation.reservation.tokens ≤
    pending.seed.policy.maxTokens
  cost : pending.state.budget.costMicrousdSpent + invocation.reservation.costMicrousd ≤
    pending.seed.policy.maxCostMicrousd
  stored : Stored store (config i).scope pending ∨
    SettledElsewhere earlier (config i).scope invocation.invocationId

theorem Step.dispatchable (hs : Step config w (.execute i invocation) w')
    (hd : Disciplined config run w) (hh : Handed config run w)
    (hp : Prepared config run i (w.phase i)) :
    ∃ pending, Dispatchable config run w.store i invocation pending := by
  cases hs with
  | execute i pending invocation hphase hwaits =>
      have hright : (w.phase i).right = some pending := by
        rw [hphase]
        rfl
      rw [hphase] at hp
      obtain ⟨before, observed, now, rest, hrun, haway, hreserved, hstop⟩ := hp
      obtain ⟨invocation', moment, hclear⟩ := dispatchStop_none hstop
      obtain rfl := Option.some.inj (hclear.waits.symm.trans hwaits)
      obtain ⟨hr, -⟩ := hh.held i pending _ hright hwaits
      obtain ⟨invocation'', hbacked⟩ := hd.backed i pending hright
      obtain rfl := Option.some.inj (hbacked.waits.symm.trans hwaits)
      have hrunning := hr.running (by rw [hwaits]; exact Option.some_ne_none _)
      have hbooks := hr.accounted
      have htokens := hbooks.maxTokens hrunning
      have hcost := hbooks.maxCost hrunning
      rw [hbooks.tokensReserved, hwaits, Option.map_some, Option.getD_some] at htokens
      rw [hbooks.costReserved, hwaits, Option.map_some, Option.getD_some] at hcost
      exact ⟨pending, ⟨before, observed, now, rest, moment, hrun, haway, hreserved, hclear⟩,
        hrunning, htokens, hcost, hbacked.stored⟩

omit [Sha256] [Pydantic] [ReviewDocuments] [DecidableEq ι] in
theorem mem_executedFor : invocation ∈ executedFor config scope run ↔
    ∃ i, (i, invocation) ∈ executions run ∧ (config i).scope = scope := by
  unfold executedFor
  simp

omit [Sha256] [Pydantic] [ReviewDocuments] [DecidableEq ι] in
/-- No invocation is handed over twice for a unit, since no id is. -/
theorem executedFor_nodup (h : (executedIds run).Nodup) : (executedFor config scope run).Nodup := by
  refine List.Nodup.of_map (·.invocationId) ?_
  unfold executedFor
  rw [List.map_map]
  exact h.sublist (List.filter_sublist.map _)

/-- What was handed over for a unit are attempts of its stored session, within its policy. -/
structure Spent (config : ι → Orchestrator) (run : List (Action ι)) (scope : ReviewScope)
    (session : ReviewSession) : Prop where
  attempts : ∀ invocation ∈ executedFor config scope run,
    ∃ a ∈ session.attempts, a.invocation = invocation
  once : (executedFor config scope run).Nodup
  invocations : (executedFor config scope run).length ≤ session.seed.policy.maxInvocations
  repairs : ((executedFor config scope run).countP fun invocation => invocation.kind = .repair) ≤
    session.seed.policy.maxImplementationRepairs

omit [DecidableEq ι] in
theorem Handed.spent (hh : Handed config run w) (hd : Disciplined config run w)
    (hs : Stored w.store scope session) : Spent config run scope session := by
  have hattempts : ∀ invocation ∈ executedFor config scope run,
      ∃ a ∈ session.attempts, a.invocation = invocation := by
    intro invocation hmem
    obtain ⟨i, hi, rfl⟩ := mem_executedFor.mp hmem
    obtain ⟨session', hs', hx⟩ := hh.executed i invocation hi
    rwa [hs.unique hs']
  have honce : (executedFor config scope run).Nodup := executedFor_nodup hd.once
  have hsub : (executedFor config scope run).Subperm (session.attempts.map (·.invocation)) :=
    List.subperm_of_subset honce fun x hx => List.mem_map.mpr (hattempts x hx)
  have hbooks := (hd.chronicled.recorded hs).accounted
  refine ⟨hattempts, honce, ?_, ?_⟩
  · have hlength := hsub.length_le
    have hmax := hbooks.maxInvocations
    rw [hbooks.invocations] at hmax
    rw [List.length_map] at hlength
    omega
  · have hcount := hsub.countP_le fun invocation => decide (invocation.kind = .repair)
    have hmax := hbooks.maxRepairs
    rw [hbooks.repairs] at hmax
    rw [List.countP_map] at hcount
    exact hcount.trans hmax

end Clearance

/-- **Dispatch within the policy**: in every run of any number of orchestrators and other parties
over one store, whoever hands an invocation to the executor has, by its own last two steps, won
the reservation at the store and found it authorised, on the observed artifact and in time; its
session was not stopped, and what it had spent together with this hold is within its ceilings.
What was handed over for a unit are different attempts of its stored session, no more than the
policy allows, repairs included; for a unit without a session nothing was handed over. -/
theorem dispatch_within_policy [Sha256] [Pydantic] [ReviewDocuments] {ι : Type} [DecidableEq ι]
    {config : ι → Orchestrator} {run : List (Action ι)} {w : World ι}
    (h : (orchestration config).Trace run w) (hread : OffersReadBack run) :
    (∀ earlier i invocation, earlier ++ [.execute i invocation] <+: run →
      ∃ w₀ pending, (orchestration config).Trace earlier w₀ ∧
        Dispatchable config earlier w₀.store i invocation pending) ∧
    ∀ scope, (executedFor config scope run = [] ∨
      ∃ session, Stored w.store scope session) ∧
      ∀ session, Stored w.store scope session → Spent config run scope session := by
  have hhanded := handed_of_trace h hread
  have hdisciplined := disciplined_of_trace h hread
  refine ⟨fun earlier i invocation hp => ?_, fun scope => ⟨?_, fun session hs =>
    hhanded.spent hdisciplined hs⟩⟩
  · obtain ⟨w₀, w₁, h₀, hstep, -⟩ := h.takes hp
    have hbefore : OffersReadBack earlier := fun a ha =>
      hread a (hp.subset (List.mem_append_left _ ha))
    obtain ⟨pending, hx⟩ := Step.dispatchable hstep (disciplined_of_trace h₀ hbefore)
      (handed_of_trace h₀ hbefore) (prepared_of_trace h₀ i)
    exact ⟨w₀, pending, h₀, hx⟩
  · cases hl : executedFor config scope run with
    | nil => exact Or.inl rfl
    | cons invocation rest =>
        have hmem : invocation ∈ executedFor config scope run := by
          rw [hl]
          exact List.mem_cons_self
        obtain ⟨i, hi, rfl⟩ := mem_executedFor.mp hmem
        obtain ⟨session, hs, -⟩ := hhanded.executed i invocation hi
        exact Or.inr ⟨session, hs⟩

/-! Two orchestrators on one unit: the one that won dispatches, within the policy. -/

namespace Fixture

def contended : List (Action Bool) :=
  contention orchestrator creation fresh held (artifact "v1") (clock 0).datetime (clock 0)
    (invocation 0 .review "v1")

theorem contended_trace : ∃ w, (orchestration fun _ : Bool => orchestrator).Trace contended w := by
  obtain ⟨hcreate, hload, hpropose, hreserve, hrefuse, hclear⟩ := dispatch_steps
  exact contention_trace orchestrator (invocation 0 .review "v1") ⟨rfl, rfl⟩
    (answer_of hcreate) (ok_of_toOption hload) (ok_of_toOption hpropose) (answer_of hreserve)
    (refusal_of hrefuse) (ok_of_toOption hclear) rfl

theorem contended_reads : OffersReadBack contended := by
  intro a ha call hcall
  simp only [contended, contention, List.mem_cons, List.not_mem_nil, or_false] at ha
  rcases ha with rfl | rfl | rfl | rfl | rfl | rfl | rfl | rfl | rfl
  · obtain rfl := Option.some.inj hcall
    rfl
  · cases hcall
  · cases hcall
  · cases hcall
  · cases hcall
  · obtain rfl := Option.some.inj hcall
    rfl
  · obtain rfl := Option.some.inj hcall
    rfl
  · cases hcall
  · cases hcall

end Fixture

open Fixture in
theorem dispatch_within_policy_contended :
    executedFor (fun _ : Bool => orchestrator) scope contended = [invocation 0 .review "v1"] ∧
    ∃ w session, (orchestration fun _ : Bool => orchestrator).Trace contended w ∧
      Stored w.store scope session ∧
      Spent (fun _ : Bool => orchestrator) contended scope session := by
  obtain ⟨w, h⟩ := contended_trace
  obtain ⟨hsome, hspent⟩ := (dispatch_within_policy h contended_reads).2 scope
  have hone : executedFor (fun _ : Bool => orchestrator) scope contended =
      [invocation 0 .review "v1"] := rfl
  rcases hsome with hnone | ⟨session, hs⟩
  · rw [hone] at hnone
    cases hnone
  · exact ⟨hone, w, session, h, hs, hspent session hs⟩

end NokincFactory
