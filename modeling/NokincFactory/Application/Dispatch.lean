/-
  File:      NokincFactory/Application/Dispatch.lean
  Subject:   What reaches the executor, however the orchestrators interleave and crash.

  The right to dispatch is won at the store and nowhere else: the comparison that commits a
  reservation also commits its id, which no event had before and none can have again.

  The executor is not assumed to answer, or to notice that a request is repeated.

  * `ReservedIn`, `Stored`, `HasCompleted`: what the store knows of an invocation;
  * `Step.effect`, `Step.keeps`, `Step.executes`: what one step can do to the store, to the
    rights of an orchestrator, and at the executor;
  * `Disciplined`: the invariant of every run;
  * `dispatch_at_most_once`.
-/
import NokincFactory.Application.ReviewOrchestrator
import NokincFactory.Store.History

namespace NokincFactory

section Dispatch

variable [Sha256] [Pydantic]

/-! ## 1. Invocations in sessions -/

/-- The invocation is an attempt of the session, completed. -/
def HasCompleted (session : ReviewSession) (invocationId : Identifier) : Prop :=
  ∃ a ∈ session.attempts, a.invocation.invocationId = invocationId ∧ a.completion ≠ none

omit [Sha256] [Pydantic] in
theorem hasCompleted_last {session : ReviewSession} {earlier : List ReviewAttempt}
    {invocation : Invocation} {completion : Completion}
    (h : session.attempts = earlier ++ [⟨invocation, some completion⟩]) :
    HasCompleted session invocation.invocationId := by
  refine ⟨⟨invocation, some completion⟩, ?_, rfl, nofun⟩
  rw [h]
  exact List.mem_append_right earlier List.mem_cons_self

/-- An attempt that is not completed is the pending one. -/
theorem Recorded.pending_of_mem {session : ReviewSession} (hs : Recorded session)
    {a : ReviewAttempt} (ha : a ∈ session.attempts)
    (hc : ¬ HasCompleted session a.invocation.invocationId) :
    session.state.pending = some a.invocation := by
  have hnone : a.completion = none := by
    by_contra hne
    exact hc ⟨a, ha, rfl, hne⟩
  rcases hs.settled with ⟨-, hall⟩ | ⟨earlier, invocation, hl, hp, hall⟩
  · exact absurd hnone (hall a ha)
  · rw [hl] at ha
    rcases List.mem_append.mp ha with ha | ha
    · exact absurd hnone (hall a ha)
    · obtain rfl := List.mem_singleton.mp ha
      exact hp

/-- A legal step keeps the invocation of every attempt. -/
theorem Legal.keeps {current proposed : ReviewSession} {kind : TransitionKind}
    (h : Legal (some current) kind proposed) {a : ReviewAttempt} (ha : a ∈ current.attempts) :
    ∃ a' ∈ proposed.attempts, a'.invocation = a.invocation := by
  rcases h.attempts with rfl | ⟨invocation, hp⟩ | ⟨earlier, pending, completion, hl, hp⟩
  · exact ⟨a, ha, rfl⟩
  · exact ⟨a, by rw [hp]; exact List.mem_append_left _ ha, rfl⟩
  · rw [hl] at ha
    rw [hp]
    rcases List.mem_append.mp ha with ha | ha
    · exact ⟨a, List.mem_append_left _ ha, rfl⟩
    · obtain rfl := List.mem_singleton.mp ha
      exact ⟨_, List.mem_append_right _ List.mem_cons_self, rfl⟩

/-- What follows a session that waits for a call is the completion of this call. -/
theorem Legal.of_pending {current proposed : ReviewSession} {kind : TransitionKind}
    {invocation : Invocation} (h : Legal (some current) kind proposed)
    (hne : some current ≠ some proposed) (hp : current.state.pending = some invocation) :
    proposed.state.pending = none ∧ ∃ earlier completion,
      proposed.attempts = earlier ++ [⟨invocation, some completion⟩] := by
  cases h with
  | reserve current proposed invocationId kind actor reservation now h =>
      rw [(reserveInvocation_pending h).1] at hp
      cases hp
  | complete current proposed pending receipt output now failureReason hp' h =>
      obtain ⟨earlier, pending', completion, state, -, hpending, -, -, hproposed⟩ :=
        complete_of_completeInvocation h (ne_of_completeInvocation hp' h)
      obtain rfl := Option.some.inj (hp.symm.trans hpending)
      refine ⟨completeInvocation_pending hp' h, earlier, completion, ?_⟩
      rw [hproposed]
  | unchanged current => exact absurd rfl hne

/-- What waits for a call has just been reserved. -/
theorem Legal.of_reserved {current : Option ReviewSession} {proposed : ReviewSession}
    {kind : TransitionKind} {invocation : Invocation} (h : Legal current kind proposed)
    (hne : current ≠ some proposed) (hp : proposed.state.pending = some invocation) :
    kind = .reserve := by
  cases h with
  | create seed h => cases hp
  | reserve current proposed invocationId kind actor reservation now h => rfl
  | complete current proposed pending receipt output now failureReason hp' h =>
      rw [completeInvocation_pending hp' h] at hp
      cases hp
  | unchanged current => exact absurd rfl hne

/-! ## 2. Invocations in the store -/

variable [ReviewDocuments]

/-- The session that is stored for a unit. -/
def Stored (store : Store) (scope : ReviewScope) (session : ReviewSession) : Prop :=
  ∃ row, AList.lookup scope store.sessions = some row ∧ decode row = .ok session

/-- The reservation of an invocation is committed to a unit. -/
def ReservedIn (store : Store) (scope : ReviewScope) (invocationId : Identifier) : Prop :=
  ∃ e ∈ store.events, e.scope = scope ∧ e.kind = .reserve ∧ e.invocationId = some invocationId

variable {store store' : Store} {scope : ReviewScope} {items : List ReviewSession}
  {session : ReviewSession} {call : Call} {reading : Reading} {kind : TransitionKind}
  {invocation : Invocation} {invocationId : Identifier}

theorem Chronicle.stored_iff (h : Chronicle store scope items) :
    Stored store scope session ↔ items.getLast? = some session := by
  constructor
  · rintro ⟨row, hrow, hdecode⟩
    have hsnapshot := h.snapshot
    rw [hrow] at hsnapshot
    obtain ⟨last, hl, rfl⟩ := Option.map_eq_some_iff.mp hsnapshot.symm
    rw [hl, Except.ok.inj ((h.decode hl).symm.trans hdecode)]
  · intro hl
    refine ⟨snapshotOf items.length session, ?_, h.decode hl⟩
    rw [h.snapshot, hl]
    rfl

/-- The reservations of a chain are attempts of its last session. -/
theorem Chain.attempted {events : List EventRow} (h : Chain events items) {e : EventRow}
    (he : e ∈ events) (hid : e.invocationId = some invocationId) :
    ∃ last, items.getLast? = some last ∧
      ∃ a ∈ last.attempts, a.invocation.invocationId = invocationId := by
  induction h with
  | nil => cases he
  | snoc call updated kind h hread hne hk ih =>
      refine ⟨updated, List.getLast?_concat, ?_⟩
      rcases List.mem_append.mp he with he | he
      · obtain ⟨last, hl, a, ha, hsame⟩ := ih he
        rw [hl] at hk
        obtain ⟨a', ha', hinvocation⟩ := (legal_of_extension hk).keeps ha
        exact ⟨a', ha', by rw [hinvocation, hsame]⟩
      · obtain rfl := List.mem_singleton.mp he
        by_cases hreserve : kind = .reserve
        · have hlast : updated.attempts.getLast?.map (·.invocation.invocationId) =
              some invocationId := (if_pos hreserve).symm.trans hid
          obtain ⟨a, ha, hsame⟩ := Option.map_eq_some_iff.mp hlast
          exact ⟨a, List.mem_of_getLast? ha, hsame⟩
        · have hnone := (if_neg hreserve).symm.trans hid
          cases hnone

/-- A reserved invocation is an attempt of the stored session of its unit. -/
theorem Chronicled.attempted (h : Chronicled store) (hr : ReservedIn store scope invocationId) :
    ∃ session, Stored store scope session ∧ Recorded session ∧
      ∃ a ∈ session.attempts, a.invocation.invocationId = invocationId := by
  obtain ⟨items, hitems⟩ := h scope
  obtain ⟨e, he, hscope, -, hid⟩ := hr
  obtain ⟨last, hl, hattempt⟩ :=
    hitems.chain.attempted (List.mem_filter.mpr ⟨he, decide_eq_true hscope⟩) hid
  exact ⟨last, hitems.stored_iff.mpr hl, (hitems.chain.last hl).2, hattempt⟩

theorem Committed.events (h : Committed store call reading kind store') :
    store'.events = store.events ++
      [eventOf call call.updated reading.current kind (nextSequence reading.row)] := by
  rw [h.wrote.result]
  rfl

theorem ReservedIn.commit (h : ReservedIn store scope invocationId)
    (hc : Committed store call reading kind store') : ReservedIn store' scope invocationId := by
  obtain ⟨e, he, hx⟩ := h
  exact ⟨e, by rw [hc.events]; exact List.mem_append_left _ he, hx⟩

/-- What a call that wrote read is what was stored. -/
theorem Committed.read (h : Committed store call reading kind store') (hch : Chronicled store)
    (hs : Stored store call.scope session) : reading.current = some session := by
  obtain ⟨items, hitems⟩ := hch call.scope
  rw [(hitems.opened h.opened).1, hitems.stored_iff.mp hs]

/-- What a call that wrote stored. -/
theorem Committed.stored (h : Committed store call reading kind store') (hch : Chronicled store)
    (hread : call.updated.ReadsBack) : Stored store' call.scope call.updated := by
  obtain ⟨items, hitems⟩ := hch call.scope
  exact (hitems.commit h hread).stored_iff.mpr List.getLast?_concat

theorem Stored.other (hs : Stored store scope session)
    (hc : Committed store call reading kind store') (hne : scope ≠ call.scope) :
    Stored store' scope session := by
  obtain ⟨row, hrow, hdecode⟩ := hs
  refine ⟨row, ?_, hdecode⟩
  rw [hc.wrote.result]
  exact (AList.lookup_insert_ne hne).trans hrow

/-- A call that wrote a session waiting for a call has committed this reservation, under an id
that no event had. -/
theorem Committed.reserves (h : Committed store call reading kind store')
    (hp : call.updated.state.pending = some invocation) :
    ReservedIn store' call.scope invocation.invocationId ∧
      ∀ e ∈ store.events, e.invocationId ≠ some invocation.invocationId := by
  have hlegal := legal_of_extension h.wrote.extension
  have hreserve := hlegal.of_reserved h.changed hp
  have hrecorded : Recorded call.updated := recorded_of_extension h.wrote.extension
  obtain ⟨earlier, hl⟩ := hrecorded.last_of_pending hp
  have hid : (eventOf call call.updated reading.current kind
      (nextSequence reading.row)).invocationId = some invocation.invocationId := by
    refine (if_pos hreserve).trans ?_
    rw [hl, List.getLast?_concat]
    rfl
  constructor
  · refine ⟨_, ?_, h.scope, hreserve, hid⟩
    rw [h.events]
    exact List.mem_append_right _ List.mem_cons_self
  · intro e he hsame
    refine h.wrote.fresh e he (Or.inr (Or.inl ⟨?_, hsame.trans hid.symm⟩))
    rw [hid]
    exact nofun

/-! ## 3. What one step can do -/

/-- The reservation an orchestrator has won and not yet settled. -/
def Phase.right : Phase → Option ReviewSession
  | .reserved pending | .cleared pending | .executed pending => some pending
  | .settling pending _ _ _ | .committing pending _ => some pending
  | .idle | .loaded _ | .proposed _ _ => none

/-- The reservation an orchestrator may still hand to the executor. -/
def Phase.undispatched : Phase → Option ReviewSession
  | .reserved pending | .cleared pending => some pending
  | _ => none

omit [Sha256] [Pydantic] [ReviewDocuments] in
theorem Phase.right_of_undispatched {phase : Phase} {pending : ReviewSession}
    (h : phase.undispatched = some pending) : phase.right = some pending := by
  cases phase with
  | reserved p => exact h
  | cleared p => exact h
  | _ => cases h

/-- What the functions between the steps have made sure of. -/
def Phase.Proper : Phase → Prop
  | .proposed _ pending => ∃ invocation, pending.state.pending = some invocation
  | .committing pending finished => ∃ invocation receipt output now stop,
      pending.state.pending = some invocation ∧
      completeInvocation pending invocation.invocationId receipt output now stop = .ok finished
  | _ => True

omit [ReviewDocuments] in
theorem Orchestrator.propose_pending {o : Orchestrator} {current pending : ReviewSession}
    {observed : ArtifactRef} {now : Datetime} {startedAt : Datetime}
    (h : o.propose current observed now invocationId startedAt = .ok (some pending)) :
    ∃ invocation, pending.state.pending = some invocation := by
  unfold Orchestrator.propose at h
  obtain ⟨decision, -, h⟩ := Except.bind_ok.mp h
  split at h
  · cases Except.pure_ok.mp h
  · split at h
    · cases Except.pure_ok.mp h
    · simp only [] at h
      split at h
      · cases h
      · obtain ⟨session, hr, h⟩ := Except.bind_ok.mp h
        obtain rfl := Option.some.inj (Except.pure_ok.mp h)
        exact Option.ne_none_iff_exists'.mp (reserveInvocation_pending (storeRaising_ok.mp hr)).2

variable {ι : Type} [DecidableEq ι] {config : ι → Orchestrator} {w w' : World ι} {a : Action ι}
  {i j : ι}

/-- The call of a step at the store. -/
def Action.offered : Action ι → Option Call
  | .reserve _ call | .settle _ call | .foreign call _ => some call
  | _ => none

/-- What a step hands to the executor. -/
def Action.executed : Action ι → Option (ι × Invocation)
  | .execute i invocation => some (i, invocation)
  | _ => none

omit [Sha256] [Pydantic] [ReviewDocuments] in
/-- After an orchestrator moved on, another stands where it stood. -/
theorem World.enter_cases (w : World ι) (i : ι) (phase : Phase) (j : ι) :
    (j ≠ i ∧ (w.enter i phase).phase j = w.phase j) ∨
      (j = i ∧ (w.enter i phase).phase j = phase) := by
  by_cases h : j = i
  · subst h
    exact Or.inr ⟨rfl, Function.update_self _ _ _⟩
  · exact Or.inl ⟨h, Function.update_of_ne h _ _⟩

theorem serve_cases (store : Store) (call : Call) : store.serve call = store ∨
    ∃ reading kind, Committed store call reading kind (store.serve call) := by
  unfold Store.serve
  cases hc : compareAndReserve store call with
  | error e => exact Or.inl rfl
  | ok answer =>
      obtain ⟨wrote, store'⟩ := answer
      rcases compareAndReserve_ok hc with ⟨-, rfl, -⟩ | ⟨-, reading, kind, hcommitted⟩
      · exact Or.inl rfl
      · exact Or.inr ⟨reading, kind, hcommitted⟩

/-- The reservation that the step of an orchestrator has won. -/
def Won (config : ι → Orchestrator) (w : World ι) (a : Action ι) (w' : World ι) (i : ι)
    (pending : ReviewSession) : Prop :=
  ∃ current clock reading kind, a = .reserve i ((config i).offer current pending clock) ∧
    w.phase i = .proposed current pending ∧
    Committed w.store ((config i).offer current pending clock) reading kind w'.store

/-- What a step does to the store. -/
inductive Effect (config : ι → Orchestrator) (w : World ι) : Action ι → World ι → Prop where
  | none {a : Action ι} {w' : World ι} (h : w'.store = w.store) : Effect config w a w'
  | reserve {a : Action ι} {w' : World ι} (i : ι) (pending : ReviewSession)
      (h : Won config w a w' i pending) : Effect config w a w'
  | settle {w' : World ι} (i : ι) (pending finished : ReviewSession) (clock : Moment)
      (reading : Reading) (kind : TransitionKind)
      (hphase : w.phase i = .committing pending finished) (hidle : (w'.phase i).right = none)
      (hc : Committed w.store ((config i).offer pending finished clock) reading kind w'.store) :
      Effect config w (.settle i ((config i).offer pending finished clock)) w'
  | foreign {w' : World ι} (call : Call) (reading : Reading) (kind : TransitionKind)
      (hc : Committed w.store call reading kind w'.store) :
      Effect config w (.foreign call true) w'

theorem Step.effect (h : Step config w a w') : Effect config w a w' := by
  cases h with
  | reserve i current pending clock store' hphase h =>
      rcases compareAndReserve_ok h with ⟨hfalse, -⟩ | ⟨-, reading, kind, hc⟩
      · cases hfalse
      · exact .reserve i pending ⟨current, clock, reading, kind, rfl, hphase, hc⟩
  | settle i pending finished clock hphase =>
      rcases serve_cases w.store ((config i).offer pending finished clock) with h | ⟨r, k, hc⟩
      · exact .none h
      · refine .settle i pending finished clock r k hphase ?_ hc
        rcases w.enter_cases i .idle i with ⟨hne, -⟩ | ⟨-, hnew⟩
        · exact absurd rfl hne
        · exact congrArg Phase.right hnew
  | foreign call wrote store' h =>
      rcases compareAndReserve_ok h with ⟨-, hsame, -⟩ | ⟨rfl, reading, kind, hc⟩
      · exact .none hsame
      · exact .foreign call reading kind hc
  | _ => exact .none rfl

omit [DecidableEq ι] in
/-- A step leaves the store, or its call has written. -/
theorem Effect.commits (h : Effect config w a w') : w'.store = w.store ∨
    ∃ call reading kind, a.offered = some call ∧
      Committed w.store call reading kind w'.store := by
  cases h with
  | none h => exact Or.inl h
  | reserve i pending h =>
      obtain ⟨current, clock, reading, kind, rfl, -, hc⟩ := h
      exact Or.inr ⟨_, reading, kind, rfl, hc⟩
  | settle i pending finished clock reading kind hphase hidle hc =>
      exact Or.inr ⟨_, reading, kind, rfl, hc⟩
  | foreign call reading kind hc => exact Or.inr ⟨_, reading, kind, rfl, hc⟩

/-- What the phase after holds, the phase before held. -/
structure Phase.Keeps (before after : Phase) : Prop where
  right : ∀ pending, after.right = some pending → before.right = some pending
  undispatched : ∀ pending, after.undispatched = some pending →
    before.undispatched = some pending

omit [Sha256] [Pydantic] [ReviewDocuments] in
theorem Phase.Keeps.refl (phase : Phase) : phase.Keeps phase :=
  ⟨fun _ h => h, fun _ h => h⟩

omit [Sha256] [Pydantic] [ReviewDocuments] in
/-- A phase that holds no reservation. -/
theorem Phase.Keeps.of_none (before : Phase) {after : Phase} (h : after.right = none) :
    before.Keeps after := by
  refine ⟨fun pending hr => ?_, fun pending hu => ?_⟩
  · rw [h] at hr
    cases hr
  · rw [Phase.right_of_undispatched hu] at h
    cases h

omit [Sha256] [Pydantic] [ReviewDocuments] in
/-- A phase after the dispatch was decided holds the reservation of the phase before it. -/
theorem Phase.Keeps.of_right {before after : Phase} (h : after.right = before.right)
    (hu : after.undispatched = none) : before.Keeps after := by
  refine ⟨fun pending hr => by rw [← h]; exact hr, fun pending hp => ?_⟩
  rw [hu] at hp
  cases hp

omit [Sha256] [Pydantic] [ReviewDocuments] in
theorem World.enter_keeps {phase : Phase} (h : (w.phase i).Keeps phase) (j : ι) :
    (w.phase j).Keeps ((w.enter i phase).phase j) := by
  rcases w.enter_cases i phase j with ⟨-, hsame⟩ | ⟨rfl, hnew⟩
  · rw [hsame]
    exact .refl _
  · rwa [hnew]

/-- A reservation is kept, or won at the store by its orchestrator. -/
theorem Step.keeps (h : Step config w a w') (j : ι) : (w.phase j).Keeps (w'.phase j) ∨
    ∃ pending, Won config w a w' j pending ∧ w'.phase j = .reserved pending := by
  cases h with
  | load i current hphase h => exact Or.inl (World.enter_keeps (.of_none _ rfl) j)
  | propose i current pending observed now invocationId startedAt hphase h =>
      exact Or.inl (World.enter_keeps (.of_none _ rfl) j)
  | finished i current observed now invocationId startedAt hphase h =>
      exact Or.inl (World.enter_keeps (.of_none _ rfl) j)
  | contended i current pending clock hphase h =>
      exact Or.inl (World.enter_keeps (.of_none _ rfl) j)
  | crash i => exact Or.inl (World.enter_keeps (.of_none _ rfl) j)
  | settle i pending finished clock hphase =>
      exact Or.inl (World.enter_keeps (.of_none _ rfl) j)
  | foreign call wrote store' h => exact Or.inl (.refl _)
  | clear i pending authorized observed now hphase h =>
      refine Or.inl (World.enter_keeps ?_ j)
      rw [hphase]
      exact ⟨fun _ hr => hr, fun _ hu => hu⟩
  | stop i pending authorized observed now stop hphase h =>
      refine Or.inl (World.enter_keeps (.of_right ?_ rfl) j)
      rw [hphase]
      rfl
  | execute i pending invocation hphase hp =>
      refine Or.inl (World.enter_keeps (.of_right ?_ rfl) j)
      rw [hphase]
      rfl
  | collect i pending returned hphase =>
      refine Or.inl (World.enter_keeps (.of_right ?_ rfl) j)
      rw [hphase]
      rfl
  | complete i pending finished receipt output stop invocation now hphase hp h =>
      refine Or.inl (World.enter_keeps (.of_right ?_ rfl) j)
      rw [hphase]
      rfl
  | reserve i current pending clock store' hphase h =>
      rcases w.enter_cases i (.reserved pending) j with ⟨-, hsame⟩ | ⟨rfl, hnew⟩
      · left
        show (w.phase j).Keeps ((w.enter i (.reserved pending)).phase j)
        rw [hsame]
        exact .refl _
      · rcases compareAndReserve_ok h with ⟨hfalse, -⟩ | ⟨-, reading, kind, hc⟩
        · cases hfalse
        · exact Or.inr ⟨pending, ⟨current, clock, reading, kind, rfl, hphase, hc⟩, hnew⟩

/-- What a step hands to the executor is a reservation its orchestrator had not dispatched, and
has dispatched now. -/
theorem Step.executes (h : Step config w a w') {invocation : Invocation}
    (ha : a.executed = some (i, invocation)) :
    ∃ pending, (w.phase i).undispatched = some pending ∧
      pending.state.pending = some invocation ∧ (w'.phase i).undispatched = none := by
  cases h with
  | execute i' pending invocation' hphase hp =>
      obtain ⟨rfl, rfl⟩ := Prod.mk.inj (Option.some.inj ha)
      refine ⟨pending, by rw [hphase]; rfl, hp, ?_⟩
      rcases w.enter_cases i' (.executed pending) i' with ⟨hne, -⟩ | ⟨-, hnew⟩
      · exact absurd rfl hne
      · rw [hnew]
        rfl
  | _ => cases ha

theorem Step.proper (h : Step config w a w') (hproper : ∀ i, (w.phase i).Proper) (j : ι) :
    (w'.phase j).Proper := by
  have henter : ∀ (i : ι) (phase : Phase), phase.Proper → ((w.enter i phase).phase j).Proper := by
    intro i phase hp
    rcases w.enter_cases i phase j with ⟨-, hsame⟩ | ⟨-, hnew⟩
    · rw [hsame]
      exact hproper j
    · rwa [hnew]
  cases h with
  | propose i current pending observed now invocationId startedAt hphase h =>
      exact henter i _ (Orchestrator.propose_pending h)
  | complete i pending finished receipt output stop invocation now hphase hp h =>
      exact henter i _ ⟨invocation, receipt, _, now, stop, hp, h⟩
  | foreign call wrote store' h => exact hproper j
  | _ => exact henter _ _ trivial

/-! ## 4. The invariant -/

/-- Another party has committed the completion of an invocation of the unit. -/
def SettledElsewhere (run : List (Action ι)) (scope : ReviewScope)
    (invocationId : Identifier) : Prop :=
  ∃ call, .foreign call true ∈ run ∧ call.scope = scope ∧ HasCompleted call.updated invocationId

/-- What a run has handed to the executor, and by whom. -/
def executions (run : List (Action ι)) : List (ι × Invocation) :=
  run.filterMap Action.executed

/-- The invocation ids that a run has handed to the executor. -/
def executedIds (run : List (Action ι)) : List Identifier :=
  (executions run).map (·.2.invocationId)

/-- What a won reservation stands on. -/
structure Backed (config : ι → Orchestrator) (run : List (Action ι)) (w : World ι) (i : ι)
    (pending : ReviewSession) (invocation : Invocation) : Prop where
  waits : pending.state.pending = some invocation
  reserved : ReservedIn w.store (config i).scope invocation.invocationId
  stored : Stored w.store (config i).scope pending ∨
    SettledElsewhere run (config i).scope invocation.invocationId

/-- The invariant of the runs. -/
structure Disciplined (config : ι → Orchestrator) (run : List (Action ι)) (w : World ι) :
    Prop where
  chronicled : Chronicled w.store
  proper : ∀ i, (w.phase i).Proper
  backed : ∀ i pending, (w.phase i).right = some pending →
    ∃ invocation, Backed config run w i pending invocation
  alone : ∀ i j pending pending' invocation invocation',
    (w.phase i).right = some pending → (w.phase j).right = some pending' →
    pending.state.pending = some invocation → pending'.state.pending = some invocation' →
    invocation.invocationId = invocation'.invocationId → i = j
  recorded : ∀ i invocation, (i, invocation) ∈ executions run →
    ReservedIn w.store (config i).scope invocation.invocationId
  once : (executedIds run).Nodup
  unspent : ∀ i pending invocation, (w.phase i).undispatched = some pending →
    pending.state.pending = some invocation → invocation.invocationId ∉ executedIds run

omit [Sha256] [Pydantic] [ReviewDocuments] [DecidableEq ι] in
theorem executions_snoc (run : List (Action ι)) (a : Action ι) :
    executions (run ++ [a]) = executions run ++ a.executed.toList := by
  unfold executions
  rw [List.filterMap_append]
  cases h : a.executed with
  | none => simp [h]
  | some executed => simp [h]

omit [Sha256] [Pydantic] [ReviewDocuments] [DecidableEq ι] in
theorem executedIds_snoc (run : List (Action ι)) (a : Action ι) :
    executedIds (run ++ [a]) =
      executedIds run ++ a.executed.toList.map (·.2.invocationId) := by
  unfold executedIds
  rw [executions_snoc, List.map_append]

variable {run : List (Action ι)} {pending : ReviewSession}

theorem Step.reservedIn (h : Step config w a w') (hr : ReservedIn w.store scope invocationId) :
    ReservedIn w'.store scope invocationId := by
  rcases h.effect.commits with hsame | ⟨call, reading, kind, -, hc⟩
  · rwa [hsame]
  · exact hr.commit hc

/-- What waits for a call stays stored until another party settles the call. -/
theorem Disciplined.stored (h : Disciplined config run w) (hs : Step config w a w')
    (hright : (w.phase i).right = some pending) (hright' : (w'.phase i).right = some pending)
    (hp : pending.state.pending = some invocation)
    (hstored : Stored w.store (config i).scope pending) :
    Stored w'.store (config i).scope pending ∨
      SettledElsewhere (run ++ [a]) (config i).scope invocation.invocationId := by
  have hcompletes : ∀ (call : Call) (reading : Reading) (kind : TransitionKind),
      Committed w.store call reading kind w'.store → call.scope = (config i).scope →
      call.updated.state.pending = none ∧ ∃ earlier completion,
        call.updated.attempts = earlier ++ [⟨invocation, some completion⟩] := by
    intro call reading kind hc hscope
    rw [← hscope] at hstored
    have hcurrent := hc.read h.chronicled hstored
    have hlegal := legal_of_extension hc.wrote.extension
    have hne := hc.changed
    rw [hcurrent] at hlegal hne
    exact hlegal.of_pending hne hp
  cases hs.effect with
  | none hsame =>
      left
      rwa [hsame]
  | reserve j pending' hwon =>
      obtain ⟨current, clock, reading, kind, -, hphase, hc⟩ := hwon
      by_cases hscope : (config i).scope = (config j).scope
      · have hproper := h.proper j
        rw [hphase] at hproper
        obtain ⟨invocation', hp'⟩ := hproper
        have hnone : pending'.state.pending = none := (hcompletes _ _ _ hc hscope.symm).1
        rw [hnone] at hp'
        cases hp'
      · exact Or.inl (hstored.other hc hscope)
  | settle j pending' finished clock reading kind hphase hidle hc =>
      by_cases hscope : (config i).scope = (config j).scope
      · -- the invocation that the call completes is its own
        have hproper := h.proper j
        rw [hphase] at hproper
        obtain ⟨invocation', receipt, output, now, stop, hp', hcomplete⟩ := hproper
        obtain ⟨earlier', pending'', completion', state, -, hp'', -, -, hfinished⟩ :=
          complete_of_completeInvocation hcomplete (ne_of_completeInvocation hp' hcomplete)
        obtain rfl := Option.some.inj (hp'.symm.trans hp'')
        obtain ⟨-, earlier, completion, hattempts⟩ := hcompletes _ _ _ hc hscope.symm
        have hattempts' : finished.attempts = earlier' ++ [⟨invocation', some completion'⟩] := by
          rw [hfinished]
        have hlast := (append_singleton_inj (hattempts.symm.trans hattempts')).2
        obtain ⟨rfl, -⟩ := ReviewAttempt.mk.inj hlast
        have hright'' : (w.phase j).right = some pending' := by
          rw [hphase]
          rfl
        obtain rfl := h.alone i j pending pending' _ _ hright hright'' hp hp' rfl
        rw [hidle] at hright'
        cases hright'
      · exact Or.inl (hstored.other hc hscope)
  | foreign call reading kind hc =>
      by_cases hscope : (config i).scope = call.scope
      · obtain ⟨-, earlier, completion, hattempts⟩ := hcompletes _ _ _ hc hscope.symm
        exact Or.inr ⟨call, List.mem_append_right _ List.mem_cons_self, hscope.symm,
          hasCompleted_last hattempts⟩
      · exact Or.inl (hstored.other hc hscope)

omit [Sha256] [Pydantic] [ReviewDocuments] [DecidableEq ι] in
theorem SettledElsewhere.snoc (h : SettledElsewhere run scope invocationId) (a : Action ι) :
    SettledElsewhere (run ++ [a]) scope invocationId := by
  obtain ⟨call, hmem, hx⟩ := h
  exact ⟨call, List.mem_append_left _ hmem, hx⟩

/-- A reservation that was kept. -/
theorem Backed.keep (hb : Backed config run w i pending invocation)
    (h : Disciplined config run w) (hs : Step config w a w')
    (hright : (w.phase i).right = some pending) (hright' : (w'.phase i).right = some pending) :
    Backed config (run ++ [a]) w' i pending invocation := by
  refine ⟨hb.waits, hs.reservedIn hb.reserved, ?_⟩
  rcases hb.stored with hstored | hsettled
  · exact h.stored hs hright hright' hb.waits hstored
  · exact Or.inr (hsettled.snoc a)

omit [DecidableEq ι] in
/-- A reservation that was won. -/
theorem Won.backed (hw : Won config w a w' i pending) (h : Disciplined config run w)
    (hread : ∀ call, a.offered = some call → call.updated.ReadsBack) :
    ∃ invocation, Backed config (run ++ [a]) w' i pending invocation ∧
      ∀ e ∈ w.store.events, e.invocationId ≠ some invocation.invocationId := by
  obtain ⟨current, clock, reading, kind, rfl, hphase, hc⟩ := hw
  have hproper := h.proper i
  rw [hphase] at hproper
  obtain ⟨invocation, hp⟩ := hproper
  obtain ⟨hreserved, hfresh⟩ := hc.reserves hp
  exact ⟨invocation, ⟨hp, hreserved, Or.inl (hc.stored h.chronicled (hread _ rfl))⟩, hfresh⟩

/-- The reservations after a step. -/
theorem Step.right (hs : Step config w a w') (hright : (w'.phase i).right = some pending) :
    (w.phase i).right = some pending ∨ Won config w a w' i pending := by
  rcases hs.keeps i with hkeeps | ⟨pending', hwon, hphase⟩
  · exact Or.inl (hkeeps.right _ hright)
  · rw [hphase] at hright
    obtain rfl := Option.some.inj hright
    exact Or.inr hwon

omit [DecidableEq ι] in
/-- Whose reservation is won has an id that no reservation kept has. -/
theorem Won.distinct (hw : Won config w a w' i pending) (h : Disciplined config run w)
    (hread : ∀ call, a.offered = some call → call.updated.ReadsBack)
    {pending' : ReviewSession} {invocation' : Invocation}
    (hright : (w.phase j).right = some pending') (hp : pending.state.pending = some invocation)
    (hp' : pending'.state.pending = some invocation') :
    invocation.invocationId ≠ invocation'.invocationId := by
  obtain ⟨won, hbacked, hfresh⟩ := hw.backed h hread
  obtain rfl := Option.some.inj (hbacked.waits.symm.trans hp)
  obtain ⟨kept, hkept⟩ := h.backed j pending' hright
  obtain rfl := Option.some.inj (hkept.waits.symm.trans hp')
  obtain ⟨e, he, -, -, hid⟩ := hkept.reserved
  intro hsame
  exact hfresh e he (by rw [hid, hsame])

omit [DecidableEq ι] in
theorem Disciplined.executed_reserved (h : Disciplined config run w)
    (hid : invocationId ∈ executedIds run) :
    ∃ e ∈ w.store.events, e.invocationId = some invocationId := by
  obtain ⟨⟨i, invocation⟩, hmem, rfl⟩ := List.mem_map.mp hid
  obtain ⟨e, he, -, -, hx⟩ := h.recorded i invocation hmem
  exact ⟨e, he, hx⟩

theorem Disciplined.alone_step (h : Disciplined config run w) (hs : Step config w a w')
    (hread : ∀ call, a.offered = some call → call.updated.ReadsBack)
    {pending' : ReviewSession} {invocation' : Invocation}
    (hright : (w'.phase i).right = some pending) (hright' : (w'.phase j).right = some pending')
    (hp : pending.state.pending = some invocation)
    (hp' : pending'.state.pending = some invocation')
    (hsame : invocation.invocationId = invocation'.invocationId) : i = j := by
  rcases hs.right hright with hkept | hwon
  · rcases hs.right hright' with hkept' | hwon'
    · exact h.alone i j pending pending' _ _ hkept hkept' hp hp' hsame
    · exact absurd hsame.symm (hwon'.distinct h hread hkept hp' hp)
  · rcases hs.right hright' with hkept' | hwon'
    · exact absurd hsame (hwon.distinct h hread hkept' hp hp')
    · obtain ⟨current, clock, reading, kind, rfl, -⟩ := hwon
      obtain ⟨current', clock', reading', kind', heq, -⟩ := hwon'
      exact (Action.reserve.inj heq).1

theorem Disciplined.recorded_step (h : Disciplined config run w) (hs : Step config w a w')
    (hmem : (i, invocation) ∈ executions (run ++ [a])) :
    ReservedIn w'.store (config i).scope invocation.invocationId := by
  rw [executions_snoc] at hmem
  refine hs.reservedIn ?_
  rcases List.mem_append.mp hmem with hmem | hmem
  · exact h.recorded i invocation hmem
  · obtain ⟨pending, hu, hp, -⟩ := hs.executes (Option.mem_toList.mp hmem)
    obtain ⟨reserved, hbacked⟩ := h.backed i pending (Phase.right_of_undispatched hu)
    obtain rfl := Option.some.inj (hbacked.waits.symm.trans hp)
    exact hbacked.reserved

theorem Disciplined.once_step (h : Disciplined config run w) (hs : Step config w a w') :
    (executedIds (run ++ [a])).Nodup := by
  rw [executedIds_snoc]
  cases ha : a.executed with
  | none => simpa using h.once
  | some executed =>
      obtain ⟨i, invocation⟩ := executed
      obtain ⟨pending, hu, hp, -⟩ := hs.executes ha
      refine List.nodup_append.mpr ⟨h.once, List.nodup_singleton _, fun x hx y hy heq => ?_⟩
      obtain rfl := List.mem_singleton.mp hy
      rw [heq] at hx
      exact h.unspent i pending invocation hu hp hx

theorem Disciplined.unspent_step (h : Disciplined config run w) (hs : Step config w a w')
    (hread : ∀ call, a.offered = some call → call.updated.ReadsBack)
    (hu : (w'.phase i).undispatched = some pending)
    (hp : pending.state.pending = some invocation) :
    invocation.invocationId ∉ executedIds (run ++ [a]) := by
  rw [executedIds_snoc]
  intro hmem
  rcases hs.keeps i with hkeeps | ⟨pending', hwon, hphase⟩
  · have hu₀ := hkeeps.undispatched _ hu
    rcases List.mem_append.mp hmem with hmem | hmem
    · exact h.unspent i pending invocation hu₀ hp hmem
    · -- dispatched now, by an orchestrator that holds nothing to dispatch after it
      obtain ⟨⟨j, invocation'⟩, hexecuted, hsame⟩ := List.mem_map.mp hmem
      obtain ⟨pending', hu', hp', hnone⟩ := hs.executes (Option.mem_toList.mp hexecuted)
      obtain rfl := h.alone i j pending pending' _ _ (Phase.right_of_undispatched hu₀)
        (Phase.right_of_undispatched hu') hp hp' hsame.symm
      rw [hnone] at hu
      cases hu
  · rw [hphase] at hu
    obtain rfl := Option.some.inj hu
    obtain ⟨won, hbacked, hfresh⟩ := hwon.backed h hread
    obtain rfl := Option.some.inj (hbacked.waits.symm.trans hp)
    obtain ⟨current, clock, reading, kind, rfl, -⟩ := hwon
    rcases List.mem_append.mp hmem with hmem | hmem
    · obtain ⟨e, he, hid⟩ := h.executed_reserved hmem
      exact hfresh e he hid
    · cases hmem

theorem Disciplined.step (h : Disciplined config run w) (hs : Step config w a w')
    (hread : ∀ call, a.offered = some call → call.updated.ReadsBack) :
    Disciplined config (run ++ [a]) w' where
  chronicled := by
    rcases hs.effect.commits with hsame | ⟨call, reading, kind, hcall, hc⟩
    · rw [hsame]
      exact h.chronicled
    · exact h.chronicled.commit hc (hread call hcall)
  proper := hs.proper h.proper
  backed := by
    intro i pending hright
    rcases hs.right hright with hkept | hwon
    · obtain ⟨invocation, hbacked⟩ := h.backed i pending hkept
      exact ⟨invocation, hbacked.keep h hs hkept hright⟩
    · obtain ⟨invocation, hbacked, -⟩ := hwon.backed h hread
      exact ⟨invocation, hbacked⟩
  alone := fun i j pending pending' invocation invocation' => h.alone_step hs hread
  recorded := fun i invocation => h.recorded_step hs
  once := h.once_step hs
  unspent := fun i pending invocation => h.unspent_step hs hread

theorem disciplined_start (h : (orchestration config).start w) : Disciplined config [] w := by
  obtain ⟨hsessions, hevents, hidle⟩ := h
  refine ⟨chronicled_empty hsessions hevents, fun i => ?_, fun i pending hr => ?_,
    fun i j pending pending' _ _ hr => ?_, fun i invocation hm => ?_, List.nodup_nil,
    fun i pending invocation hu => ?_⟩
  · rw [hidle]
    trivial
  · rw [hidle] at hr
    cases hr
  · rw [hidle] at hr
    cases hr
  · cases hm
  · rw [hidle] at hu
    cases hu

/-- Every run is disciplined, where what is offered to the store reads back. -/
theorem disciplined_of_trace (h : (orchestration config).Trace run w) :
    (∀ a ∈ run, ∀ call, a.offered = some call → call.updated.ReadsBack) →
      Disciplined config run w := by
  refine h.invariant (fun run w => (∀ a ∈ run, ∀ call, a.offered = some call →
    call.updated.ReadsBack) → Disciplined config run w) (fun w hw _ => disciplined_start hw)
    (fun run w a w' _ ih hs hread => ?_)
  exact (ih fun a ha => hread a (List.mem_append_left _ ha)).step hs
    (hread a (List.mem_append_right _ List.mem_cons_self))

/-! ## 5. The settlement of the dispatcher -/

omit [DecidableEq ι] in
/-- While nobody else has settled it, the dispatcher's completion is never told False. -/
theorem Disciplined.accepted (h : Disciplined config run w) {finished : ReviewSession}
    (hphase : w.phase i = .committing pending finished)
    (hp : pending.state.pending = some invocation)
    (hnobody : ¬ SettledElsewhere run (config i).scope invocation.invocationId)
    {clock : Moment} {wrote : Bool}
    (hanswer : compareAndReserve w.store ((config i).offer pending finished clock) =
      .ok (wrote, store')) : wrote = true := by
  have hright : (w.phase i).right = some pending := by
    rw [hphase]
    rfl
  obtain ⟨reserved, hbacked⟩ := h.backed i pending hright
  obtain rfl := Option.some.inj (hbacked.waits.symm.trans hp)
  have hstored := hbacked.stored.resolve_right hnobody
  have hproper := h.proper i
  rw [hphase] at hproper
  obtain ⟨invocation', receipt, output, now, stop, hp', hcomplete⟩ := hproper
  have hne := ne_of_completeInvocation hp' hcomplete
  rcases compareAndReserve_ok hanswer with ⟨-, -, reading, hopened, hdiffers⟩ | ⟨rfl, -⟩
  · obtain ⟨items, hitems⟩ := h.chronicled (config i).scope
    have hcurrent : reading.current = some pending :=
      (hitems.opened hopened).1.trans (hitems.stored_iff.mp hstored)
    rw [hcurrent] at hdiffers
    rcases hdiffers with hsame | hexpected
    · exact absurd (Option.some.inj hsame).symm hne
    · exact absurd rfl hexpected
  · rfl

end Dispatch

/-- **At-most-once dispatch**: in every run of any number of orchestrators and other parties
over one store, whatever ids they generate and wherever they crash, no invocation id is handed
to the executor twice; each was committed to the store, as a reservation of the unit, before it
was handed over; of the invocations handed over for a unit the store has recorded all, and at
most one of them is not settled there; and the dispatcher's settlement is accepted whenever the
store does not deny it and no other party has settled the invocation. -/
theorem dispatch_at_most_once [Sha256] [Pydantic] [ReviewDocuments] {ι : Type} [DecidableEq ι]
    {config : ι → Orchestrator} {run : List (Action ι)} {w : World ι}
    (h : (orchestration config).Trace run w)
    (hread : ∀ a ∈ run, ∀ call, a.offered = some call → call.updated.ReadsBack) :
    (executedIds run).Nodup ∧
    (∀ earlier i invocation, earlier ++ [.execute i invocation] <+: run →
      ∃ w₀ w₁, (orchestration config).Trace earlier w₀ ∧
        Step config w₀ (.execute i invocation) w₁ ∧
        (orchestration config).Trace (earlier ++ [.execute i invocation]) w₁ ∧
        ReservedIn w₀.store (config i).scope invocation.invocationId) ∧
    (∀ i j invocation invocation', (i, invocation) ∈ executions run →
      (j, invocation') ∈ executions run → (config i).scope = (config j).scope →
      ∃ session, Stored w.store (config i).scope session ∧
        (∃ a ∈ session.attempts, a.invocation.invocationId = invocation.invocationId) ∧
        (¬ HasCompleted session invocation.invocationId →
          ¬ HasCompleted session invocation'.invocationId →
          invocation.invocationId = invocation'.invocationId)) ∧
    ∀ i pending finished invocation, w.phase i = .committing pending finished →
      pending.state.pending = some invocation →
      ¬ SettledElsewhere run (config i).scope invocation.invocationId →
      ∀ clock wrote store', compareAndReserve w.store ((config i).offer pending finished clock) =
        .ok (wrote, store') → wrote = true := by
  have hd := disciplined_of_trace h hread
  refine ⟨hd.once, fun earlier i invocation hp => ?_, fun i j invocation invocation' hi hj hs => ?_,
    fun i pending finished invocation hphase hp hnobody clock wrote store' =>
      hd.accepted hphase hp hnobody⟩
  · obtain ⟨w₀, w₁, h₀, hstep, h₁⟩ := h.takes hp
    have hbefore := disciplined_of_trace h₀ fun a ha => hread a
      (hp.subset (List.mem_append_left _ ha))
    obtain ⟨pending, hu, hpending, -⟩ := Step.executes hstep rfl
    obtain ⟨reserved, hbacked⟩ := hbefore.backed i pending (Phase.right_of_undispatched hu)
    obtain rfl := Option.some.inj (hbacked.waits.symm.trans hpending)
    exact ⟨w₀, w₁, h₀, hstep, h₁, hbacked.reserved⟩
  · obtain ⟨session, hstored, hrecorded, a, ha, hid⟩ :=
      hd.chronicled.attempted (hd.recorded i invocation hi)
    have hreserved' := hd.recorded j invocation' hj
    rw [← hs] at hreserved'
    obtain ⟨session', hstored', -, a', ha', hid'⟩ := hd.chronicled.attempted hreserved'
    obtain rfl : session = session' := by
      obtain ⟨items, hitems⟩ := hd.chronicled (config i).scope
      exact Option.some.inj ((hitems.stored_iff.mp hstored).symm.trans
        (hitems.stored_iff.mp hstored'))
    refine ⟨session, hstored, ⟨a, ha, hid⟩, fun hopen hopen' => ?_⟩
    -- both are the one call the session waits for
    rw [← hid] at hopen ⊢
    rw [← hid'] at hopen' ⊢
    have hsame := (hrecorded.pending_of_mem ha hopen).symm.trans
      (hrecorded.pending_of_mem ha' hopen')
    rw [Option.some.inj hsame]

/-! Two orchestrators which generate the same id: both propose, one wins and dispatches. -/

section Contention

variable [Sha256] [Pydantic] [ReviewDocuments]

variable {store created reserved : Store} {creation : Call} {current pending : ReviewSession}
  {call : Call} {observed : ArtifactRef} {now : Datetime} {clock : Moment}

/-- The steps of two orchestrators that both propose on one session, the first to reserve
dispatching. -/
def contention (o : Orchestrator) (creation : Call) (current pending : ReviewSession)
    (observed : ArtifactRef) (now : Datetime) (clock : Moment) (invocation : Invocation) :
    List (Action Bool) := [
  .foreign creation true, .load true, .load false,
  .propose true observed now invocation.invocationId now,
  .propose false observed now invocation.invocationId now,
  .reserve true (o.offer current pending clock), .reserve false (o.offer current pending clock),
  .clear true true observed now, .execute true invocation]

omit [Sha256] [Pydantic] [ReviewDocuments] in
theorem ok_of_toOption {ε α : Type} {x : Except ε α} {a : α} (h : x.toOption = some a) :
    x = .ok a := by
  cases x with
  | error e => cases h
  | ok b => exact congrArg Except.ok (Option.some.inj h)

theorem answer_of {wrote : Bool}
    (h : (compareAndReserve store call).toOption.map (·.1) = some wrote) :
    compareAndReserve store call = .ok (wrote, store.serve call) := by
  obtain ⟨answer, hanswer, rfl⟩ := Option.map_eq_some_iff.mp h
  have hok := ok_of_toOption hanswer
  unfold Store.serve
  rw [hok]

theorem refusal_of
    (h : (compareAndReserve store call).toOption.map (·.1) = some false) :
    compareAndReserve store call = .ok (false, store) := by
  have hanswer := answer_of h
  rcases compareAndReserve_ok hanswer with ⟨-, hsame, -⟩ | ⟨htrue, -⟩
  · rwa [hsame] at hanswer
  · cases htrue

theorem contention_trace (o : Orchestrator) (invocation : Invocation)
    (hstart : store.sessions = ∅ ∧ store.events = [])
    (hcreate : compareAndReserve store creation = .ok (true, created))
    (hload : o.current created = .ok current)
    (hpropose : o.propose current observed now invocation.invocationId now = .ok (some pending))
    (hreserve : compareAndReserve created (o.offer current pending clock) = .ok (true, reserved))
    (hrefuse : compareAndReserve reserved (o.offer current pending clock) =
      .ok (false, reserved))
    (hclear : dispatchStop pending true observed now = .ok none)
    (hp : pending.state.pending = some invocation) :
    ∃ w, (orchestration fun _ : Bool => o).Trace
      (contention o creation current pending observed now clock invocation) w := by
  have h₀ : (orchestration fun _ : Bool => o).Trace [] ⟨store, fun _ => .idle⟩ :=
    .start _ ⟨hstart.1, hstart.2, fun _ => rfl⟩
  have h₁ := h₀.step _ (Step.foreign _ creation true created hcreate)
  have h₂ := h₁.step _ (Step.load _ true current rfl hload)
  have h₃ := h₂.step _ (Step.load _ false current rfl hload)
  have h₄ := h₃.step _ (Step.propose _ true current pending _ _ _ _ rfl hpropose)
  have h₅ := h₄.step _ (Step.propose _ false current pending _ _ _ _ rfl hpropose)
  have h₆ := h₅.step _ (Step.reserve _ true current pending clock reserved rfl hreserve)
  have h₇ := h₆.step _ (Step.contended _ false current pending clock rfl hrefuse)
  have h₈ := h₇.step _ (Step.clear _ true pending true observed now rfl hclear)
  exact ⟨_, h₈.step _ (Step.execute _ true pending invocation rfl hp)⟩

end Contention

namespace Fixture

def orchestrator : Orchestrator where
  worker := worker
  scope := scope
  parentBudgetId := budgetId
  reservation := (invocation 0 .review "v1").reservation

def creation : Call := ⟨worker, scope, none, fresh, budgetId, clock 0⟩

def offered : Call := orchestrator.offer fresh held (clock 0)

def created : Store := provisioned.serve creation

def dispatching : Store := created.serve offered

theorem dispatch_steps :
    (compareAndReserve provisioned creation).toOption.map (·.1) = some true ∧
    (orchestrator.current created).toOption = some fresh ∧
    (orchestrator.propose fresh (artifact "v1") (clock 0).datetime (callId 0)
      (clock 0).datetime).toOption = some (some held) ∧
    (compareAndReserve created offered).toOption.map (·.1) = some true ∧
    (compareAndReserve dispatching offered).toOption.map (·.1) = some false ∧
    (dispatchStop held true (artifact "v1") (clock 0).datetime).toOption = some none := by
  decide +kernel

end Fixture

open Fixture in
theorem dispatch_once_contended :
    let run := contention orchestrator creation fresh held (artifact "v1") (clock 0).datetime
      (clock 0) (invocation 0 .review "v1")
    executedIds run = [callId 0] ∧ (executedIds run).Nodup := by
  intro run
  obtain ⟨hcreate, hload, hpropose, hreserve, hrefuse, hclear⟩ := dispatch_steps
  obtain ⟨w, h⟩ := contention_trace orchestrator (invocation 0 .review "v1") ⟨rfl, rfl⟩
    (answer_of hcreate) (ok_of_toOption hload) (ok_of_toOption hpropose) (answer_of hreserve)
    (refusal_of hrefuse) (ok_of_toOption hclear) rfl
  refine ⟨rfl, (dispatch_at_most_once h fun a ha call hcall => ?_).1⟩
  simp only [contention, List.mem_cons, List.not_mem_nil, or_false] at ha
  rcases ha with rfl | rfl | rfl | rfl | rfl | rfl | rfl | rfl | rfl
  · obtain rfl := Option.some.inj hcall
    rfl
  · cases hcall
  · cases hcall
  · cases hcall
  · cases hcall
  · obtain rfl := Option.some.inj hcall
    rfl
  · obtain rfl := Option.some.inj hcall
    rfl
  · cases hcall
  · cases hcall

end NokincFactory
