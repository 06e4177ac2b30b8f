/-
  File:      NokincFactory/Chat/InMemory.lean
  Subject:   The turns of a tenant over the store in memory: its lock makes the count and the
             append of a reservation one step.

  The threads are those of one process: another one has a store of its own.

  * `memoryProtocol`, `inMemory_follows`: the methods follow the lock;
  * `UnderLock`: who is between acquire and release holds the lock, and its count is still right;
  * `memory_step`: what one access does to it, and to the reservations.
-/
import NokincFactory.Application.InMemoryWorkflowStore
import NokincFactory.Chat.Metering

namespace NokincFactory

/-! ## 1. The methods -/

/-- The protocol of a turn of a tenant at the store in memory. -/
def memoryProtocol (tenantId : Identifier) (limit : ℕ) :
    Protocol MemoryAsk MemoryAsk.Answer TurnStage where
  allows s
    | .append key event => event.kind = .chatTurnReserved →
        key.1 = tenantId ∧ ∃ used, s = .counted used ∧ used < limit
    | .setEvents _ event => event.kind ≠ .chatTurnReserved
    | _ => True
  next s
    | .acquire, .ok _ => if s = .idle then .locked else s
    | .release, _ => s.settle
    | .countReserved counted, .ok (used : ℕ) =>
        if s = .locked ∧ counted = tenantId then .counted used else s
    | .append _ event, .ok _ =>
        if event.kind = .chatTurnReserved then .granted maxModelCallsPerTurn else s
    | _, _ => s

namespace InMemoryWorkflowStore

variable {tenantId : Identifier} {limit : ℕ} {s : TurnStage}

theorem follows_access {r : MemoryAsk} {Q : Except Failure r.Value → TurnStage → Prop} :
    (turnProtocol (memoryProtocol tenantId limit)).Follows s (access r) Q ↔
      (memoryProtocol tenantId limit).allows s r ∧
        ∀ a, Q a ((memoryProtocol tenantId limit).next s r a) :=
  and_congr_right fun _ => forall_congr' fun _ => Protocol.follows_ofExcept

/-- What runs under the lock, from a turn before its reservation. -/
theorem locked_idle {α : Type} {body : MemoryProg α} {Q : Except Failure α → TurnStage → Prop}
    (hfail : ∀ e, Q (.error e) .idle)
    (hbody : (turnProtocol (memoryProtocol tenantId limit)).Follows .locked body fun r s =>
      Q r s.settle ∧ ∀ e, Q (.error e) s.settle) :
    (turnProtocol (memoryProtocol tenantId limit)).Follows .idle (locked body) Q := by
  unfold locked
  refine Protocol.follows_bind.mpr (follows_access.mpr ⟨trivial, fun a => ?_⟩)
  cases a with
  | error e => exact hfail e
  | ok _ =>
      refine Protocol.follows_bind.mpr (Protocol.follows_attempt.mpr (hbody.weaken fun r s h => ?_))
      refine Protocol.follows_bind.mpr (follows_access.mpr ⟨trivial, fun a => ?_⟩)
      cases a with
      | error e => exact h.2 e
      | ok _ => exact Protocol.follows_ofExcept.mpr h.1

/-- What runs under the lock, from a turn with its reservation. -/
theorem locked_granted {α : Type} {n : ℕ} {body : MemoryProg α}
    (hbody : (turnProtocol (memoryProtocol tenantId limit)).Follows (.granted n) body
      fun _ s => s = .granted n) :
    (turnProtocol (memoryProtocol tenantId limit)).Follows (.granted n) (locked body)
      fun _ s => s = .granted n := by
  unfold locked
  refine Protocol.follows_bind.mpr (follows_access.mpr ⟨trivial, fun a => ?_⟩)
  cases a with
  | error e => rfl
  | ok _ =>
      refine Protocol.follows_bind.mpr (Protocol.follows_attempt.mpr (hbody.weaken fun r s h => ?_))
      rw [h]
      refine Protocol.follows_bind.mpr (follows_access.mpr ⟨trivial, fun a => ?_⟩)
      cases a with
      | error e => rfl
      | ok _ => exact Protocol.follows_ofExcept.mpr rfl

theorem quiet_ownItem (key : ItemKey) (actorId : Identifier) :
    Quiet (memoryProtocol tenantId limit) s (ownItem key actorId) :=
  Quiet.bind (follows_access.mpr ⟨trivial, fun _ => rfl⟩) fun _ => quiet_insist _ _

section Methods

variable [Sha256] [ChatLibraries]

omit [ChatLibraries] in
theorem createIntake_quiet (actorId : Identifier) (now : Datetime) (message : String)
    (repository : Option String) (repositories : List String)
    (analysisProfile : Option AnalysisProfile) :
    Quiet (memoryProtocol tenantId limit) .idle
      (createIntake tenantId actorId now message repository repositories analysisProfile) := by
  unfold createIntake
  refine (newIntake_follows actorId now message repository repositories analysisProfile).seq
    (fun _ _ h => h.2) ?_
  intro ⟨created, event⟩ s ⟨hkind, hs⟩
  rw [hs]
  have hintake : event.kind = .intake := hkind _ rfl
  refine Quiet.bind (locked_idle (fun _ => rfl) ?_) fun _ => quiet_pure _
  refine Quiet.then (follows_access.mpr ⟨trivial, fun _ => rfl⟩)
    (fun _ => ⟨rfl, fun _ => rfl⟩) fun _ => ?_
  refine follows_access.mpr ⟨?_, fun _ => ⟨rfl, fun _ => rfl⟩⟩
  show event.kind ≠ .chatTurnReserved
  rw [hintake]
  decide

omit [Sha256] [ChatLibraries] in
theorem get_quiet (workItemId : String) :
    Quiet (memoryProtocol tenantId limit) .idle (get tenantId workItemId) :=
  locked_idle (fun _ => rfl) (follows_access.mpr ⟨trivial, fun _ => ⟨rfl, fun _ => rfl⟩⟩)

omit [ChatLibraries] in
theorem recordChatTurn_follows (n : ℕ) (workItemId actorId : Identifier) (audit : ChatTurnAudit)
    (now : Datetime) :
    (turnProtocol (memoryProtocol tenantId limit)).Follows (.granted n)
      (recordChatTurn tenantId workItemId actorId audit now) fun _ _ => True := by
  unfold recordChatTurn
  refine (newEvent_follows workItemId actorId _ now).seq (fun _ _ _ => trivial) ?_
  intro event s ⟨hkind, hs⟩
  rw [hs]
  have hrecorded : event.kind ≠ .chatTurnReserved := by
    rw [(hkind event rfl).1]
    exact fun h => nomatch h
  refine (locked_granted ?_).seq (fun _ _ _ => trivial) fun _ _ _ => trivial
  refine Quiet.bind (quiet_ownItem _ _) fun _ => follows_access.mpr ⟨fun h => ?_, fun a => ?_⟩
  · exact absurd h hrecorded
  · cases a with
    | error e => rfl
    | ok _ =>
        show (if event.kind = .chatTurnReserved then _ else _) = _
        rw [if_neg hrecorded]

omit [Sha256] [ChatLibraries] in
/-- The check under the lock leaves a count below the limit. -/
theorem checkTurnLimit_follows :
    (turnProtocol (memoryProtocol tenantId limit)).Follows .locked
      (checkTurnLimit tenantId (some (limit : ℤ)))
      fun r s => r = .ok () → ∃ used, s = .counted used ∧ used < limit := by
  unfold checkTurnLimit
  refine Protocol.follows_bind.mpr (follows_access.mpr ⟨trivial, fun a => ?_⟩)
  cases a with
  | error e => exact fun h => nomatch h
  | ok used =>
      refine Protocol.follows_insist.mpr ⟨fun hbelow _ => ?_, fun _ h => nomatch h⟩
      exact ⟨used, if_pos ⟨rfl, rfl⟩, Int.ofNat_lt.mp hbelow⟩

omit [ChatLibraries] in
/-- The reservation: counted under the lock, and appended under it below the limit. -/
theorem reserveChatTurn_follows (workItemId actorId : Identifier)
    (reservation : ChatTurnReservation) (now : Datetime) :
    (turnProtocol (memoryProtocol tenantId limit)).Follows .idle
      (reserveChatTurn tenantId workItemId actorId reservation (some (limit : ℤ)) now)
      Reserves := by
  unfold reserveChatTurn
  refine (quiet_insist _ _).then (fun e => reserves_error e _) fun _ => ?_
  refine locked_idle (fun e => reserves_error e _) ?_
  have hfails : ∀ e s, Reserves (.error e) (TurnStage.settle s) ∧
      ∀ e, Reserves (.error e) (TurnStage.settle s) :=
    fun e s => ⟨reserves_error e _, fun e => reserves_error e _⟩
  refine (quiet_ownItem _ _).then (fun e => hfails e _) fun _ => ?_
  refine (checkTurnLimit_follows).seq (fun e s _ => hfails e s) ?_
  intro _ s hcounted
  obtain ⟨used, hs, hbelow⟩ := hcounted rfl
  rw [hs]
  refine (newEvent_follows workItemId actorId _ now).seq (fun e s _ => hfails e s) ?_
  intro event s ⟨hkind, hs⟩
  rw [hs]
  have hreserved : event.kind = .chatTurnReserved := (hkind event rfl).1
  refine Protocol.follows_bind.mpr (follows_access.mpr ⟨fun _ => ⟨rfl, used, rfl, hbelow⟩, ?_⟩)
  intro a
  cases a with
  | error e => exact hfails e _
  | ok _ =>
      refine Protocol.follows_pure.mpr ⟨fun _ _ => ?_, fun e => reserves_error e _⟩
      show TurnStage.settle (if event.kind = .chatTurnReserved then _ else _) = _
      rw [if_pos hreserved]
      rfl

theorem inMemory_follows : StoreFollows (memoryProtocol tenantId limit) inMemoryWorkflowStore
    tenantId limit where
  createIntake := createIntake_quiet
  get := get_quiet
  reserveChatTurn := reserveChatTurn_follows
  recordChatTurn := recordChatTurn_follows

end Methods

end InMemoryWorkflowStore

/-! ## 2. The lock -/

section Lock

variable {ι : Type} [DecidableEq ι] {tenant : ι → Identifier} {limit : ℕ} {m m' : Memory ι}
  {stage : ι → TurnStage}

/-- Whoever is between acquire and release holds the lock, and what it has counted is still the
number of reservations. -/
structure UnderLock (tenant : ι → Identifier) (m : Memory ι) (stage : ι → TurnStage) : Prop where
  locked : ∀ i, stage i = .locked → m.holder = some i
  counted : ∀ i used, stage i = .counted used →
    m.holder = some i ∧ used = (m.reserved (tenant i)).length
  committed : ∀ i, stage i ≠ .inserted

omit [DecidableEq ι] in
theorem underLock_start : UnderLock tenant (Memory.empty : Memory ι) fun _ => .idle :=
  ⟨nofun, nofun, nofun⟩

omit [DecidableEq ι] in
/-- An event of another kind reserves nothing. -/
theorem reserved_append {key : ItemKey} {event : WorkflowEvent} {requester : Option ι}
    {tenantId : Identifier} (h : key.1 = tenantId → event.kind ≠ .chatTurnReserved) :
    Memory.reserved { m with events := m.events ++ [⟨key, event, requester⟩] } tenantId =
      m.reserved tenantId := by
  unfold Memory.reserved
  have hnot : ¬ (key.1 = tenantId ∧ event.kind = .chatTurnReserved) := fun hp => h hp.1 hp.2
  rw [List.filter_append, List.filter_cons_of_neg (by simpa using hnot), List.filter_nil,
    List.append_nil]

omit [DecidableEq ι] in
theorem reserved_append_reserved {key : ItemKey} {event : WorkflowEvent} {requester : Option ι}
    (h : event.kind = .chatTurnReserved) :
    Memory.reserved { m with events := m.events ++ [⟨key, event, requester⟩] } key.1 =
      m.reserved key.1 ++ [⟨key, event, requester⟩] := by
  unfold Memory.reserved
  rw [List.filter_append, List.filter_cons_of_pos (by simpa using h), List.filter_nil]

/-- A step of one turn that leaves the lock and the reservations, and neither takes it under the
lock. -/
theorem UnderLock.keeps {i : ι} {s : TurnStage} (h : UnderLock tenant m stage)
    (hholder : ∀ j, j ≠ i → m.holder = some j → m'.holder = some j)
    (hcount : ∀ t, (m'.reserved t).length = (m.reserved t).length)
    (hlocked : s = .locked → m'.holder = some i)
    (hcounted : ∀ used, s = .counted used →
      m'.holder = some i ∧ used = (m'.reserved (tenant i)).length)
    (hcommitted : s ≠ .inserted) : UnderLock tenant m' (Function.update stage i s) := by
  refine ⟨fun j hj => ?_, fun j used hj => ?_, fun j => ?_⟩
  · by_cases hji : j = i
    · rw [hji, Function.update_self] at hj
      rw [hji]
      exact hlocked hj
    · rw [Function.update_of_ne hji] at hj
      exact hholder j hji (h.locked j hj)
  · by_cases hji : j = i
    · rw [hji, Function.update_self] at hj
      rw [hji]
      exact hcounted used hj
    · rw [Function.update_of_ne hji] at hj
      rw [hcount]
      exact ⟨hholder j hji (h.counted j used hj).1, (h.counted j used hj).2⟩
  · by_cases hji : j = i
    · rw [hji, Function.update_self]
      exact hcommitted
    · rw [Function.update_of_ne hji]
      exact h.committed j

/-- A step that leaves the stage of its turn too. -/
theorem UnderLock.stays {i : ι} (h : UnderLock tenant m stage) (hholder : m'.holder = m.holder)
    (hcount : ∀ t, (m'.reserved t).length = (m.reserved t).length) :
    UnderLock tenant m' (Function.update stage i (stage i)) := by
  rw [Function.update_eq_self]
  refine ⟨fun j hj => ?_, fun j used hj => ?_, h.committed⟩
  · rw [hholder]
    exact h.locked j hj
  · rw [hholder, hcount]
    exact h.counted j used hj

omit [DecidableEq ι] in
/-- Another turn is not under the lock while one holds it. -/
theorem UnderLock.alone {i j : ι} (h : UnderLock tenant m stage) (hi : m.holder = some i)
    (hj : j ≠ i) : stage j ≠ .locked ∧ ∀ used, stage j ≠ .counted used := by
  have hne : m.holder ≠ some j := fun e => hj (Option.some.inj (e.symm.trans hi))
  exact ⟨fun e => hne (h.locked j e), fun used e => hne (h.counted j used e).1⟩

/-- A turn that holds the lock leaves it, or gets its reservation under it. -/
theorem UnderLock.leaves {i : ι} {s : TurnStage} (h : UnderLock tenant m stage)
    (hi : m.holder = some i) (hs : s = .idle ∨ s.Granted) :
    UnderLock tenant m' (Function.update stage i s) := by
  have hnone : s ≠ .locked ∧ (∀ used, s ≠ .counted used) ∧ s ≠ .inserted := by
    rcases hs with hs | ⟨n, hs⟩
    · rw [hs]
      exact ⟨nofun, nofun, nofun⟩
    · rw [hs]
      exact ⟨nofun, nofun, nofun⟩
  refine ⟨fun j hj => ?_, fun j used hj => ?_, fun j => ?_⟩
  · by_cases hji : j = i
    · rw [hji, Function.update_self] at hj
      exact absurd hj hnone.1
    · rw [Function.update_of_ne hji] at hj
      exact absurd hj (h.alone hi hji).1
  · by_cases hji : j = i
    · rw [hji, Function.update_self] at hj
      exact absurd hj (hnone.2.1 used)
    · rw [Function.update_of_ne hji] at hj
      exact absurd hj ((h.alone hi hji).2 used)
  · by_cases hji : j = i
    · rw [hji, Function.update_self]
      exact hnone.2.2
    · rw [Function.update_of_ne hji]
      exact h.committed j

/-- Going back before a reservation claims nothing. -/
theorem UnderLock.settles {i : ι} (h : UnderLock tenant m stage) :
    UnderLock tenant m (Function.update stage i (stage i).settle) := by
  refine h.keeps (fun _ _ hj => hj) (fun _ => rfl) ?_ ?_ ?_
  · cases stage i <;> exact nofun
  · cases stage i <;> exact nofun
  · cases stage i <;> exact nofun

/-- The turns that reserved for a tenant. -/
def Memory.reservers (m : Memory ι) (tenantId : Identifier) : List (Option ι) :=
  (m.reserved tenantId).map (·.requester)

/-- What one access of a turn does. -/
theorem memory_step {tenantId : Identifier} {i : ι} {r : MemoryAsk} {a : r.Answer}
    (h : UnderLock tenant m stage) (hallows : (memoryProtocol (tenant i) limit).allows (stage i) r)
    (hanswers : Memory.Answers m i r a m') :
    UnderLock tenant m'
        (Function.update stage i ((memoryProtocol (tenant i) limit).next (stage i) r a)) ∧
      StoreEffect (tenant i = tenantId) limit i (m.reservers tenantId) (m'.reservers tenantId)
        (stage i) ((memoryProtocol (tenant i) limit).next (stage i) r a) := by
  cases hanswers with
  | acquire hfree =>
      have hholder : ∀ j, j ≠ i → m.holder = some j → some i = some j := by
        intro j hj hm
        rcases hfree with hnone | hsome
        · rw [hnone] at hm
          cases hm
        · exact absurd (Option.some.inj (hm.symm.trans hsome)) hj
      show UnderLock tenant _
        (Function.update stage i (if stage i = .idle then .locked else stage i)) ∧
        StoreEffect _ limit i _ _ _ (if stage i = .idle then .locked else stage i)
      by_cases hidle : stage i = .idle
      · rw [if_pos hidle]
        exact ⟨h.keeps hholder (fun _ => rfl) (fun _ => rfl) nofun nofun,
          effect_same rfl (Nat.zero_le _)⟩
      · rw [if_neg hidle]
        refine ⟨h.keeps hholder (fun _ => rfl) (fun _ => rfl) (fun used hused => ?_)
          (h.committed i), effect_same rfl le_rfl⟩
        exact ⟨rfl, (h.counted i used hused).2⟩
  | release hheld =>
      show UnderLock tenant _ (Function.update stage i (stage i).settle) ∧
        StoreEffect _ limit i _ _ _ (stage i).settle
      refine ⟨h.leaves hheld ?_, effect_same rfl (TurnStage.left_settle _).le⟩
      cases stage i with
      | granted n => exact .inr ⟨n, rfl⟩
      | idle => exact .inl rfl
      | locked => exact .inl rfl
      | counted used => exact .inl rfl
      | inserted => exact .inl rfl
  | item key => exact ⟨h.stays rfl fun _ => rfl, effect_same rfl le_rfl⟩
  | setItem key item => exact ⟨h.stays rfl fun _ => rfl, effect_same rfl le_rfl⟩
  | setEvents key event hnew =>
      have hsame : ∀ t, Memory.reserved { m with events := m.events ++ [⟨key, event, some i⟩] } t =
          m.reserved t := fun t => reserved_append fun _ => hallows
      refine ⟨h.stays rfl fun t => by rw [hsame], effect_same ?_ le_rfl⟩
      unfold Memory.reservers
      rw [hsame]
  | countReserved counted =>
      show UnderLock tenant m (Function.update stage i
          (if stage i = .locked ∧ counted = tenant i then _ else stage i)) ∧
        StoreEffect _ limit i _ _ _ (if stage i = .locked ∧ counted = tenant i then _ else stage i)
      by_cases hlocked : stage i = .locked ∧ counted = tenant i
      · rw [if_pos hlocked, hlocked.2]
        refine ⟨h.keeps (fun _ _ hj => hj) (fun _ => rfl) nofun (fun used hused => ?_) nofun,
          effect_same rfl (Nat.zero_le _)⟩
        cases hused
        exact ⟨h.locked i hlocked.1, rfl⟩
      · rw [if_neg hlocked]
        exact ⟨h.stays rfl fun _ => rfl, effect_same rfl le_rfl⟩
  | append key event =>
      show UnderLock tenant _ (Function.update stage i
          (if event.kind = .chatTurnReserved then _ else stage i)) ∧
        StoreEffect _ limit i _ _ _ (if event.kind = .chatTurnReserved then _ else stage i)
      by_cases hkind : event.kind = .chatTurnReserved
      · obtain ⟨hkey, used, hcounted, hbelow⟩ := hallows hkind
        obtain ⟨hheld, hused⟩ := h.counted i used hcounted
        rw [if_pos hkind]
        refine ⟨h.leaves hheld (.inr ⟨_, rfl⟩), ?_⟩
        by_cases hown : tenant i = tenantId
        · refine .inr ⟨?_, ?_, Nat.le_add_left _ _⟩
          · unfold Memory.reservers
            rw [← hown, ← hkey, reserved_append_reserved hkind, List.map_append]
            rfl
          · unfold Memory.reservers
            rw [List.length_map, ← hown, ← hused]
            exact hbelow
        · refine .inl ⟨?_, fun h => absurd h hown⟩
          unfold Memory.reservers
          rw [reserved_append fun e => absurd (hkey.symm.trans e) hown]
      · rw [if_neg hkind]
        have hsame : ∀ t, Memory.reserved
            { m with events := m.events ++ [⟨key, event, some i⟩] } t = m.reserved t :=
          fun t => reserved_append fun _ => hkind
        refine ⟨h.stays rfl fun t => by rw [hsame], effect_same ?_ le_rfl⟩
        unfold Memory.reservers
        rw [hsame]
  | tenantItems other => exact ⟨h.stays rfl fun _ => rfl, effect_same rfl le_rfl⟩
  | events key => exact ⟨h.stays rfl fun _ => rfl, effect_same rfl le_rfl⟩
  | fails r e =>
      cases r with
      | release => exact ⟨h.settles, effect_same rfl (TurnStage.left_settle _).le⟩
      | acquire => exact ⟨h.stays rfl fun _ => rfl, effect_same rfl le_rfl⟩
      | item key => exact ⟨h.stays rfl fun _ => rfl, effect_same rfl le_rfl⟩
      | setItem key item => exact ⟨h.stays rfl fun _ => rfl, effect_same rfl le_rfl⟩
      | setEvents key event => exact ⟨h.stays rfl fun _ => rfl, effect_same rfl le_rfl⟩
      | countReserved counted => exact ⟨h.stays rfl fun _ => rfl, effect_same rfl le_rfl⟩
      | append key event => exact ⟨h.stays rfl fun _ => rfl, effect_same rfl le_rfl⟩
      | tenantItems other => exact ⟨h.stays rfl fun _ => rfl, effect_same rfl le_rfl⟩
      | events key => exact ⟨h.stays rfl fun _ => rfl, effect_same rfl le_rfl⟩

omit [DecidableEq ι] in
/-- The other methods reserve nothing. -/
theorem memory_change {tenantId : Identifier} (h : UnderLock tenant m stage)
    (hchanges : Memory.Changes m m') :
    UnderLock tenant m' stage ∧ m'.reservers tenantId = m.reservers tenantId := by
  cases hchanges with
  | append key event hkind =>
      have hother : event.kind ≠ .chatTurnReserved := by
        rcases hkind with hkind | hkind
        · rw [hkind]
          decide
        · rw [hkind]
          decide
      have hsame : ∀ t, Memory.reserved { m with events := m.events ++ [⟨key, event, none⟩] } t =
          m.reserved t := fun t => reserved_append fun _ => hother
      refine ⟨⟨h.locked, fun i used hi => ?_, h.committed⟩, ?_⟩
      · rw [hsame]
        exact h.counted i used hi
      · unfold Memory.reservers
        rw [hsame]

omit [DecidableEq ι] in
/-- No access takes an event away. -/
theorem memory_keeps {i : ι} {r : MemoryAsk} {a : r.Answer} (h : Memory.Answers m i r a m') :
    m.events <+: m'.events := by
  cases h with
  | setEvents key event hnew => exact List.prefix_append _ _
  | append key event => exact List.prefix_append _ _
  | acquire => exact List.prefix_rfl
  | release => exact List.prefix_rfl
  | item => exact List.prefix_rfl
  | setItem => exact List.prefix_rfl
  | countReserved => exact List.prefix_rfl
  | tenantItems => exact List.prefix_rfl
  | events => exact List.prefix_rfl
  | fails => exact List.prefix_rfl

end Lock

/-! ## 3. The turns -/

section Turns

variable {ι : Type} [DecidableEq ι] [Sha256] [ChatLibraries]

/-- Runs from a new store. -/
def memorySurroundings : Surroundings ι MemoryAsk MemoryAsk.Answer (Memory ι) where
  start m := m = Memory.empty
  answers := Memory.Answers
  changes := Memory.Changes

theorem inMemory_orderly {turns : ι → ChatTurn} {tenantId : Identifier} {limit : ℕ}
    (hlimit : ∀ i, (turns i).settings.chatModelTurnLimit = some limit)
    {run : List (Deed ι (ChatAsk MemoryAsk) (ChatAsk.Answer MemoryAsk.Answer))}
    {s : Memory ι × (ι → MemoryProg IntakeResponse)}
    (h : (chatting memorySurroundings inMemoryWorkflowStore turns).Trace run s) :
    Surroundings.Orderly
      (fun i => turnProtocol (memoryProtocol (turns i).current.tenantId limit))
      (fun run m stage => UnderLock (fun i => (turns i).current.tenantId) m stage ∧
        Metered turns tenantId limit (m.reservers tenantId) run stage) run s := by
  refine metered_turns (fun m => m.reservers tenantId) hlimit
    (fun i => InMemoryWorkflowStore.inMemory_follows) ?_ ?_ ?_ ?_ h
  · intro m hm
    rw [show m = Memory.empty from hm]
    exact ⟨underLock_start, Nat.zero_le _⟩
  · intro m stage i hlock hleft
    cases hi : stage i with
    | granted n =>
        refine hlock.keeps (fun _ _ hj => hj) (fun _ => rfl) ?_ ?_ ?_
        · exact fun h => nomatch h
        · exact fun _ h => nomatch h
        · exact fun h => nomatch h
    | idle => rw [hi] at hleft; cases hleft
    | locked => rw [hi] at hleft; cases hleft
    | counted used => rw [hi] at hleft; cases hleft
    | inserted => rw [hi] at hleft; cases hleft
  · intro m stage i request answer m' hlock hallows hanswers
    exact memory_step hlock hallows hanswers
  · intro m stage m' hlock hchanges
    exact memory_change hlock hchanges

end Turns

end NokincFactory
