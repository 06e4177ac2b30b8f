/-
  File:      NokincFactory/Workflow/InMemory.lean
  Subject:   The store in memory keeps a journal.

  One caller at a time; the threads of a chat are in `Chat/InMemory.lean`.

  * `Memory.Keeps`: a memory that keeps a journal;
  * `run_locked`, `run_append`, `inMemory_checked`: what runs under the free lock;
  * `Memory.refines`: a call returns, or raises, and records what the journal says.
-/
import NokincFactory.Workflow.Journal

namespace NokincFactory

/-! ## 1. Memories -/

/-- A memory that keeps a journal. -/
structure Memory.Keeps (m : Memory Unit) (l : Journal) : Prop where
  free : m.holder = none
  items : m.items.entries = (l.items.map fun i => ⟨i.key, i⟩).reverse
  events : m.events = l.events.map fun e => ⟨e.key, e, some ()⟩

namespace Memory.Keeps

variable {m : Memory Unit} {l : Journal} {drawn : List Uuid}

theorem lookup [ChatLibraries] (hk : m.Keeps l) (hl : l.Sound drawn) (key : ItemKey) :
    AList.lookup key m.items = l.find key := by
  refine Option.ext fun item => ?_
  rw [← Option.mem_def, AList.mem_lookup_iff, hk.items, List.mem_reverse, List.mem_map,
    Journal.find_eq_some hl]
  constructor
  · intro ⟨i, hi, hsame⟩
    cases hsame
    exact ⟨hi, rfl⟩
  · intro ⟨hi, hkey⟩
    exact ⟨item, hi, by rw [hkey]⟩

theorem eventsAt (hk : m.Keeps l) (key : ItemKey) : m.eventsAt key = l.trace key := by
  unfold Memory.eventsAt Journal.trace
  rw [hk.events, List.filter_map, List.map_map]
  exact List.map_id _

theorem tenantItems (hk : m.Keeps l) (tenantId : Identifier) :
    m.tenantItems tenantId = l.items.filter (·.tenantId = tenantId) := by
  unfold Memory.tenantItems
  rw [hk.items, List.filterMap_reverse, List.reverse_reverse, List.filterMap_map]
  induction l.items with
  | nil => rfl
  | cons i items ih =>
      rw [List.filterMap_cons, List.filter_cons]
      by_cases hi : i.tenantId = tenantId
      · simp [WorkflowItem.key, hi] at ih ⊢
        exact ih
      · simp [WorkflowItem.key, hi] at ih ⊢
        exact ih

theorem reserved (hk : m.Keeps l) (tenantId : Identifier) :
    (m.reserved tenantId).length = (l.reserved tenantId).length := by
  unfold Memory.reserved Journal.reserved
  rw [hk.events, List.filter_map, List.length_map]
  rfl

/-- The lock is free again. -/
theorem released (hk : m.Keeps l) : { m with holder := none } = m := by
  rw [← hk.free]

theorem append (hk : m.Keeps l) (event : WorkflowEvent) :
    Memory.Keeps { m with holder := none, events := m.events ++ [⟨event.key, event, some ()⟩] }
      { l with events := l.events ++ [event] } where
  free := rfl
  items := hk.items
  events := by
    dsimp only
    rw [hk.events, List.map_append]
    rfl

end Memory.Keeps

section InMemory

open InMemoryWorkflowStore

variable {m : Memory Unit} {l : Journal} {drawn supply rest : List Uuid} {α : Type}

/-- The memory while the caller holds the lock. -/
def held (m : Memory Unit) : Memory Unit := { m with holder := some () }

/-- The memory with one more event, and a free lock. -/
def recorded (m : Memory Unit) (event : WorkflowEvent) : Memory Unit :=
  { m with holder := none, events := m.events ++ [⟨event.key, event, some ()⟩] }

theorem run_access {r : MemoryAsk} {a : r.Answer} {m' : Memory Unit} (h : m.answer r = (a, m')) :
    (access r).run (serially Memory.answer) (m, supply) = (a, (m', supply)) := by
  show (Prog.ofExcept (m.answer r).1).run (serially Memory.answer) ((m.answer r).2, supply) = _
  rw [Prog.run_ofExcept, h]

/-- What runs under a free lock. -/
theorem run_locked {body : MemoryProg α} (m' : Memory Unit) {r : Except Failure α}
    (hbody : body.run (serially Memory.answer) (held m, supply) = (r, (held m', rest))) :
    (locked body).run (serially Memory.answer) (m, supply) =
      (r, ({ m' with holder := none }, rest)) := by
  have hacquire : m.answer .acquire = (.ok (), held m) := rfl
  have hrelease : (held m').answer .release = (.ok (), { m' with holder := none }) := by
    simp [Memory.answer, held]
  unfold locked
  rw [Prog.run_bind_ok _ _ (run_access hacquire), Prog.run_bind_ok _ _ (Prog.run_attempt _ _ _),
    hbody, Prog.run_bind_ok _ _ (run_access hrelease)]
  exact Prog.run_ofExcept _ _ _

/-- An event for a list that is there. -/
theorem run_append {key : ItemKey} {event : WorkflowEvent} (hevent : event.key = key)
    (hkey : ∃ e ∈ m.events, e.key = key) :
    (access (.append key event)).run (serially Memory.answer) (held m, supply) =
      (.ok (), (held (recorded m event), supply)) := by
  subst hevent
  exact run_access (if_pos hkey)

/-- No such list. -/
theorem run_missing {key : ItemKey} {event : WorkflowEvent}
    (hkey : ¬ ∃ e ∈ m.events, e.key = key) :
    (access (.append key event)).run (serially Memory.answer) (held m, supply) =
      (.error .other, (held m, supply)) :=
  run_access (if_neg hkey)

/-- A new item, and its first event. -/
theorem run_opens (key : ItemKey) (item : WorkflowItem) (event : WorkflowEvent) :
    (locked (do access (.setItem key item); access (.setEvents key event))).run
        (serially Memory.answer) (m, supply) =
      (.ok (), ({ m with
        holder := none
        items := AList.insert key item m.items
        events := m.events.filter (·.key ≠ key) ++ [⟨key, event, some ()⟩] }, supply)) := by
  refine run_locked { m with
    items := AList.insert key item m.items
    events := m.events.filter (·.key ≠ key) ++ [⟨key, event, some ()⟩] } ?_
  rw [Prog.run_bind_ok _ _ (run_access rfl)]
  exact run_access rfl

variable [ChatLibraries]

theorem run_storedItem (supply : List Uuid) (hk : m.Keeps l) (hl : l.Sound drawn) (key : ItemKey) :
    (storedItem key).run (serially Memory.answer) (held m, supply) =
      (if (l.find key).isSome = true then .ok () else .error (.value "Work item not found"),
        (held m, supply)) := by
  unfold storedItem
  rw [Prog.run_bind_ok _ _ (run_access rfl)]
  show (Prog.insist ((AList.lookup key m.items).isSome = true) _).run _ _ = _
  rw [Prog.run_insist, hk.lookup hl]

theorem run_ownItem (supply : List Uuid) (hk : m.Keeps l) (hl : l.Sound drawn) (key : ItemKey)
    (actorId : Identifier) :
    (ownItem key actorId).run (serially Memory.answer) (held m, supply) =
      (if ∃ own ∈ l.find key, own.createdBy = actorId then .ok ()
        else .error (.value "Work item not found"), (held m, supply)) := by
  unfold ownItem
  rw [Prog.run_bind_ok _ _ (run_access rfl)]
  show (Prog.insist (∃ own ∈ AList.lookup key m.items, own.createdBy = actorId) _).run _ _ = _
  rw [Prog.run_insist, hk.lookup hl]

variable {first second : Uuid}

/-- What a journal says of a call, and what the method did. -/
def Memory.Did (expected : Option StoreResult × Journal)
    (ended : Except Failure StoreResult × (Memory Unit × List Uuid)) : Prop :=
  Matches expected.1 ended.1 ∧ ended.2.1.Keeps expected.2

omit [ChatLibraries] in
/-- A method that records an event, where there is one and it is allowed. -/
theorem inMemory_records (hk : m.Keeps l) {p : MemoryProg WorkflowEvent}
    {event : Option WorkflowEvent} {allowed : Prop} [Decidable allowed]
    (hok : ∀ e, event = some e → allowed → ∃ rest,
      p.run (serially Memory.answer) (m, supply) = (.ok e, (recorded m e, rest)))
    (herr : (∀ e, event = some e → ¬ allowed) → ∃ failure rest,
      p.run (serially Memory.answer) (m, supply) =
        (.error failure, ({ m with holder := none }, rest))) :
    Memory.Did (l.append event allowed)
      ((p >>= fun e => pure (.event e)).run (serially Memory.answer) (m, supply)) := by
  have hrefused : (∀ e, event = some e → ¬ allowed) →
      Memory.Did (none, l) ((p >>= fun e => pure (.event e)).run (serially Memory.answer)
        (m, supply)) := by
    intro h
    obtain ⟨failure, rest, hrun⟩ := herr h
    rw [Prog.run_bind_error _ _ hrun]
    refine ⟨trivial, ?_⟩
    rw [show ({ m with holder := none } : Memory Unit) = m from hk.released]
    exact hk
  unfold Journal.append
  cases event with
  | none => exact hrefused fun e he => nomatch he
  | some event =>
      dsimp only
      by_cases hallowed : allowed
      · obtain ⟨rest, hrun⟩ := hok event rfl hallowed
        rw [if_pos hallowed, Prog.run_bind_ok _ _ hrun]
        exact ⟨rfl, hk.append event⟩
      · rw [if_neg hallowed]
        exact hrefused fun _ _ => hallowed

omit [ChatLibraries] in
/-- An event that is made first, and then recorded under the lock. -/
theorem inMemory_made (hk : m.Keeps l) {make : MemoryProg WorkflowEvent}
    {event : Option WorkflowEvent} (hmake : Makes Memory.answer m event supply make)
    {body : WorkflowEvent → MemoryProg Unit} {allowed : Prop} [Decidable allowed]
    (hok : ∀ e, event = some e → allowed → ∀ rest,
      (body e).run (serially Memory.answer) (held m, rest) = (.ok (), (held (recorded m e), rest)))
    (herr : ∀ e, event = some e → ¬ allowed → ∀ rest, ∃ failure,
      (body e).run (serially Memory.answer) (held m, rest) = (.error failure, (held m, rest)))
    {p : MemoryProg WorkflowEvent} (hp : p = do
      let event ← make
      locked (body event)
      pure event) :
    Memory.Did (l.append event allowed)
      ((p >>= fun e => pure (.event e)).run (serially Memory.answer) (m, supply)) := by
  subst hp
  refine inMemory_records hk (fun e he hallowed => ?_) fun hnot => ?_
  · subst he
    obtain ⟨rest, hrun⟩ := hmake
    rw [Prog.run_bind_ok _ _ hrun, Prog.run_bind_ok _ _ (run_locked _ (hok e rfl hallowed rest))]
    exact ⟨rest, rfl⟩
  · cases event with
    | none =>
        obtain ⟨failure, rest, hrun⟩ := hmake
        rw [Prog.run_bind_error _ _ hrun, hk.released]
        exact ⟨failure, rest, rfl⟩
    | some e =>
        obtain ⟨rest, hrun⟩ := hmake
        obtain ⟨failure, hbody⟩ := herr e rfl (hnot e rfl) rest
        rw [Prog.run_bind_ok _ _ hrun, Prog.run_bind_error _ _ (run_locked _ hbody)]
        exact ⟨failure, rest, rfl⟩

omit [ChatLibraries] in
/-- The keys of the journal are the keys of the memory. -/
theorem Memory.Keeps.key_iff (hk : m.Keeps l) {key : ItemKey} :
    (∃ e ∈ m.events, e.key = key) ↔ ∃ e ∈ l.events, e.key = key := by
  rw [hk.events]
  constructor
  · intro ⟨e, he, hkey⟩
    obtain ⟨e', he', rfl⟩ := List.mem_map.mp he
    exact ⟨e', he', hkey⟩
  · intro ⟨e, he, hkey⟩
    exact ⟨_, List.mem_map_of_mem he, hkey⟩

/-- A check under the lock, and then the event for a list that is there. -/
theorem run_checked (hk : m.Keeps l) (hl : l.Sound drawn) {key : ItemKey} {event : WorkflowEvent}
    (hevent : event.key = key) {check : MemoryProg Unit} {allowed : Prop} [Decidable allowed]
    {failure : Failure}
    (hcheck : check.run (serially Memory.answer) (held m, supply) =
      (if allowed then .ok () else .error failure, (held m, supply)))
    (hitem : allowed → (l.find key).isSome = true) :
    (do check; access (.append key event) : MemoryProg Unit).run (serially Memory.answer)
        (held m, supply) =
      if allowed then (.ok (), (held (recorded m event), supply))
      else (.error failure, (held m, supply)) := by
  by_cases hallowed : allowed
  · rw [if_pos hallowed] at hcheck ⊢
    rw [Prog.run_bind_ok _ _ hcheck]
    exact run_append hevent (hk.key_iff.mpr ((Journal.exists_event_iff hl).mpr (hitem hallowed)))
  · rw [if_neg hallowed] at hcheck ⊢
    rw [Prog.run_bind_error _ _ hcheck]

/-- The memory with a new item and its first event. -/
theorem Memory.Keeps.opens (hk : m.Keeps l) (hl : l.Sound drawn) {key : ItemKey}
    (hfind : l.find key = none) {item : WorkflowItem} {event : WorkflowEvent}
    (hitem : item.key = key) (hevent : event.key = key) :
    Memory.Keeps { m with
      holder := none
      items := AList.insert key item m.items
      events := m.events.filter (·.key ≠ key) ++ [⟨key, event, some ()⟩] }
      ⟨l.items ++ [item], l.events ++ [event]⟩ where
  free := rfl
  items := by
    have hnew : key ∉ m.items := AList.lookup_eq_none.mp ((hk.lookup hl _).trans hfind)
    dsimp only
    rw [AList.entries_insert_of_notMem hnew, hk.items, List.map_append, List.reverse_append,
      ← hitem]
    rfl
  events := by
    have hnone : ¬ ∃ e ∈ l.events, e.key = key := by
      rw [Journal.exists_event_iff hl, hfind]
      exact Bool.false_ne_true
    have hall : m.events.filter (·.key ≠ key) = m.events := by
      refine List.filter_eq_self.mpr fun e he => decide_eq_true fun hsame => hnone ?_
      rw [hk.events] at he
      obtain ⟨e', he', rfl⟩ := List.mem_map.mp he
      exact ⟨e', he', hsame⟩
    dsimp only
    rw [hall, hk.events, List.map_append, ← hevent]
    rfl

variable [Sha256]

theorem inMemory_createIntake (hk : m.Keeps l) (hl : l.Sound drawn) (hfirst : first ∉ drawn)
    (tenantId actorId : Identifier) (now : Datetime) (message : String)
    (repository : Option String) (repositories : List String)
    (analysisProfile : Option AnalysisProfile) :
    Memory.Did (l.serve (.createIntake tenantId actorId now message repository repositories
        analysisProfile) first second)
      ((createIntake tenantId actorId now message repository repositories analysisProfile >>=
        fun item => pure (.item item)).run (serially Memory.answer) (m, [first, second])) := by
  unfold createIntake Journal.serve StoreCall.newItem StoreCall.newEvent
  dsimp only
  cases hutc : utc now with
  | error e =>
      obtain ⟨failure, hrun⟩ := run_newIntake_error Memory.answer m first second tenantId actorId
        message repository repositories analysisProfile hutc
      rw [Prog.run_bind_error _ _ (Prog.run_bind_error _ _ hrun)]
      exact ⟨trivial, hk⟩
  | ok current =>
      have hrun := run_newIntake_ok Memory.answer m first second tenantId actorId message
        repository repositories analysisProfile hutc
      rw [eventAt_ok hutc, Prog.run_bind, Prog.run_bind_ok _ _ hrun]
      dsimp only
      rw [Prog.run_bind_ok _ _ (run_opens (tenantId, first.workItemId.text) _ _)]
      exact ⟨rfl, hk.opens hl (Journal.find_fresh hl hfirst tenantId) rfl rfl⟩

theorem inMemory_recordGroundedAnalysis (hk : m.Keeps l) (hl : l.Sound drawn)
    (tenantId workItemId actorId : Identifier) (analysis : GroundedAnalysisAudit) (now : Datetime) :
    Memory.Did (l.serve (.recordGroundedAnalysis tenantId workItemId actorId analysis now) first
        second)
      ((recordGroundedAnalysis tenantId workItemId actorId analysis now >>=
        fun e => pure (.event e)).run (serially Memory.answer) (m, [first, second])) := by
  refine inMemory_made hk (makes_newEvent _ _ first second tenantId workItemId actorId _ now)
    (fun e he hfind rest => ?_) (fun e he hfind rest => ?_) rfl
  · exact (run_checked hk hl (key_eventAt he).1 (run_storedItem _ hk hl _) id).trans (if_pos hfind)
  · exact ⟨_, (run_checked hk hl (key_eventAt he).1 (run_storedItem _ hk hl _) id).trans
      (if_neg hfind)⟩

theorem inMemory_recordChatTurn (hk : m.Keeps l) (hl : l.Sound drawn)
    (tenantId workItemId actorId : Identifier) (audit : ChatTurnAudit) (now : Datetime) :
    Memory.Did (l.serve (.recordChatTurn tenantId workItemId actorId audit now) first second)
      ((recordChatTurn tenantId workItemId actorId audit now >>=
        fun e => pure (.event e)).run (serially Memory.answer) (m, [first, second])) := by
  refine inMemory_made hk (makes_newEvent _ _ first second tenantId workItemId actorId _ now)
    (fun e he hown rest => ?_) (fun e he hown rest => ?_) rfl
  · exact (run_checked hk hl (key_eventAt he).1 (run_ownItem _ hk hl _ actorId)
      Journal.isSome_of_own).trans
      (if_pos hown)
  · exact ⟨_, (run_checked hk hl (key_eventAt he).1 (run_ownItem _ hk hl _ actorId)
      Journal.isSome_of_own).trans
      (if_neg hown)⟩

theorem inMemory_addGateRequest (hk : m.Keeps l) (hl : l.Sound drawn)
    (tenantId workItemId actorId : Identifier) (gate : String) (decision : GateDecision)
    (decisionDigest : String) (now : Datetime) :
    Memory.Did (l.serve (.addGateRequest tenantId workItemId actorId gate decision decisionDigest
        now) first second)
      ((addGateRequest tenantId workItemId actorId gate decision decisionDigest now >>=
        fun e => pure (.event e)).run (serially Memory.answer) (m, [first, second])) := by
  have hiff : (∃ e ∈ m.events, e.key = (tenantId, workItemId.text)) ↔
      (l.find (tenantId, workItemId.text)).isSome = true :=
    hk.key_iff.trans (Journal.exists_event_iff hl)
  refine inMemory_made hk (makes_newGateRequest _ _ first second tenantId workItemId actorId gate
    decision decisionDigest now) (fun e he hfind rest => ?_) (fun e he hfind rest => ?_) rfl
  · exact run_append (key_eventAt he).1 (hiff.mpr hfind)
  · exact ⟨_, run_missing (mt hiff.mp hfind)⟩

omit [ChatLibraries] [Sha256] in
theorem run_checkTurnLimit (supply : List Uuid) (hk : m.Keeps l) (tenantId : Identifier)
    (limit : Option ℤ) :
    (checkTurnLimit tenantId limit).run (serially Memory.answer) (held m, supply) =
      (if ∀ bound ∈ limit, ((l.reserved tenantId).length : ℤ) < bound then .ok ()
        else .error (.turnLimit "Tenant chat-turn limit exhausted"), (held m, supply)) := by
  cases limit with
  | none =>
      rw [if_pos fun bound h => nomatch h]
      rfl
  | some bound =>
      have hused : ((held m).reserved tenantId).length = (l.reserved tenantId).length :=
        hk.reserved tenantId
      unfold checkTurnLimit
      rw [Prog.run_bind_ok _ _ (run_access rfl), Prog.run_insist, hused]
      simp

omit [Sha256] in
/-- The reservation under the lock: its checks, and the event that they allow. -/
theorem run_reservation (first second : Uuid) (hk : m.Keeps l) (hl : l.Sound drawn)
    (tenantId workItemId actorId : Identifier) (payload : EventPayload) (limit : Option ℤ)
    (now : Datetime) {allowed : Prop} [Decidable allowed]
    (hallowed : allowed ↔ (∃ own ∈ l.find (tenantId, workItemId.text), own.createdBy = actorId) ∧
      ∀ bound ∈ limit, ((l.reserved tenantId).length : ℤ) < bound) :
    let body : MemoryProg WorkflowEvent := do
      ownItem (tenantId, workItemId.text) actorId
      checkTurnLimit tenantId limit
      let event ← newEvent tenantId workItemId actorId payload now
      access (.append (tenantId, workItemId.text) event)
      pure event
    (∀ e, eventAt first.eventId tenantId workItemId actorId payload now = some e → allowed →
      ∃ rest, body.run (serially Memory.answer) (held m, [first, second]) =
        (.ok e, (held (recorded m e), rest))) ∧
    ((∀ e, eventAt first.eventId tenantId workItemId actorId payload now = some e → ¬ allowed) →
      ∃ failure rest, body.run (serially Memory.answer) (held m, [first, second]) =
        (.error failure, (held m, rest))) := by
  intro body
  have hmake := makes_newEvent Memory.answer (held m) first second tenantId workItemId actorId
    payload now
  have howned := run_ownItem [first, second] hk hl (tenantId, workItemId.text) actorId
  have hchecked := run_checkTurnLimit [first, second] hk tenantId limit
  refine ⟨fun e he h => ?_, fun hnot => ?_⟩
  · obtain ⟨hown, hbelow⟩ := hallowed.mp h
    rw [if_pos hown] at howned
    rw [if_pos hbelow] at hchecked
    rw [he] at hmake
    obtain ⟨rest, hrun⟩ := hmake
    have hkey : ∃ e ∈ m.events, e.key = (tenantId, workItemId.text) := by
      exact hk.key_iff.mpr ((Journal.exists_event_iff hl).mpr (Journal.isSome_of_own hown))
    refine ⟨rest, ?_⟩
    rw [Prog.run_bind_ok _ _ howned, Prog.run_bind_ok _ _ hchecked, Prog.run_bind_ok _ _ hrun,
      Prog.run_bind_ok _ _ (run_append (key_eventAt he).1 hkey)]
    rfl
  · by_cases hown : ∃ own ∈ l.find (tenantId, workItemId.text), own.createdBy = actorId
    · rw [if_pos hown] at howned
      by_cases hbelow : ∀ bound ∈ limit, ((l.reserved tenantId).length : ℤ) < bound
      · rw [if_pos hbelow] at hchecked
        cases hevent : eventAt first.eventId tenantId workItemId actorId payload now with
        | some e => exact absurd (hallowed.mpr ⟨hown, hbelow⟩) (hnot e hevent)
        | none =>
            rw [hevent] at hmake
            obtain ⟨failure, rest, hrun⟩ := hmake
            refine ⟨failure, rest, ?_⟩
            rw [Prog.run_bind_ok _ _ howned, Prog.run_bind_ok _ _ hchecked,
              Prog.run_bind_error _ _ hrun]
      · rw [if_neg hbelow] at hchecked
        refine ⟨.turnLimit "Tenant chat-turn limit exhausted", [first, second], ?_⟩
        rw [Prog.run_bind_ok _ _ howned, Prog.run_bind_error _ _ hchecked]
    · rw [if_neg hown] at howned
      refine ⟨.value "Work item not found", [first, second], ?_⟩
      rw [Prog.run_bind_error _ _ howned]

theorem inMemory_reserveChatTurn (hk : m.Keeps l) (hl : l.Sound drawn)
    (tenantId workItemId actorId : Identifier) (reservation : ChatTurnReservation)
    (limit : Option ℤ) (now : Datetime) :
    Memory.Did (l.serve (.reserveChatTurn tenantId workItemId actorId reservation limit now) first
        second)
      ((reserveChatTurn tenantId workItemId actorId reservation limit now >>=
        fun e => pure (.event e)).run (serially Memory.answer) (m, [first, second])) := by
  have hbody := run_reservation first second hk hl tenantId workItemId
    actorId (.chatTurnReserved reservation) limit now Iff.rfl
  refine inMemory_records hk (fun e he hallowed => ?_) fun hnot => ?_
  · obtain ⟨rest, hrun⟩ := hbody.1 e he hallowed.2
    unfold reserveChatTurn
    rw [Prog.run_bind_ok _ _ ((Prog.run_insist _ _ _ _).trans (by rw [if_pos hallowed.1])),
      run_locked _ hrun]
    exact ⟨rest, rfl⟩
  · unfold reserveChatTurn
    by_cases hpositive : ∀ bound ∈ limit, 0 < bound
    · obtain ⟨failure, rest, hrun⟩ := hbody.2 fun e he h => hnot e he ⟨hpositive, h⟩
      rw [Prog.run_bind_ok _ _ ((Prog.run_insist _ _ _ _).trans (by rw [if_pos hpositive])),
        run_locked _ hrun]
      exact ⟨failure, rest, rfl⟩
    · rw [Prog.run_bind_error _ _ ((Prog.run_insist _ _ _ _).trans (by rw [if_neg hpositive])),
        hk.released]
      exact ⟨_, _, rfl⟩

omit [ChatLibraries] [Sha256] in
/-- A method that only reads. -/
theorem inMemory_reads (hk : m.Keeps l) {r : MemoryAsk} {a : r.Answer}
    (h : (held m).answer r = (a, held m)) :
    (locked (access r)).run (serially Memory.answer) (m, supply) = (a, (m, supply)) := by
  rw [run_locked m (run_access h), hk.released]

theorem Memory.Keeps.serve_get (hk : m.Keeps l) (hl : l.Sound drawn) (tenantId : Identifier)
    (workItemId : String) : m.serve (.get tenantId workItemId) first second =
      (.ok (.found (l.find (tenantId, workItemId))), m) := by
  have hrun : (InMemoryWorkflowStore.get tenantId workItemId).run (serially Memory.answer)
      (m, [first, second]) = (.ok (l.find (tenantId, workItemId)), (m, [first, second])) :=
    inMemory_reads hk (Prod.ext (congrArg Except.ok (hk.lookup hl _)) rfl)
  have hend := Prog.run_bind_ok (f := fun item => pure (StoreResult.found item)) _ _ hrun
  exact congrArg (fun ended => (ended.1, ended.2.1)) hend

theorem Memory.Keeps.serve_trace (hk : m.Keeps l) (tenantId : Identifier) (workItemId : String) :
    m.serve (.trace tenantId workItemId) first second =
      (.ok (.events (l.trace (tenantId, workItemId))), m) := by
  have hrun : (InMemoryWorkflowStore.trace tenantId workItemId).run (serially Memory.answer)
      (m, [first, second]) = (.ok (l.trace (tenantId, workItemId)), (m, [first, second])) :=
    inMemory_reads hk (Prod.ext (congrArg Except.ok (hk.eventsAt _)) rfl)
  have hend := Prog.run_bind_ok (f := fun events => pure (StoreResult.events events)) _ _ hrun
  exact congrArg (fun ended => (ended.1, ended.2.1)) hend

/-- The store in memory does what the journal says. -/
theorem Memory.refines (hk : m.Keeps l) (hl : l.Sound drawn) (hfirst : first ∉ drawn)
    (call : StoreCall) :
    Matches (l.serve call first second).1 (m.serve call first second).1 ∧
      (m.serve call first second).2.Keeps (l.serve call first second).2 := by
  cases call with
  | createIntake tenantId actorId now message repository repositories analysisProfile =>
      exact inMemory_createIntake hk hl hfirst tenantId actorId now message repository repositories
        analysisProfile
  | recordGroundedAnalysis tenantId workItemId actorId analysis now =>
      exact inMemory_recordGroundedAnalysis hk hl tenantId workItemId actorId analysis now
  | reserveChatTurn tenantId workItemId actorId reservation limit now =>
      exact inMemory_reserveChatTurn hk hl tenantId workItemId actorId reservation limit now
  | recordChatTurn tenantId workItemId actorId audit now =>
      exact inMemory_recordChatTurn hk hl tenantId workItemId actorId audit now
  | addGateRequest tenantId workItemId actorId gate decision decisionDigest now =>
      exact inMemory_addGateRequest hk hl tenantId workItemId actorId gate decision decisionDigest
        now
  | get tenantId workItemId =>
      rw [hk.serve_get hl]
      exact ⟨rfl, hk⟩
  | list tenantId =>
      have hrun : (InMemoryWorkflowStore.list tenantId).run (serially Memory.answer)
          (m, [first, second]) = (.ok (m.tenantItems tenantId), (m, [first, second])) :=
        inMemory_reads hk rfl
      show Memory.Did _ ((InMemoryWorkflowStore.list tenantId >>= _).run _ _)
      rw [Prog.run_bind_ok _ _ hrun]
      exact ⟨.of_eq (hk.tenantItems tenantId).symm, hk⟩
  | trace tenantId workItemId =>
      rw [hk.serve_trace]
      exact ⟨rfl, hk⟩

end InMemory

end NokincFactory
