/-
  File:      NokincFactory/Workflow/Postgres.lean
  Subject:   The store over the database keeps a journal.

  One caller at a time, and a statement fails for its text or a constraint only; sessions side by
  side, and all other failures, are in `Chat/Postgres.lean`.

  * `Database.Keeps`: a database whose rows are those of a journal;
  * `takesText_identifier`: what PostgreSQL takes;
  * `run_transaction_ok`, `sql_appendEvent`: what runs in a transaction of one's own;
  * `Database.refines`: a call whose text is taken returns, or raises, and records what the journal
    says; any other one raises, and records nothing.
-/
import NokincFactory.Workflow.Journal

namespace NokincFactory

/-! ## 1. Rows -/

theorem takesText_identifier (id : Identifier) : takesText id.text = true := by
  have htail : ∀ c, identifierTail c = true → c.toNat ≠ 0 := by
    intro c hc hzero
    have hnul : c = Char.ofNat 0 := by rw [← hzero, Char.ofNat_toNat]
    rw [hnul] at hc
    cases hc
  have hpattern := id.pattern
  unfold takesText
  cases htext : id.text.toList with
  | nil => rfl
  | cons c cs =>
      rw [htext, identifierPattern, Bool.and_eq_true, Bool.and_eq_true] at hpattern
      obtain ⟨⟨hhead, hrest⟩, -⟩ := hpattern
      refine List.all_eq_true.mpr fun d hd => decide_eq_true ?_
      rcases List.mem_cons.mp hd with rfl | hd
      · exact htail d (by rw [identifierTail, hhead, Bool.true_or])
      · exact htail d (List.all_eq_true.mp hrest d hd)

section Rows

variable [Sha256] [ChatLibraries]

/-- The row of an item. -/
def itemRow (item : WorkflowItem) : WorkflowItemRow :=
  ⟨item.tenantId, item.workItemId.text, ChatLibraries.workflowItemJson item, contentDigest item, 1⟩

/-- A database whose rows are those of a journal. -/
structure Database.Keeps (db : Database Unit) (l : Journal) : Prop where
  idle : db.transactions = fun _ => none
  items : db.items = l.items.map itemRow
  events : db.events = (numbered [] l.events).map fun row => ⟨row, some ()⟩

theorem readItem_itemRow {item : WorkflowItem} (h : item.ReadsBack) :
    PostgresWorkflowStore.readItem (itemRow item) = .ok item := by
  unfold WorkflowItem.ReadsBack at h
  unfold PostgresWorkflowStore.readItem itemRow
  dsimp only
  rw [guardThat_pass rfl, h, Except.ok_bind]
  show (guardThat _ _ >>= fun _ => pure item) = Except.ok item
  rw [guardThat_pass ⟨rfl, rfl⟩]
  rfl

namespace Database.Keeps

variable {db : Database Unit} {l : Journal} {drawn : List Uuid}

theorem row (hk : db.Keeps l) (tenantId : Identifier) (workItemId : String) :
    db.items.find? (fun row => row.tenantId = tenantId ∧ row.workItemId = workItemId) =
      (l.find (tenantId, workItemId)).map itemRow := by
  rw [hk.items, List.find?_map]
  refine congrArg (Option.map itemRow) ?_
  unfold Journal.find
  refine congrArg (fun p => List.find? p l.items) (funext fun item => ?_)
  exact decide_eq_decide.mpr Prod.mk_inj.symm

theorem rows (hk : db.Keeps l) : db.events.map (·.row) = numbered [] l.events := by
  rw [hk.events, List.map_map]
  exact List.map_id _

/-- The rows of an item: its events, counted from 1. -/
theorem rowsAt (hk : db.Keeps l) (key : ItemKey) :
    NokincFactory.rowsAt key (db.events.map (·.row)) = countedOn 0 (l.trace key) := by
  rw [hk.rows, rowsAt_numbered]
  rfl

theorem reserved (hk : db.Keeps l) (tenantId : Identifier) :
    (db.reserved tenantId).length = (l.reserved tenantId).length := by
  have hnumbered : ∀ before es, ((numbered before es).filter (·.reserves tenantId)).length =
      (es.filter fun e => e.tenantId = tenantId ∧ e.kind = .chatTurnReserved).length := by
    intro before es
    induction es generalizing before with
    | nil => rfl
    | cons e es ih =>
        rw [numbered]
        by_cases he : e.tenantId = tenantId ∧ e.kind = .chatTurnReserved
        · rw [List.filter_cons_of_pos (by exact decide_eq_true he),
            List.filter_cons_of_pos (by exact decide_eq_true he), List.length_cons,
            List.length_cons, ih]
        · rw [List.filter_cons_of_neg (by exact mt of_decide_eq_true he),
            List.filter_cons_of_neg (by exact mt of_decide_eq_true he), ih]
  have hrows : ((db.events.map (·.row)).filter (·.reserves tenantId)).length =
      (db.reserved tenantId).length := by
    unfold Database.reserved
    rw [List.filter_map, List.length_map]
    rfl
  rw [← hrows, hk.rows]
  exact hnumbered [] l.events

/-- The largest number of an item is the number of its events. -/
theorem maxSequence (hk : db.Keeps l) (key : ItemKey) :
    (((NokincFactory.rowsAt key (db.events.map (·.row))).map (·.sequence)).max?).getD 0 =
      (l.trace key).length := by
  rw [hk.rowsAt, sequences_countedOn]
  cases hn : (l.trace key).length with
  | zero => rfl
  | succ n =>
      have hmax : (List.range' (0 + 1) (n + 1)).max? = some (n + 1) := by
        refine List.max?_eq_some_iff.mpr ⟨List.mem_range'_1.mpr ⟨by omega, by omega⟩,
          fun b hb => ?_⟩
        have hb := List.mem_range'_1.mp hb
        omega
      rw [hmax]
      rfl

/-- The next row of an item clashes with no row. -/
theorem next_free (hk : db.Keeps l) {event : WorkflowEvent}
    (hid : ∀ e ∈ l.events, e.eventId ≠ event.eventId) :
    ∀ other ∈ db.events.map (·.row), ¬ (PostgresWorkflowStore.eventRow event
      ((l.trace event.key).length + 1)).clashes other := by
  intro other hother hclash
  rcases hclash with ⟨htenant, hitem, hsequence⟩ | hsame
  · have hat : other ∈ NokincFactory.rowsAt event.key (db.events.map (·.row)) :=
      List.mem_filter.mpr ⟨hother, decide_eq_true ⟨htenant.symm, hitem.symm⟩⟩
    have hmem := List.mem_map_of_mem (f := WorkflowEventRow.sequence) hat
    rw [hk.rowsAt, sequences_countedOn, ← hsequence] at hmem
    have hle := List.mem_range'_1.mp hmem
    unfold PostgresWorkflowStore.eventRow at hle
    dsimp only at hle
    omega
  · rw [hk.rows] at hother
    obtain ⟨e, he, hrow⟩ := exists_of_mem_numbered hother
    rw [hrow] at hsame
    exact hid e he hsame.symm

end Database.Keeps

end Rows

/-! ## 2. Transactions -/

section Transactions

open PostgresWorkflowStore

variable [AdvisoryHash] [TableScan] {db db' : Database Unit} {l : Journal}
  {drawn supply rest : List Uuid} {t : OpenTransaction} {α : Type}

/-- The database while the caller's transaction is open. -/
def inside (db : Database Unit) (t : OpenTransaction) : Database Unit := db.enter () (some t)

/-- A transaction that has taken locks, and written nothing yet. -/
def reading (locks : List (BitVec 64)) : OpenTransaction := ⟨locks, [], []⟩

omit [AdvisoryHash] [TableScan] in
@[simp] theorem within_inside (f : OpenTransaction → Except Failure α × Database Unit) :
    (inside db t).within f = f t := by
  unfold Database.within inside Database.enter
  simp

omit [AdvisoryHash] [TableScan] in
theorem inside_enter (u : Option OpenTransaction) : (inside db t).enter () u = db.enter () u := by
  unfold inside Database.enter
  simp

theorem run_execute {r : SqlAsk} {a : r.Answer} (h : db.answer r = (a, db')) :
    (execute r).run (serially Database.answer) (db, supply) = (a, (db', supply)) := by
  show (Prog.ofExcept (db.answer r).1).run (serially Database.answer) ((db.answer r).2, supply) = _
  rw [Prog.run_ofExcept, h]

theorem run_openTransaction (tenantId : Identifier) :
    (openTransaction tenantId).run (serially Database.answer) (db, supply) =
      (.ok (), (db, supply)) := by
  unfold openTransaction
  rw [Prog.run_bind_ok _ _ (run_execute rfl)]
  exact run_execute rfl

/-- A transaction of a body that returns: what it wrote is committed. -/
theorem run_transaction_ok {body : SqlProg α} {tenantId : Identifier} {value : α}
    (hbody : body.run (serially Database.answer) (inside db (reading []), supply) =
      (.ok value, (inside db t, rest))) :
    (PostgresWorkflowStore.transaction tenantId body).run (serially Database.answer) (db, supply) =
      (.ok value, (db.commit () t, rest)) := by
  have hcommit : (inside db t).answer .commit = (.ok (), db.commit () t) := by
    unfold inside Database.answer Database.enter Database.commit
    simp
  unfold PostgresWorkflowStore.transaction
  rw [Prog.run_bind_ok _ _ (run_execute rfl), Prog.run_bind_ok _ _ (Prog.run_attempt _ _ _),
    Prog.run_bind_ok _ _ (run_openTransaction tenantId),
    show db.enter () (some ⟨[], [], []⟩) = inside db (reading []) from rfl, hbody]
  dsimp only
  rw [Prog.run_bind_ok _ _ (run_execute hcommit)]
  rfl

/-- A transaction of a body that raises: nothing of it is left. -/
theorem run_transaction_error {body : SqlProg α} {tenantId : Identifier} {failure : Failure}
    (hidle : db.transactions = fun _ => none)
    (hbody : body.run (serially Database.answer) (inside db (reading []), supply) =
      (.error failure, (inside db t, rest))) :
    (PostgresWorkflowStore.transaction tenantId body).run (serially Database.answer) (db, supply) =
      (.error failure, (db, rest)) := by
  have hrollback : (inside db t).answer .rollback = (.ok (), db) := by
    unfold inside Database.answer Database.enter
    cases db
    cases hidle
    simp
  unfold PostgresWorkflowStore.transaction
  rw [Prog.run_bind_ok _ _ (run_execute rfl), Prog.run_bind_ok _ _ (Prog.run_attempt _ _ _),
    Prog.run_bind_ok _ _ (run_openTransaction tenantId),
    show db.enter () (some ⟨[], [], []⟩) = inside db (reading []) from rfl, hbody]
  dsimp only
  rw [Prog.run_bind_ok _ _ (Prog.run_attempt _ _ _), run_execute hrollback]
  rfl

variable [Sha256] [ChatLibraries] {locks : List (BitVec 64)}

theorem sql_selectItem (hk : db.Keeps l) (tenantId : Identifier) {workItemId : String}
    (htext : takesText workItemId = true) :
    (execute (.selectItem tenantId workItemId)).run (serially Database.answer)
        (inside db (reading locks), supply) =
      (.ok ((l.find (tenantId, workItemId)).map itemRow), (inside db (reading locks), supply)) := by
  refine run_execute ?_
  rw [Database.answer, within_inside, if_pos htext, ← hk.row, ← List.append_nil db.items]
  rfl

/-- The item of an append, as it is read. -/
theorem sql_storedItem (locks : List (BitVec 64)) (supply : List Uuid) (hk : db.Keeps l)
    (hl : l.Sound drawn)
    (tenantId workItemId : Identifier) :
    (storedItem tenantId workItemId).run (serially Database.answer)
        (inside db (reading locks), supply) =
      (match l.find (tenantId, workItemId.text) with
        | none => .error (.denied "Work item not found")
        | some item => .ok item, (inside db (reading locks), supply)) := by
  unfold storedItem
  rw [Prog.run_bind_ok _ _ (sql_selectItem hk tenantId (takesText_identifier workItemId))]
  cases hfind : l.find (tenantId, workItemId.text) with
  | none => rfl
  | some item =>
      have hread := hl.itemsRead item ((Journal.find_eq_some hl).mp hfind).1
      exact (Prog.run_ofExcept _ _ _).trans (by rw [readItem_itemRow hread])

theorem sql_ownItem (locks : List (BitVec 64)) (supply : List Uuid) (hk : db.Keeps l)
    (hl : l.Sound drawn)
    (tenantId workItemId actorId : Identifier) :
    (ownItem tenantId workItemId actorId).run (serially Database.answer)
        (inside db (reading locks), supply) =
      (if ∃ own ∈ l.find (tenantId, workItemId.text), own.createdBy = actorId then .ok ()
        else .error (.denied "Work item not found"), (inside db (reading locks), supply)) := by
  unfold ownItem
  rw [Prog.run_bind_ok _ _ (sql_selectItem hk tenantId (takesText_identifier workItemId))]
  cases hfind : l.find (tenantId, workItemId.text) with
  | none =>
      rw [if_neg (by simp)]
      rfl
  | some item =>
      have hread := hl.itemsRead item ((Journal.find_eq_some hl).mp hfind).1
      have hitem : (Prog.ofExcept (readItem (itemRow item)) : SqlProg WorkflowItem).run
          (serially Database.answer) (inside db (reading locks), supply) =
          (.ok item, (inside db (reading locks), supply)) :=
        (Prog.run_ofExcept _ _ _).trans (by rw [readItem_itemRow hread])
      refine (Prog.run_bind_ok _ _ hitem).trans ((Prog.run_insist _ _ _ _).trans ?_)
      simp

omit [Sha256] [ChatLibraries] in
/-- The lock on the budget is free, where it is taken. -/
theorem sql_lockBudget (db : Database Unit) (supply : List Uuid) (tenantId : Identifier)
    (limit : Option ℤ) :
    ∃ locks, (PostgresWorkflowStore.lockBudget tenantId limit).run (serially Database.answer)
        (inside db (reading []), supply) = (.ok (), (inside db (reading locks), supply)) := by
  cases limit with
  | none => exact ⟨[], rfl⟩
  | some bound =>
      refine ⟨[AdvisoryHash.hash (budgetKey tenantId)], ?_⟩
      unfold PostgresWorkflowStore.lockBudget
      refine run_execute ?_
      rw [Database.answer, within_inside, inside_enter]
      rfl

theorem sql_checkTurnLimit (locks : List (BitVec 64)) (supply : List Uuid) (hk : db.Keeps l)
    (tenantId : Identifier)
    (limit : Option ℤ) :
    (checkTurnLimit tenantId limit).run (serially Database.answer)
        (inside db (reading locks), supply) =
      (if ∀ bound ∈ limit, ((l.reserved tenantId).length : ℤ) < bound then .ok ()
        else .error (.turnLimit "Tenant chat-turn limit exhausted"),
        (inside db (reading locks), supply)) := by
  cases limit with
  | none =>
      rw [if_pos fun bound h => nomatch h]
      rfl
  | some bound =>
      have hcount : (execute (.countReserved tenantId)).run (serially Database.answer)
          (inside db (reading locks), supply) =
          (.ok (l.reserved tenantId).length, (inside db (reading locks), supply)) := by
        refine run_execute ?_
        rw [Database.answer, within_inside, ← hk.reserved]
        rfl
      unfold checkTurnLimit
      rw [Prog.run_bind_ok _ _ hcount, Prog.run_insist]
      simp

/-- The row that an event is appended as. -/
def nextRow (l : Journal) (event : WorkflowEvent) : WorkflowEventRow :=
  eventRow event ((l.trace event.key).length + 1)

/-- An event of an item that is there, with an identifier that is new. -/
theorem sql_appendEvent (locks : List (BitVec 64)) (supply : List Uuid) (hk : db.Keeps l)
    (hl : l.Sound drawn) (event : WorkflowEvent)
    (hitem : (l.find event.key).isSome = true)
    (hid : ∀ e ∈ l.events, e.eventId ≠ event.eventId) :
    ∃ locks', (appendEvent event).run (serially Database.answer)
        (inside db (reading locks), supply) =
      (.ok (), (inside db ⟨locks', [], [nextRow l event]⟩, supply)) := by
  obtain ⟨locks', hlock⟩ : ∃ locks', (inside db (reading locks)).answer (.advisoryLock
      (itemKey event.tenantId event.workItemId)) = (.ok (), inside db (reading locks')) := by
    refine ⟨AdvisoryHash.hash (itemKey event.tenantId event.workItemId) :: locks, ?_⟩
    rw [Database.answer, within_inside, inside_enter]
    rfl
  have hmax : (inside db (reading locks')).answer (.maxSequence event.tenantId
      event.workItemId.text) = (.ok ((NokincFactory.rowsAt event.key (db.events.map (·.row))).map
        (·.sequence)).max?, inside db (reading locks')) := by
    rw [Database.answer, within_inside, if_pos (takesText_identifier event.workItemId),
      ← List.append_nil (db.events.map (·.row))]
    rfl
  have hinsert : (inside db (reading locks')).answer (.insertEvent (nextRow l event)) =
      (.ok (), inside db ⟨locks', [], [nextRow l event]⟩) := by
    obtain ⟨item, hfind⟩ := Option.isSome_iff_exists.mp hitem
    obtain ⟨hmem, hkey⟩ := (Journal.find_eq_some hl).mp hfind
    have hrow : itemRow item ∈ db.items := by
      rw [hk.items]
      exact List.mem_map_of_mem hmem
    rw [Database.answer, within_inside, if_pos, inside_enter]
    · rfl
    · refine ⟨?_, itemRow item, List.mem_append_left _ hrow, Prod.mk_inj.mp hkey⟩
      show ∀ other ∈ db.events.map (·.row) ++ [], _
      rw [List.append_nil]
      exact hk.next_free hid
  refine ⟨locks', ?_⟩
  unfold appendEvent
  rw [Prog.run_bind_ok _ _ (run_execute hlock), Prog.run_bind_ok _ _ (run_execute hmax),
    hk.maxSequence]
  exact run_execute hinsert

omit [AdvisoryHash] [TableScan] in
/-- A transaction that wrote new items and an event. -/
theorem Database.Keeps.commit (hk : db.Keeps l) (locks : List (BitVec 64)) (items : List WorkflowItem)
    (event : WorkflowEvent) :
    (db.commit () ⟨locks, items.map itemRow, [nextRow l event]⟩).Keeps
      ⟨l.items ++ items, l.events ++ [event]⟩ where
  idle := by
    unfold Database.commit
    rw [hk.idle]
    exact Function.update_eq_self () _
  items := by
    show db.items ++ _ = _
    rw [hk.items, List.map_append]
  events := by
    show db.events ++ _ = _
    rw [hk.events, numbered_append, List.map_append]
    rfl

omit [AdvisoryHash] [TableScan] in
theorem Database.Keeps.append (hk : db.Keeps l) (event : WorkflowEvent) :
    (db.commit () ⟨locks, [], [nextRow l event]⟩).Keeps
      { l with events := l.events ++ [event] } := by
  have hcommit := hk.commit locks [] event
  rw [List.append_nil] at hcommit
  exact hcommit

/-! ## 3. The methods -/

/-- What a journal says of a call, and what the method did. -/
def Database.Did (expected : Option StoreResult × Journal)
    (ended : Except Failure StoreResult × (Database Unit × List Uuid)) : Prop :=
  Matches expected.1 ended.1 ∧ ended.2.1.Keeps expected.2

/-- An event that is made first, and then recorded in a transaction. -/
theorem sql_made (hk : db.Keeps l) {make : SqlProg WorkflowEvent} {event : Option WorkflowEvent}
    (hmake : Makes Database.answer db event supply make) {tenantId : Identifier}
    {body : WorkflowEvent → SqlProg Unit} {allowed : Prop} [Decidable allowed]
    (hok : ∀ e, event = some e → allowed → ∀ rest, ∃ locks,
      (body e).run (serially Database.answer) (inside db (reading []), rest) =
        (.ok (), (inside db ⟨locks, [], [nextRow l e]⟩, rest)))
    (herr : ∀ e, event = some e → ¬ allowed → ∀ rest, ∃ failure t,
      (body e).run (serially Database.answer) (inside db (reading []), rest) =
        (.error failure, (inside db t, rest)))
    {p : SqlProg WorkflowEvent} (hp : p = do
      let event ← make
      PostgresWorkflowStore.transaction tenantId (body event)
      pure event) :
    Database.Did (l.append event allowed)
      ((p >>= fun e => pure (.event e)).run (serially Database.answer) (db, supply)) := by
  subst hp
  unfold Journal.append
  cases event with
  | none =>
      obtain ⟨failure, rest, hrun⟩ := hmake
      rw [Prog.run_bind_error _ _ (Prog.run_bind_error _ _ hrun)]
      exact ⟨trivial, hk⟩
  | some e =>
      obtain ⟨rest, hrun⟩ := hmake
      dsimp only
      by_cases hallowed : allowed
      · obtain ⟨locks, hbody⟩ := hok e rfl hallowed rest
        have hended : (make >>= fun event => do
            PostgresWorkflowStore.transaction tenantId (body event)
            pure event : SqlProg WorkflowEvent).run (serially Database.answer) (db, supply) =
            (.ok e, (db.commit () ⟨locks, [], [nextRow l e]⟩, rest)) := by
          rw [Prog.run_bind_ok _ _ hrun, Prog.run_bind_ok _ _ (run_transaction_ok hbody)]
          rfl
        rw [if_pos hallowed, Prog.run_bind_ok _ _ hended]
        exact ⟨rfl, hk.append e⟩
      · obtain ⟨failure, t, hbody⟩ := herr e rfl hallowed rest
        have hended : (make >>= fun event => do
            PostgresWorkflowStore.transaction tenantId (body event)
            pure event : SqlProg WorkflowEvent).run (serially Database.answer) (db, supply) =
            (.error failure, (db, rest)) := by
          rw [Prog.run_bind_ok _ _ hrun,
            Prog.run_bind_error _ _ (run_transaction_error hk.idle hbody)]
        rw [if_neg hallowed, Prog.run_bind_error _ _ hended]
        exact ⟨trivial, hk⟩

variable {first second : Uuid} {tenantId workItemId actorId : Identifier} {payload : EventPayload}
  {now : Datetime}

/-- An event that is made first, and then checked and recorded in a transaction. -/
theorem sql_event (hk : db.Keeps l) (hl : l.Sound drawn) (hfirst : first ∉ drawn)
    {make : SqlProg WorkflowEvent}
    (hmake : Makes Database.answer db
      (eventAt first.eventId tenantId workItemId actorId payload now) [first, second] make)
    {β : Type} {check : SqlProg β} {allowed : Prop} [Decidable allowed]
    (hcheck : allowed → ∀ rest, ∃ value locks, check.run (serially Database.answer)
      (inside db (reading []), rest) = (.ok value, (inside db (reading locks), rest)))
    (hrefuse : ¬ allowed → ∀ rest, ∃ failure locks, check.run (serially Database.answer)
      (inside db (reading []), rest) = (.error failure, (inside db (reading locks), rest)))
    (hitem : allowed → (l.find (tenantId, workItemId.text)).isSome = true)
    {p : SqlProg WorkflowEvent} (hp : p = do
      let event ← make
      PostgresWorkflowStore.transaction tenantId (check >>= fun _ => appendEvent event)
      pure event) :
    Database.Did
      (l.append (eventAt first.eventId tenantId workItemId actorId payload now) allowed)
      ((p >>= fun e => pure (.event e)).run (serially Database.answer) (db, [first, second])) := by
  refine sql_made hk hmake (fun e he hallowed rest => ?_) (fun e he hnot rest => ?_) hp
  · obtain ⟨hkey, hid⟩ := key_eventAt he
    obtain ⟨value, locks, hrun⟩ := hcheck hallowed rest
    have hnew : ∀ e' ∈ l.events, e'.eventId ≠ e.eventId := by
      rw [hid]
      exact Journal.eventId_fresh hl hfirst
    have hfind : (l.find e.key).isSome = true := by
      rw [hkey]
      exact hitem hallowed
    obtain ⟨locks', happend⟩ := sql_appendEvent locks rest hk hl e hfind hnew
    exact ⟨locks', (Prog.run_bind_ok _ _ hrun).trans happend⟩
  · obtain ⟨failure, locks, hrun⟩ := hrefuse hnot rest
    exact ⟨failure, reading locks, Prog.run_bind_error _ _ hrun⟩

/-- An event of any item that is there. -/
theorem sql_storedEvent (hk : db.Keeps l) (hl : l.Sound drawn) (hfirst : first ∉ drawn)
    {make : SqlProg WorkflowEvent}
    (hmake : Makes Database.answer db
      (eventAt first.eventId tenantId workItemId actorId payload now) [first, second] make)
    {p : SqlProg WorkflowEvent} (hp : p = do
      let event ← make
      PostgresWorkflowStore.transaction tenantId do
        let _ ← storedItem tenantId workItemId
        appendEvent event
      pure event) :
    Database.Did (l.append (eventAt first.eventId tenantId workItemId actorId payload now)
        ((l.find (tenantId, workItemId.text)).isSome = true))
      ((p >>= fun e => pure (.event e)).run (serially Database.answer) (db, [first, second])) := by
  refine sql_event hk hl hfirst hmake (fun hfind rest => ?_) (fun hfind rest => ?_) id hp
  · obtain ⟨item, hitem⟩ := Option.isSome_iff_exists.mp hfind
    exact ⟨item, [], by rw [sql_storedItem [] rest hk hl, hitem]⟩
  · have hnone := Option.not_isSome_iff_eq_none.mp hfind
    exact ⟨.denied "Work item not found", [], by rw [sql_storedItem [] rest hk hl, hnone]⟩

theorem sql_recordChatTurn (hk : db.Keeps l) (hl : l.Sound drawn) (hfirst : first ∉ drawn)
    (audit : ChatTurnAudit) :
    Database.Did (l.serve (.recordChatTurn tenantId workItemId actorId audit now) first second)
      ((recordChatTurn tenantId workItemId actorId audit now >>=
        fun e => pure (.event e)).run (serially Database.answer) (db, [first, second])) := by
  refine sql_event hk hl hfirst (makes_newEvent _ _ first second tenantId workItemId actorId _ now)
    (fun hown rest => ?_) (fun hown rest => ?_) Journal.isSome_of_own rfl
  · exact ⟨(), [], by rw [sql_ownItem [] rest hk hl, if_pos hown]⟩
  · exact ⟨.denied "Work item not found", [], by rw [sql_ownItem [] rest hk hl, if_neg hown]⟩

/-- The checks of a reservation, in the order in which they are made. -/
def reservationChecks (tenantId workItemId actorId : Identifier) (limit : Option ℤ) :
    SqlProg Unit := do
  PostgresWorkflowStore.lockBudget tenantId limit
  ownItem tenantId workItemId actorId
  checkTurnLimit tenantId limit

omit [AdvisoryHash] [TableScan] in
/-- A reservation under a limit that allows turns: the event, and then its checks and its row. -/
theorem reserveChatTurn_checks (reservation : ChatTurnReservation) {limit : Option ℤ}
    (hpositive : ∀ bound ∈ limit, 0 < bound) :
    reserveChatTurn tenantId workItemId actorId reservation limit now = (do
      let event ← newEvent tenantId workItemId actorId (.chatTurnReserved reservation) now
      PostgresWorkflowStore.transaction tenantId
        (reservationChecks tenantId workItemId actorId limit >>= fun _ => appendEvent event)
      pure event) := by
  have hinsist : (Prog.insist (∀ bound ∈ limit, 0 < bound)
      (.turnLimit "Model-backed chat is disabled by turn-limit policy") : SqlProg Unit) = pure () :=
    if_pos hpositive
  unfold reserveChatTurn reservationChecks
  rw [hinsist]
  simp only [Prog.bind_assoc]
  rfl

/-- The checks of a reservation pass where the item is the actor's own, and the tenant is below
the limit. -/
theorem sql_reservationChecks (supply : List Uuid) (hk : db.Keeps l) (hl : l.Sound drawn)
    (tenantId workItemId actorId : Identifier) (limit : Option ℤ) :
    ∃ locks r, (reservationChecks tenantId workItemId actorId limit).run
        (serially Database.answer) (inside db (reading []), supply) =
      (r, (inside db (reading locks), supply)) ∧
      (r = .ok () ↔ (∃ own ∈ l.find (tenantId, workItemId.text), own.createdBy = actorId) ∧
        ∀ bound ∈ limit, ((l.reserved tenantId).length : ℤ) < bound) := by
  obtain ⟨locks, hlock⟩ := sql_lockBudget db supply tenantId limit
  have hown := sql_ownItem locks supply hk hl tenantId workItemId actorId
  have hlimit := sql_checkTurnLimit locks supply hk tenantId limit
  refine ⟨locks, ?_⟩
  unfold reservationChecks
  rw [Prog.run_bind_ok _ _ hlock]
  by_cases howned : ∃ own ∈ l.find (tenantId, workItemId.text), own.createdBy = actorId
  · rw [if_pos howned] at hown
    rw [Prog.run_bind_ok _ _ hown, hlimit]
    refine ⟨_, rfl, ?_⟩
    by_cases hbelow : ∀ bound ∈ limit, ((l.reserved tenantId).length : ℤ) < bound
    · rw [if_pos hbelow]
      exact ⟨fun _ => ⟨howned, hbelow⟩, fun _ => rfl⟩
    · rw [if_neg hbelow]
      exact ⟨fun h => (nomatch h), fun h => absurd h.2 hbelow⟩
  · rw [if_neg howned] at hown
    rw [Prog.run_bind_error _ _ hown]
    exact ⟨_, rfl, fun h => (nomatch h), fun h => absurd h.1 howned⟩

theorem sql_reserveChatTurn (hk : db.Keeps l) (hl : l.Sound drawn) (hfirst : first ∉ drawn)
    (reservation : ChatTurnReservation) (limit : Option ℤ) :
    Database.Did (l.serve (.reserveChatTurn tenantId workItemId actorId reservation limit now) first
        second)
      ((reserveChatTurn tenantId workItemId actorId reservation limit now >>=
        fun e => pure (.event e)).run (serially Database.answer) (db, [first, second])) := by
  show Database.Did (l.append _ (_ ∧ _)) _
  by_cases hpositive : ∀ bound ∈ limit, 0 < bound
  · rw [Journal.append_congr l _ (and_iff_right hpositive)]
    refine sql_event hk hl hfirst
      (makes_newEvent _ _ first second tenantId workItemId actorId _ now)
      (fun hallowed rest => ?_) (fun hnot rest => ?_) (fun h => Journal.isSome_of_own h.1)
      (reserveChatTurn_checks reservation hpositive)
    · obtain ⟨locks, r, hrun, hr⟩ := sql_reservationChecks rest hk hl tenantId workItemId actorId
        limit
      exact ⟨(), locks, by rw [hrun, hr.mpr hallowed]⟩
    · obtain ⟨locks, r, hrun, hr⟩ := sql_reservationChecks rest hk hl tenantId workItemId actorId
        limit
      cases r with
      | ok _ => exact absurd (hr.mp rfl) hnot
      | error failure => exact ⟨failure, locks, hrun⟩
  · have hnone : ∀ event, (l.append event ((∀ bound ∈ limit, 0 < bound) ∧
        (∃ own ∈ l.find (tenantId, workItemId.text), own.createdBy = actorId) ∧
        ∀ bound ∈ limit, ((l.reserved tenantId).length : ℤ) < bound)) = (none, l) := by
      intro event
      unfold Journal.append
      cases event with
      | none => rfl
      | some event => exact if_neg fun h => hpositive h.1
    unfold reserveChatTurn
    rw [hnone, Prog.run_bind_error _ _ (Prog.run_bind_error _ _
      ((Prog.run_insist _ _ _ _).trans (by rw [if_neg hpositive])))]
    exact ⟨trivial, hk⟩

/-- An item with its first event, under identifiers that are new. -/
theorem sql_insertIntake (supply : List Uuid) (hk : db.Keeps l) (hl : l.Sound drawn)
    (item : WorkflowItem) (event : WorkflowEvent) (hfind : l.find item.key = none)
    (hkey : event.key = item.key) (hid : ∀ e ∈ l.events, e.eventId ≠ event.eventId) :
    (do execute (.insertItem (itemRow item)); execute (.insertEvent (eventRow event 1))
        : SqlProg Unit).run (serially Database.answer) (inside db (reading []), supply) =
      (.ok (), (inside db ⟨[], [itemRow item], [nextRow l event]⟩, supply)) := by
  have hitems : ∀ other ∈ db.items ++ [], ¬ ((itemRow item).tenantId = other.tenantId ∧
      (itemRow item).workItemId = other.workItemId) := by
    intro other hother ⟨htenant, hitem⟩
    rw [List.append_nil, hk.items] at hother
    obtain ⟨i, hi, rfl⟩ := List.mem_map.mp hother
    have hsame : i.key = item.key := Prod.ext htenant.symm hitem.symm
    have hthere := (Journal.find_eq_some hl).mpr ⟨hi, hsame⟩
    rw [hfind] at hthere
    cases hthere
  have hnone : l.trace event.key = [] := by
    refine List.filter_eq_nil_iff.mpr fun e he hsame => ?_
    have hthere := (Journal.exists_event_iff hl).mp ⟨e, he, of_decide_eq_true hsame⟩
    rw [hkey, hfind] at hthere
    cases hthere
  have hrow : eventRow event 1 = nextRow l event := by
    unfold nextRow
    rw [hnone]
    rfl
  have hinsertItem : (inside db (reading [])).answer (.insertItem (itemRow item)) =
      (.ok (), inside db ⟨[], [itemRow item], []⟩) := by
    rw [Database.answer, within_inside, if_pos, inside_enter]
    · rfl
    · exact hitems
  have hinsertEvent : (inside db ⟨[], [itemRow item], []⟩).answer (.insertEvent (nextRow l event)) =
      (.ok (), inside db ⟨[], [itemRow item], [nextRow l event]⟩) := by
    rw [Database.answer, within_inside, if_pos, inside_enter]
    · rfl
    · refine ⟨?_, itemRow item, List.mem_append_right _ (List.mem_singleton_self _),
        (Prod.mk_inj.mp hkey.symm)⟩
      show ∀ other ∈ db.events.map (·.row) ++ [], _
      rw [List.append_nil]
      exact hk.next_free hid
  rw [hrow, Prog.run_bind_ok _ _ (run_execute hinsertItem)]
  exact run_execute hinsertEvent

theorem sql_createIntake (hk : db.Keeps l) (hl : l.Sound drawn) (hfirst : first ∉ drawn)
    (hsecond : second ∉ drawn) (message : String) (repository : Option String)
    (repositories : List String) (analysisProfile : Option AnalysisProfile) :
    Database.Did (l.serve (.createIntake tenantId actorId now message repository repositories
        analysisProfile) first second)
      ((createIntake tenantId actorId now message repository repositories analysisProfile >>=
        fun item => pure (.item item)).run (serially Database.answer) (db, [first, second])) := by
  unfold createIntake Journal.serve StoreCall.newItem StoreCall.newEvent
  dsimp only
  cases hutc : utc now with
  | error e =>
      obtain ⟨failure, hrun⟩ := run_newIntake_error Database.answer db first second tenantId
        actorId message repository repositories analysisProfile hutc
      rw [Prog.run_bind_error _ _ (Prog.run_bind_error _ _ hrun)]
      exact ⟨trivial, hk⟩
  | ok current =>
      have hrun := run_newIntake_ok Database.answer db first second tenantId actorId message
        repository repositories analysisProfile hutc
      let item : WorkflowItem :=
        ⟨first.workItemId, tenantId, actorId, .refining, "Conversation intake", current⟩
      have hbody := sql_insertIntake [] hk hl item
        ⟨second.eventId, tenantId, first.workItemId, actorId, current,
          .intake (intakeDigest message repository repositories analysisProfile)⟩
        (Journal.find_fresh hl hfirst tenantId) rfl (Journal.eventId_fresh hl hsecond)
      rw [eventAt_ok hutc, Prog.run_bind_ok _ _ ((Prog.run_bind_ok _ _ hrun).trans
        (Prog.run_bind_ok _ _ (Prog.run_attempt_of _ _ (run_transaction_ok hbody))))]
      exact ⟨rfl, hk.commit [] [item] _⟩

/-- What a transaction reads, where it writes nothing. -/
theorem run_transaction_reads (hk : db.Keeps l) {body : SqlProg α} {r : Except Failure α}
    (hbody : body.run (serially Database.answer) (inside db (reading []), supply) =
      (r, (inside db (reading []), supply))) :
    (PostgresWorkflowStore.transaction tenantId body).run (serially Database.answer) (db, supply) =
      (r, (db, supply)) := by
  have hcommit : db.commit () (reading []) = db := by
    unfold Database.commit reading
    cases db
    cases hk.idle
    simp
  cases r with
  | ok value => rw [run_transaction_ok hbody, hcommit]
  | error failure => exact run_transaction_error hk.idle hbody

theorem sql_get (supply : List Uuid) (hk : db.Keeps l) (hl : l.Sound drawn) (tenantId : Identifier)
    {workItemId : String} (htext : takesText workItemId = true) :
    (get tenantId workItemId).run (serially Database.answer) (db, supply) =
      (.ok (l.find (tenantId, workItemId)), (db, supply)) := by
  refine run_transaction_reads hk ?_
  rw [Prog.run_bind_ok _ _ (sql_selectItem hk tenantId htext)]
  cases hfind : l.find (tenantId, workItemId) with
  | none => rfl
  | some item =>
      have hread := hl.itemsRead item ((Journal.find_eq_some hl).mp hfind).1
      show (Prog.ofExcept (readItem (itemRow item)) >>= _).run _ _ = _
      rw [Prog.run_bind_ok _ _ ((Prog.run_ofExcept _ _ _).trans (by rw [readItem_itemRow hread]))]
      rfl

/-- The events of an item are read in their order, whatever the order of the rows. -/
theorem sql_trace (supply : List Uuid) (hk : db.Keeps l) (hl : l.Sound drawn) (tenantId : Identifier)
    {workItemId : String} (htext : takesText workItemId = true) :
    (trace tenantId workItemId).run (serially Database.answer) (db, supply) =
      (.ok (l.trace (tenantId, workItemId)), (db, supply)) := by
  have hrows : ((inside db (reading [])).answer (.selectEvents tenantId workItemId)) =
      (.ok (countedOn 0 (l.trace (tenantId, workItemId))), inside db (reading [])) := by
    rw [Database.answer, within_inside, if_pos htext]
    have hat : Database.eventRows (inside db (reading [])) (reading []) tenantId workItemId =
        countedOn 0 (l.trace (tenantId, workItemId)) := by
      rw [← hk.rowsAt, ← List.append_nil (db.events.map (·.row))]
      rfl
    rw [hat, List.Pairwise.insertionSort_eq (sorted_countedOn 0 _)]
  have hread : readEvents 1 (countedOn 0 (l.trace (tenantId, workItemId))) =
      .ok (l.trace (tenantId, workItemId)) :=
    readEvents_countedOn 0 _ fun e he => hl.eventsRead e (List.mem_of_mem_filter he)
  refine run_transaction_reads hk ?_
  rw [Prog.run_bind_ok _ _ (run_execute hrows), Prog.run_ofExcept, hread]

/-- A look for a text that is not taken. -/
theorem sql_get_refused (supply : List Uuid) (hk : db.Keeps l) (tenantId : Identifier)
    {workItemId : String} (htext : ¬ takesText workItemId = true) :
    (get tenantId workItemId).run (serially Database.answer) (db, supply) =
      (.error .other, (db, supply)) := by
  have hrefused : (inside db (reading [])).answer (.selectItem tenantId workItemId) =
      (.error .other, inside db (reading [])) := by
    rw [Database.answer, within_inside, if_neg htext]
  refine run_transaction_reads hk ?_
  rw [Prog.run_bind_error _ _ (run_execute hrefused)]

theorem sql_trace_refused (supply : List Uuid) (hk : db.Keeps l) (tenantId : Identifier)
    {workItemId : String} (htext : ¬ takesText workItemId = true) :
    (trace tenantId workItemId).run (serially Database.answer) (db, supply) =
      (.error .other, (db, supply)) := by
  have hrefused : (inside db (reading [])).answer (.selectEvents tenantId workItemId) =
      (.error .other, inside db (reading [])) := by
    rw [Database.answer, within_inside, if_neg htext]
  refine run_transaction_reads hk ?_
  rw [Prog.run_bind_error _ _ (run_execute hrefused)]

omit [AdvisoryHash] [TableScan] in
/-- Rows of items that are read back. -/
theorem readItems_ok : ∀ rows : List WorkflowItemRow,
    (∀ row ∈ rows, ∃ item, row = itemRow item ∧ item.ReadsBack) →
    rows.mapM readItem = .ok (rows.filterMap fun row => (readItem row).toOption)
  | [], _ => rfl
  | row :: rows, h => by
      obtain ⟨item, rfl, hread⟩ := h row List.mem_cons_self
      rw [List.mapM_cons, readItem_itemRow hread, List.filterMap_cons, readItem_itemRow hread,
        readItems_ok rows fun row hrow => h row (List.mem_cons_of_mem _ hrow)]
      rfl

/-- The items of a tenant, whatever the order of the rows. -/
theorem sql_list (hk : db.Keeps l) (hl : l.Sound drawn) (tenantId : Identifier) :
    ∃ items, (list tenantId).run (serially Database.answer) (db, supply) =
      (.ok items, (db, supply)) ∧
      items.Perm (l.items.filter fun item => item.tenantId = tenantId) := by
  have hread : ∀ item ∈ l.items.filter (·.tenantId = tenantId), item.ReadsBack :=
    fun item hitem => hl.itemsRead item (List.mem_of_mem_filter hitem)
  have hseen : Database.itemRows (inside db (reading [])) (reading []) tenantId =
      (l.items.filter (·.tenantId = tenantId)).map itemRow := by
    show (db.items ++ []).filter (fun row : WorkflowItemRow => row.tenantId = tenantId) = _
    rw [List.append_nil, hk.items, List.filter_map]
    rfl
  generalize (l.items.filter fun item => item.tenantId = tenantId) = own at hread hseen ⊢
  have hperm : (TableScan.order (own.map itemRow)).Perm (own.map itemRow) := TableScan.perm _
  have hrows : (inside db (reading [])).answer (.selectItems tenantId) =
      (.ok (TableScan.order (own.map itemRow)), inside db (reading [])) := by
    rw [Database.answer, within_inside, hseen]
  have hback : (own.map itemRow).filterMap (fun row => (readItem row).toOption) = own := by
    rw [List.filterMap_map]
    refine (List.filterMap_congr fun item hitem => ?_).trans List.filterMap_some
    show (readItem (itemRow item)).toOption = some item
    rw [readItem_itemRow (hread item hitem)]
    rfl
  have hitems := readItems_ok (TableScan.order (own.map itemRow)) fun row hrow => by
    obtain ⟨item, hitem, rfl⟩ := List.mem_map.mp (hperm.mem_iff.mp hrow)
    exact ⟨item, rfl, hread item hitem⟩
  refine ⟨_, run_transaction_reads hk ((Prog.run_bind_ok _ _ (run_execute hrows)).trans
    ((Prog.run_bind_ok _ _ ((Prog.run_ofExcept _ _ _).trans (by rw [hitems]))).trans rfl)), ?_⟩
  refine (List.perm_insertionSort _ _).trans ?_
  have hfound := hperm.filterMap fun row => (readItem row).toOption
  rw [hback] at hfound
  exact hfound

theorem Database.Keeps.serve_get (hk : db.Keeps l) (hl : l.Sound drawn) (tenantId : Identifier)
    (workItemId : String) : db.serve (.get tenantId workItemId) first second =
      (if takesText workItemId then .ok (.found (l.find (tenantId, workItemId)))
        else .error .other, db) := by
  by_cases htext : takesText workItemId = true
  · rw [if_pos htext]
    have hend := Prog.run_bind_ok (f := fun item => pure (StoreResult.found item)) _ _
      (sql_get [first, second] hk hl tenantId htext)
    exact congrArg (fun ended => (ended.1, ended.2.1)) hend
  · rw [if_neg htext]
    have hend := Prog.run_bind_error (f := fun item => pure (StoreResult.found item)) _ _
      (sql_get_refused [first, second] hk tenantId htext)
    exact congrArg (fun ended => (ended.1, ended.2.1)) hend

theorem Database.Keeps.serve_trace (hk : db.Keeps l) (hl : l.Sound drawn) (tenantId : Identifier)
    (workItemId : String) : db.serve (.trace tenantId workItemId) first second =
      (if takesText workItemId then .ok (.events (l.trace (tenantId, workItemId)))
        else .error .other, db) := by
  by_cases htext : takesText workItemId = true
  · rw [if_pos htext]
    have hend := Prog.run_bind_ok (f := fun events => pure (StoreResult.events events)) _ _
      (sql_trace [first, second] hk hl tenantId htext)
    exact congrArg (fun ended => (ended.1, ended.2.1)) hend
  · rw [if_neg htext]
    have hend := Prog.run_bind_error (f := fun events => pure (StoreResult.events events)) _ _
      (sql_trace_refused [first, second] hk tenantId htext)
    exact congrArg (fun ended => (ended.1, ended.2.1)) hend

/-- The store over the database does what the journal says, where the text of a call is taken;
any other call raises, and records nothing. -/
theorem Database.refines (hk : db.Keeps l) (hl : l.Sound drawn) (hfirst : first ∉ drawn)
    (hsecond : second ∉ drawn) (call : StoreCall) :
    Matches (l.result StoreCall.sendable call first second) (db.serve call first second).1 ∧
      (db.serve call first second).2.Keeps (l.serve call first second).2 := by
  cases call with
  | createIntake tenantId actorId now message repository repositories analysisProfile =>
      exact sql_createIntake hk hl hfirst hsecond message repository repositories analysisProfile
  | recordGroundedAnalysis tenantId workItemId actorId analysis now =>
      exact sql_storedEvent hk hl hfirst (makes_newEvent _ _ _ _ _ _ _ _ _) rfl
  | reserveChatTurn tenantId workItemId actorId reservation limit now =>
      exact sql_reserveChatTurn hk hl hfirst reservation limit
  | recordChatTurn tenantId workItemId actorId audit now =>
      exact sql_recordChatTurn hk hl hfirst audit
  | addGateRequest tenantId workItemId actorId gate decision decisionDigest now =>
      exact sql_storedEvent hk hl hfirst (makes_newGateRequest _ _ _ _ _ _ _ _ _ _ _) rfl
  | get tenantId workItemId =>
      rw [hk.serve_get hl]
      exact ⟨matches_taken _ rfl, hk⟩
  | list tenantId =>
      obtain ⟨items, hrun, hperm⟩ := sql_list hk hl tenantId
      show Database.Did _ ((PostgresWorkflowStore.list tenantId >>= _).run _ _)
      rw [Prog.run_bind_ok _ _ hrun]
      exact ⟨hperm.symm, hk⟩
  | trace tenantId workItemId =>
      rw [hk.serve_trace hl]
      exact ⟨matches_taken _ rfl, hk⟩

end Transactions

end NokincFactory
