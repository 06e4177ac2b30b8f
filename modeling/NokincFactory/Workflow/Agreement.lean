/-
  File:      NokincFactory/Workflow/Agreement.lean
  Subject:   Where the two workflow stores agree.

  A call that looks for a text with the character NUL finds nothing in memory, and raises over the
  database, where such a text is not sent. What is stored is the same either way. The documents
  that a call writes are taken to be read as what it wrote, and its identifiers to be fresh.

  * `Agrees`: both stores keep one journal, and returned the same so far, those calls apart;
  * `twins_agree`: they do along every run;
  * `workflow_stores_agree`: what a caller sees of it, and what the rows of the database are;
  * `nul_looked_up`: a call that one of them answers and the other one does not.
-/
import NokincFactory.Lib.Traces
import NokincFactory.Workflow.InMemory
import NokincFactory.Workflow.Postgres

namespace NokincFactory

section Outcomes

/-- Results that are the same as one result. -/
theorem StoreResult.Same.both {expected r r' : StoreResult} (h : expected.Same r)
    (h' : expected.Same r') : r.Same r' := by
  cases expected with
  | items listed =>
      -- each list is the journal's, up to its order
      cases r with
      | items first =>
          cases r' with
          | items second => exact List.Perm.trans (List.Perm.symm h) h'
          | _ => cases h'
      | _ => cases h
  | _ =>
      cases h
      exact h'

theorem Matches.same {expected : Option StoreResult} {r r' : Except Failure StoreResult}
    (h : Matches expected r) (h' : Matches expected r') : SameOutcome r r' := by
  cases expected with
  | none =>
      cases r with
      | ok _ => exact h.elim
      | error _ =>
          cases r' with
          | ok _ => exact h'.elim
          | error _ => trivial
  | some expected =>
      cases r with
      | error _ => exact h.elim
      | ok r =>
          cases r' with
          | error _ => exact h'.elim
          | ok r' => exact StoreResult.Same.both h h'

/-- Only a look for an item is not sent, and a journal answers each of them. -/
theorem Journal.answers_unsent [Sha256] (l : Journal) {call : StoreCall} (first second : Uuid)
    (h : ¬ call.sendable = true) : ∃ r, (l.serve call first second).1 = some r := by
  cases call with
  | get => exact ⟨_, rfl⟩
  | trace => exact ⟨_, rfl⟩
  | _ => exact absurd rfl h

/-- One outcome of a journal's answer and of what is sent of it: where it is sent. -/
theorem Matches.sent [Sha256] {l : Journal} {call : StoreCall} {first second : Uuid}
    {r r' : Except Failure StoreResult} (h : Matches (l.serve call first second).1 r)
    (h' : Matches (l.result StoreCall.sendable call first second) r') :
    SameOutcome r r' ↔ call.sendable = true := by
  unfold Journal.result at h'
  by_cases hsent : call.sendable = true
  · rw [if_pos hsent] at h'
    exact iff_of_true (h.same h') hsent
  · rw [if_neg hsent] at h'
    obtain ⟨answer, hanswer⟩ := l.answers_unsent first second hsent
    rw [hanswer] at h
    refine iff_of_false (fun hsame => ?_) hsent
    cases r with
    | error _ => exact h
    | ok _ =>
        cases r' with
        | ok _ => exact h'
        | error _ => exact hsame

end Outcomes

section Agreement

variable [Sha256] [ChatLibraries] [AdvisoryHash] [TableScan]

/-- Both stores keep one journal, and the calls so far that had the same outcome in both are those
whose text PostgreSQL takes. -/
structure Agrees (run : List TwinCall) (s : Memory Unit × Database Unit) (l : Journal) : Prop where
  outcomes : ∀ c ∈ run, SameOutcome c.inMemory c.postgres ↔ c.call.sendable = true
  sound : l.Sound (run.flatMap TwinCall.drawn)
  memory : s.1.Keeps l
  database : s.2.Keeps l

variable {run : List TwinCall} {s s' : Memory Unit × Database Unit} {l : Journal} {c : TwinCall}

/-- One call to stores that agree, with identifiers that are fresh. -/
theorem Agrees.step (h : Agrees run s l) (hfirst : c.first ∉ run.flatMap TwinCall.drawn)
    (hsecond : c.second ∉ run.flatMap TwinCall.drawn)
    (hreads : c.call.ReadsBack c.first c.second) (hs : twins.step s c s') :
    Agrees (run ++ [c]) s' (l.serve c.call c.first c.second).2 := by
  obtain ⟨hinMemory, hpostgres⟩ := hs
  obtain ⟨hmatches, hmemory⟩ : Matches (l.serve c.call c.first c.second).1
      (s.1.serve c.call c.first c.second).1 ∧ _ := Memory.refines h.memory h.sound hfirst c.call
  obtain ⟨hmatches', hdatabase⟩ := Database.refines h.database h.sound hfirst hsecond c.call
  rw [hinMemory] at hmatches hmemory
  rw [hpostgres] at hmatches' hdatabase
  refine ⟨fun d hd => ?_, ?_, hmemory, hdatabase⟩
  · rcases List.mem_append.mp hd with hd | hd
    · exact h.outcomes d hd
    · rw [List.mem_singleton.mp hd]
      exact hmatches.sent hmatches'
  · rw [List.flatMap_append, List.flatMap_singleton]
    exact h.sound.serve hfirst hreads

theorem agrees_empty {m : Memory Unit} {db : Database Unit}
    (h : twins.start (m, db)) : Agrees [] (m, db) ⟨[], []⟩ := by
  cases h
  exact ⟨fun c hc => (nomatch hc), Journal.sound_empty, ⟨rfl, rfl, rfl⟩, ⟨rfl, rfl, rfl⟩⟩

/-- The stores agree along every run whose identifiers are fresh. -/
theorem twins_agree (h : twins.Trace run s) (hfresh : (run.flatMap TwinCall.drawn).Nodup)
    (hreads : ∀ c ∈ run, c.call.ReadsBack c.first c.second) : ∃ l, Agrees run s l := by
  revert hfresh hreads
  refine h.invariant (fun run s => (run.flatMap TwinCall.drawn).Nodup →
    (∀ c ∈ run, c.call.ReadsBack c.first c.second) → ∃ l, Agrees run s l) ?_ ?_
  · intro s hs _ _
    exact ⟨_, agrees_empty hs⟩
  · intro run s c s' _ ih hs hfresh hreads
    rw [List.flatMap_append, List.flatMap_singleton] at hfresh
    obtain ⟨hbefore, -, hnew⟩ := List.nodup_append.mp hfresh
    obtain ⟨l, hl⟩ := ih hbefore fun c hc => hreads c (List.mem_append_left _ hc)
    have hfirst : c.first ∉ run.flatMap TwinCall.drawn :=
      fun hmem => hnew _ hmem _ (by simp [TwinCall.drawn]) rfl
    have hsecond : c.second ∉ run.flatMap TwinCall.drawn :=
      fun hmem => hnew _ hmem _ (by simp [TwinCall.drawn]) rfl
    exact ⟨_, hl.step hfirst hsecond (hreads c (by simp)) hs⟩

end Agreement

/-- Where the two workflow stores agree. After the same calls from empty stores, with fresh
identifiers: the calls that raised in both or returned the same in both are those that look for no
text with the character NUL; the database has a row for every item in memory, and its rows of an
item are the events in memory, numbered from 1; and to read an item or its events raises in neither
and returns the same in both exactly where the identifier has no such character. -/
theorem workflow_stores_agree [Sha256] [ChatLibraries] [AdvisoryHash] [TableScan]
    {run : List TwinCall} {m : Memory Unit} {db : Database Unit} (h : twins.Trace run (m, db))
    (hfresh : (run.flatMap TwinCall.drawn).Nodup)
    (hreads : ∀ c ∈ run, c.call.ReadsBack c.first c.second) :
    (∀ c ∈ run, SameOutcome c.inMemory c.postgres ↔ c.call.sendable = true) ∧
    db.items.Perm (m.items.entries.map fun e => itemRow e.2) ∧
    (∀ key, rowsAt key (db.events.map (·.row)) = countedOn 0 (m.eventsAt key)) ∧
    (∀ key, (rowsAt key (db.events.map (·.row))).map (·.sequence) =
      List.range' 1 (m.eventsAt key).length) ∧
    ∀ tenantId workItemId first second, takesText workItemId = true ↔ ∃ item events,
      (m.serve (.get tenantId workItemId) first second).1 = .ok (.found item) ∧
      (db.serve (.get tenantId workItemId) first second).1 = .ok (.found item) ∧
      (m.serve (.trace tenantId workItemId) first second).1 = .ok (.events events) ∧
      (db.serve (.trace tenantId workItemId) first second).1 = .ok (.events events) := by
  obtain ⟨l, hl⟩ := twins_agree h hfresh hreads
  have hrows : ∀ key, rowsAt key (db.events.map (·.row)) = countedOn 0 (m.eventsAt key) := by
    intro key
    rw [hl.memory.eventsAt]
    exact hl.database.rowsAt key
  refine ⟨hl.outcomes, ?_, hrows, fun key => ?_, fun tenantId workItemId first second => ?_⟩
  · rw [hl.database.items, hl.memory.items, List.map_reverse, List.map_map]
    exact (List.reverse_perm _).symm
  · rw [hrows, sequences_countedOn]
  · constructor
    · intro htext
      refine ⟨l.find (tenantId, workItemId), l.trace (tenantId, workItemId), ?_, ?_, ?_, ?_⟩
      · rw [hl.memory.serve_get hl.sound]
      · rw [hl.database.serve_get hl.sound, if_pos htext]
      · rw [hl.memory.serve_trace]
      · rw [hl.database.serve_trace hl.sound, if_pos htext]
    · rintro ⟨item, events, -, hget, -, -⟩
      by_contra htext
      rw [hl.database.serve_get hl.sound, if_neg htext] at hget
      cases hget

/-! ## An intake, and what is read of it -/

namespace IntakeFixture

theorem tenant_valid : identifierPattern "tenant-a".toList = true := by decide
theorem actor_valid : identifierPattern "user-1".toList = true := by decide

def tenant : Identifier := ⟨"tenant-a", tenant_valid⟩

def actor : Identifier := ⟨"user-1", actor_valid⟩

def first : Uuid := ⟨1⟩

def second : Uuid := ⟨2⟩

def now : Datetime := ⟨0, some 0⟩

scoped instance sha256 : Sha256 where
  digest text := ⟨BitVec.ofNat 256 text.length⟩

scoped instance advisoryHash : AdvisoryHash where
  hash key := BitVec.ofNat 64 key.length

scoped instance scan : TableScan where
  order rows := rows
  perm rows := List.Perm.refl rows

def item : WorkflowItem :=
  ⟨first.workItemId, tenant, actor, .refining, "Conversation intake", ⟨0, by decide, by decide⟩⟩

def event : WorkflowEvent :=
  ⟨second.eventId, tenant, first.workItemId, actor, ⟨0, by decide, by decide⟩,
    .intake (intakeDigest "hello" none [] none)⟩

def itemDocument : String := String.ofList (ReviewModel.json item).dumps

def eventDocument : String := String.ofList (ReviewModel.json event).dumps

scoped instance libraries : ChatLibraries where
  search _ _ := false
  casefold text := text
  businessDraft _ := none
  businessReview _ := none
  draftAnswer _ := none
  independentReview _ := none
  workflowItem document := if document = itemDocument then some item else none
  workflowItemJson item := String.ofList (ReviewModel.json item).dumps
  workflowEvent document := if document = eventDocument then some event else none
  workflowEventJson event := String.ofList (ReviewModel.json event).dumps
  estimateModelCost _ _ _ _ _ := .ok none

/-- A call to both stores, with what it returns there. -/
def twin (s : Memory Unit × Database Unit) (call : StoreCall) (first second : Uuid) : TwinCall :=
  ⟨call, first, second, (s.1.serve call first second).1, (s.2.serve call first second).1⟩

/-- Both stores after a call. -/
def after (s : Memory Unit × Database Unit) (c : TwinCall) : Memory Unit × Database Unit :=
  ((s.1.serve c.call c.first c.second).2, (s.2.serve c.call c.first c.second).2)

theorem twin_steps (s : Memory Unit × Database Unit) (call : StoreCall) (first second : Uuid) :
    twins.step s (twin s call first second) (after s (twin s call first second)) :=
  ⟨rfl, rfl⟩

def started : Memory Unit × Database Unit := (Memory.empty, Database.empty)

def intake : TwinCall :=
  twin started (.createIntake tenant actor now "hello" none [] none) first second

def readAgain : TwinCall := twin (after started intake) (.trace tenant item.workItemId.text) ⟨3⟩ ⟨4⟩

theorem intake_readsBack : intake.call.ReadsBack first second := by
  refine ⟨fun made h => ?_, fun made h => ?_⟩
  · obtain rfl : item = made := Option.some.inj h
    exact if_pos rfl
  · obtain rfl : event = made := Option.some.inj h
    exact if_pos rfl

theorem trace_readsBack (tenantId : Identifier) (workItemId : String) (first second : Uuid) :
    (StoreCall.trace tenantId workItemId).ReadsBack first second :=
  ⟨fun _ h => (nomatch h), fun _ h => (nomatch h)⟩

def lookUp : TwinCall := twin started (.get tenant "\x00") ⟨1⟩ ⟨2⟩

end IntakeFixture

open IntakeFixture in
theorem workflow_stores_agree_intake :
    [intake, readAgain].Forall fun c => SameOutcome c.inMemory c.postgres := by
  have htrace : twins.Trace [intake, readAgain] (after (after started intake) readAgain) :=
    .step readAgain (.step intake (.start started rfl) (twin_steps started _ _ _))
      (twin_steps (after started intake) _ _ _)
  have hagree := workflow_stores_agree htrace (by decide) fun c hc => by
    rcases List.mem_pair.mp hc with rfl | rfl
    · exact intake_readsBack
    · exact trace_readsBack tenant item.workItemId.text ⟨3⟩ ⟨4⟩
  refine List.forall_iff_forall_mem.mpr fun c hc => (hagree.1 c hc).mpr ?_
  rcases List.mem_pair.mp hc with rfl | rfl
  · rfl
  · exact takesText_identifier item.workItemId

open IntakeFixture in
/-- The store in memory has no such item; the one over the database raises. -/
theorem nul_looked_up : twins.Trace [lookUp] (after started lookUp) ∧
    lookUp.inMemory = .ok (.found none) ∧ lookUp.postgres = .error .other ∧
    ¬ SameOutcome lookUp.inMemory lookUp.postgres := by
  have hinMemory : lookUp.inMemory = .ok (.found none) := rfl
  have hpostgres : lookUp.postgres = .error .other := rfl
  refine ⟨.step lookUp (.start started rfl) (twin_steps started _ _ _), hinMemory, hpostgres, ?_⟩
  rw [hinMemory, hpostgres]
  exact id

end NokincFactory
