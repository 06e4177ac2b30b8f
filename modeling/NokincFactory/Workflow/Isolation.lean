/-
  File:      NokincFactory/Workflow/Isolation.lean
  Subject:   What a tenant sees of a workflow store, and what a trace keeps.

  Both stores answer from one journal. A tenant's part of it answers the tenant's calls as the
  whole does, and the calls of the others leave that part as it is.

  * `StoreCall.tenantId`, `Journal.of`: whose a call is, and a tenant's part of a journal;
  * `Journal.serve_of`, `Journal.serve_others`: a call to the part, and a call of another tenant;
  * `journalOf`, `BothKeep`: the journal after a run, and both stores with it;
  * `tenants_isolated`: what a tenant is answered is what it would be answered alone;
  * `Journal.Conversations`, `traces_grow`: traces only grow, begin with an intake, and have their
    chat turns from the user who opened them.
-/
import NokincFactory.Workflow.Agreement

namespace NokincFactory

/-! ## 1. Whose a call is -/

def StoreCall.tenantId : StoreCall → Identifier
  | .createIntake tenantId .. => tenantId
  | .recordGroundedAnalysis tenantId .. => tenantId
  | .reserveChatTurn tenantId .. => tenantId
  | .recordChatTurn tenantId .. => tenantId
  | .addGateRequest tenantId .. => tenantId
  | .get tenantId _ => tenantId
  | .list tenantId => tenantId
  | .trace tenantId _ => tenantId

/-- A tenant's part of a journal. -/
def Journal.of (l : Journal) (tenantId : Identifier) : Journal :=
  ⟨l.items.filter (·.tenantId = tenantId), l.events.filter (·.tenantId = tenantId)⟩

section Parts

variable {call : StoreCall} {first second : Uuid}

theorem StoreCall.newItem_tenantId {item : WorkflowItem} (h : item ∈ call.newItem first) :
    item.tenantId = call.tenantId := by
  unfold StoreCall.newItem at h
  cases call with
  | createIntake tenantId actorId now message repository repositories analysisProfile =>
      cases hutc : utc now with
      | error e => simp [hutc] at h
      | ok current =>
          simp only [hutc, Option.mem_def, Option.some.injEq] at h
          rw [← h]
          rfl
  | _ => cases h

theorem StoreCall.newEvent_tenantId [Sha256] {event : WorkflowEvent}
    (h : event ∈ call.newEvent first second) : event.tenantId = call.tenantId := by
  cases call with
  | get => cases h
  | list => cases h
  | trace => cases h
  | _ => exact congrArg Prod.fst (key_eventAt h).1

variable {l : Journal} {tenantId : Identifier}

theorem Journal.find_of (workItemId : String) :
    (l.of tenantId).find (tenantId, workItemId) = l.find (tenantId, workItemId) := by
  unfold Journal.of Journal.find
  rw [List.find?_filter]
  refine congrArg (l.items.find? ·) (funext fun item => ?_)
  by_cases hkey : item.key = (tenantId, workItemId)
  · have howner : item.tenantId = tenantId := congrArg Prod.fst hkey
    simp [hkey, howner]
  · simp [hkey]

theorem Journal.trace_of (workItemId : String) :
    (l.of tenantId).trace (tenantId, workItemId) = l.trace (tenantId, workItemId) := by
  unfold Journal.of Journal.trace
  rw [List.filter_filter]
  refine congrArg (l.events.filter ·) (funext fun event => ?_)
  by_cases hkey : event.key = (tenantId, workItemId)
  · have howner : event.tenantId = tenantId := congrArg Prod.fst hkey
    simp [hkey, howner]
  · simp [hkey]

theorem Journal.reserved_of : (l.of tenantId).reserved tenantId = l.reserved tenantId := by
  unfold Journal.of Journal.reserved
  rw [List.filter_filter]
  refine congrArg (l.events.filter ·) (funext fun event => ?_)
  by_cases howner : event.tenantId = tenantId
  · simp [howner]
  · simp [howner]

/-- An event of the tenant is recorded in the part as in the whole. -/
theorem Journal.append_of {event : Option WorkflowEvent} {allowed : Prop} [Decidable allowed]
    (h : ∀ e ∈ event, e.tenantId = tenantId) :
    (l.of tenantId).append event allowed =
      ((l.append event allowed).1, (l.append event allowed).2.of tenantId) := by
  unfold Journal.append
  cases event with
  | none => rfl
  | some event =>
      dsimp only
      by_cases hallowed : allowed
      · rw [if_pos hallowed, if_pos hallowed]
        unfold Journal.of
        simp [h event rfl]
      · rw [if_neg hallowed, if_neg hallowed]

/-- An event of another tenant is not in the part. -/
theorem Journal.append_others {event : Option WorkflowEvent} {allowed : Prop} [Decidable allowed]
    (h : ∀ e ∈ event, e.tenantId ≠ tenantId) :
    (l.append event allowed).2.of tenantId = l.of tenantId := by
  unfold Journal.append
  cases event with
  | none => rfl
  | some event =>
      dsimp only
      by_cases hallowed : allowed
      · rw [if_pos hallowed]
        unfold Journal.of
        simp [h event rfl]
      · rw [if_neg hallowed]

variable [Sha256]

/-- A call of the tenant does to the part what it does to the whole. -/
theorem Journal.serve_of (l : Journal) (first second : Uuid) (h : call.tenantId = tenantId) :
    (l.of tenantId).serve call first second =
      ((l.serve call first second).1, (l.serve call first second).2.of tenantId) := by
  have hevent : ∀ e ∈ call.newEvent first second, e.tenantId = tenantId :=
    fun e he => (StoreCall.newEvent_tenantId he).trans h
  have hitem : ∀ i ∈ call.newItem first, i.tenantId = tenantId :=
    fun i hi => (StoreCall.newItem_tenantId hi).trans h
  cases call with
  | createIntake owner actorId now message repository repositories analysisProfile =>
      unfold Journal.serve
      dsimp only
      split
      next item event hnew hnewEvent =>
        unfold Journal.of
        simp [hitem item hnew, hevent event hnewEvent]
      next => rfl
  | recordGroundedAnalysis owner workItemId actorId analysis now =>
      obtain rfl : owner = tenantId := h
      unfold Journal.serve
      dsimp only
      rw [Journal.append_congr _ _ (by rw [Journal.find_of]), Journal.append_of hevent]
  | reserveChatTurn owner workItemId actorId reservation limit now =>
      obtain rfl : owner = tenantId := h
      unfold Journal.serve
      dsimp only
      rw [Journal.append_congr _ _ (by rw [Journal.find_of, Journal.reserved_of]),
        Journal.append_of hevent]
  | recordChatTurn owner workItemId actorId audit now =>
      obtain rfl : owner = tenantId := h
      unfold Journal.serve
      dsimp only
      rw [Journal.append_congr _ _ (by rw [Journal.find_of]), Journal.append_of hevent]
  | addGateRequest owner workItemId actorId gate decision decisionDigest now =>
      obtain rfl : owner = tenantId := h
      unfold Journal.serve
      dsimp only
      rw [Journal.append_congr _ _ (by rw [Journal.find_of]), Journal.append_of hevent]
  | get owner workItemId =>
      obtain rfl : owner = tenantId := h
      unfold Journal.serve
      dsimp only
      rw [Journal.find_of]
  | list owner =>
      obtain rfl : owner = tenantId := h
      unfold Journal.serve Journal.of
      simp
  | trace owner workItemId =>
      obtain rfl : owner = tenantId := h
      unfold Journal.serve
      dsimp only
      rw [Journal.trace_of]

theorem Journal.result_of (l : Journal) (takes : StoreCall → Bool) (first second : Uuid)
    (h : call.tenantId = tenantId) :
    (l.of tenantId).result takes call first second = l.result takes call first second := by
  unfold Journal.result
  rw [Journal.serve_of l first second h]

/-- A call of another tenant leaves the part as it is. -/
theorem Journal.serve_others (l : Journal) (first second : Uuid) (h : call.tenantId ≠ tenantId) :
    (l.serve call first second).2.of tenantId = l.of tenantId := by
  have hevent : ∀ e ∈ call.newEvent first second, e.tenantId ≠ tenantId :=
    fun e he hsame => h ((StoreCall.newEvent_tenantId he).symm.trans hsame)
  have hitem : ∀ i ∈ call.newItem first, i.tenantId ≠ tenantId :=
    fun i hi hsame => h ((StoreCall.newItem_tenantId hi).symm.trans hsame)
  cases call with
  | createIntake owner actorId now message repository repositories analysisProfile =>
      unfold Journal.serve
      dsimp only
      split
      next item event hnew hnewEvent =>
        unfold Journal.of
        simp [hitem item hnew, hevent event hnewEvent]
      next => rfl
  | recordGroundedAnalysis => exact Journal.append_others hevent
  | reserveChatTurn => exact Journal.append_others hevent
  | recordChatTurn => exact Journal.append_others hevent
  | addGateRequest => exact Journal.append_others hevent
  | get => rfl
  | list => rfl
  | trace => rfl

end Parts

/-! ## 2. The journal after a run -/

section Recorded

variable [Sha256] [ChatLibraries] [AdvisoryHash] [TableScan]

/-- What is recorded once some calls have been served. -/
def journalOf (run : List TwinCall) : Journal :=
  run.foldl (fun l c => (l.serve c.call c.first c.second).2) ⟨[], []⟩

omit [ChatLibraries] [AdvisoryHash] [TableScan] in
theorem journalOf_snoc (run : List TwinCall) (c : TwinCall) :
    journalOf (run ++ [c]) = ((journalOf run).serve c.call c.first c.second).2 := by
  unfold journalOf
  rw [List.foldl_append]
  rfl

/-- What the journal answers to a call, both stores answered; the database, where its text is
taken. -/
def TwinCall.Answered (c : TwinCall) (l : Journal) : Prop :=
  Matches (l.serve c.call c.first c.second).1 c.inMemory ∧
    Matches (l.result StoreCall.sendable c.call c.first c.second) c.postgres

/-- Both stores keep the journal of the run. -/
structure BothKeep (run : List TwinCall) (s : Memory Unit × Database Unit) : Prop where
  sound : (journalOf run).Sound (run.flatMap TwinCall.drawn)
  memory : s.1.Keeps (journalOf run)
  database : s.2.Keeps (journalOf run)

variable {run : List TwinCall} {s s' : Memory Unit × Database Unit} {c : TwinCall}

theorem bothKeep_start (h : twins.start s) : BothKeep [] s := by
  cases h
  exact ⟨Journal.sound_empty, ⟨rfl, rfl, rfl⟩, ⟨rfl, rfl, rfl⟩⟩

/-- One call, with identifiers that are fresh. -/
theorem BothKeep.step (h : BothKeep run s) (hfirst : c.first ∉ run.flatMap TwinCall.drawn)
    (hsecond : c.second ∉ run.flatMap TwinCall.drawn)
    (hreads : c.call.ReadsBack c.first c.second) (hs : twins.step s c s') :
    BothKeep (run ++ [c]) s' ∧ c.Answered (journalOf run) := by
  obtain ⟨hinMemory, hpostgres⟩ := hs
  obtain ⟨hmatches, hmemory⟩ : Matches ((journalOf run).serve c.call c.first c.second).1
      (s.1.serve c.call c.first c.second).1 ∧ _ := Memory.refines h.memory h.sound hfirst c.call
  obtain ⟨hmatches', hdatabase⟩ := Database.refines h.database h.sound hfirst hsecond c.call
  rw [hinMemory] at hmatches hmemory
  rw [hpostgres] at hmatches' hdatabase
  refine ⟨⟨?_, ?_, ?_⟩, hmatches, hmatches'⟩
  · rw [journalOf_snoc, List.flatMap_append, List.flatMap_singleton]
    exact h.sound.serve hfirst hreads
  · rw [journalOf_snoc]
    exact hmemory
  · rw [journalOf_snoc]
    exact hdatabase

omit [Sha256] [ChatLibraries] [AdvisoryHash] [TableScan] in
/-- The last call of a run with fresh identifiers draws what was not drawn before. -/
theorem fresh_snoc (h : ((run ++ [c]).flatMap TwinCall.drawn).Nodup) :
    (run.flatMap TwinCall.drawn).Nodup ∧ c.first ∉ run.flatMap TwinCall.drawn ∧
      c.second ∉ run.flatMap TwinCall.drawn ∧ c.first ≠ c.second := by
  rw [List.flatMap_append, List.flatMap_singleton] at h
  obtain ⟨hbefore, hdrawn, hnew⟩ := List.nodup_append.mp h
  refine ⟨hbefore, fun hmem => hnew _ hmem _ ?_ rfl, fun hmem => hnew _ hmem _ ?_ rfl, ?_⟩
  · simp [TwinCall.drawn]
  · simp [TwinCall.drawn]
  · simpa [TwinCall.drawn] using hdrawn

/-- Along a run whose identifiers are fresh, both stores keep its journal. -/
theorem twins_kept (h : twins.Trace run s) (hfresh : (run.flatMap TwinCall.drawn).Nodup)
    (hreads : ∀ c ∈ run, c.call.ReadsBack c.first c.second) : BothKeep run s := by
  revert hfresh hreads
  refine h.invariant (fun run s => (run.flatMap TwinCall.drawn).Nodup →
    (∀ c ∈ run, c.call.ReadsBack c.first c.second) → BothKeep run s) ?_ ?_
  · exact fun s hs _ _ => bothKeep_start hs
  · intro run s c s' _ ih hs hfresh hreads
    obtain ⟨hbefore, hfirst, hsecond, -⟩ := fresh_snoc hfresh
    have hkept := ih hbefore fun c hc => hreads c (List.mem_append_left _ hc)
    exact (hkept.step hfirst hsecond (hreads c (by simp)) hs).1

/-- Every call of such a run is answered from the journal of the calls before it. -/
theorem answered (h : twins.Trace run s) (hfresh : (run.flatMap TwinCall.drawn).Nodup)
    (hreads : ∀ c ∈ run, c.call.ReadsBack c.first c.second) {earlier : List TwinCall}
    (hc : earlier ++ [c] <+: run) : c.Answered (journalOf earlier) := by
  obtain ⟨s₀, s₁, hbefore, hstep, -⟩ := h.takes hc
  obtain ⟨later, rfl⟩ := hc
  rw [List.flatMap_append] at hfresh
  obtain ⟨hdrawn, hfirst, hsecond, -⟩ := fresh_snoc (List.nodup_append.mp hfresh).1
  have hkept := twins_kept hbefore hdrawn fun c hc => hreads c (by simp [hc])
  exact (hkept.step hfirst hsecond (hreads c (by simp)) hstep).2

end Recorded

/-! ## 3. Tenants -/

section Tenants

variable [Sha256] [ChatLibraries] [AdvisoryHash] [TableScan]

/-- The same call with the same identifiers, which had the same outcome in both stores. -/
structure TwinCall.SeenAlike (c c' : TwinCall) : Prop where
  call : c'.call = c.call
  drawn : c'.first = c.first ∧ c'.second = c.second
  inMemory : SameOutcome c.inMemory c'.inMemory
  postgres : SameOutcome c.postgres c'.postgres

/-- A run of a tenant's calls alone, beside a run of everyone's. -/
structure Apart (tenantId : Identifier) (run alone : List TwinCall) : Prop where
  calls : List.Forall₂ TwinCall.SeenAlike (run.filter (·.call.tenantId = tenantId)) alone
  journal : journalOf alone = (journalOf run).of tenantId

variable {tenantId : Identifier} {run alone : List TwinCall} {c : TwinCall}

omit [ChatLibraries] [AdvisoryHash] [TableScan] in
theorem Apart.drawn (h : Apart tenantId run alone) :
    alone.flatMap TwinCall.drawn =
      (run.filter (·.call.tenantId = tenantId)).flatMap TwinCall.drawn := by
  have hcalls := h.calls
  clear h
  generalize run.filter (·.call.tenantId = tenantId) = own at hcalls
  induction hcalls with
  | nil => rfl
  | cons hc _ ih =>
      rw [List.flatMap_cons, List.flatMap_cons, ih, TwinCall.drawn, TwinCall.drawn, hc.drawn.1,
        hc.drawn.2]

omit [ChatLibraries] [AdvisoryHash] [TableScan] in
theorem Apart.fresh (h : Apart tenantId run alone)
    (hfresh : (run.flatMap TwinCall.drawn).Nodup) : (alone.flatMap TwinCall.drawn).Nodup := by
  rw [h.drawn]
  exact hfresh.sublist (List.filter_sublist.flatMap _)

omit [AdvisoryHash] [TableScan] in
theorem Apart.readsBack (h : Apart tenantId run alone)
    (hreads : ∀ c ∈ run, c.call.ReadsBack c.first c.second) :
    ∀ c ∈ alone, c.call.ReadsBack c.first c.second := by
  have hown : ∀ c ∈ run.filter (·.call.tenantId = tenantId), c.call.ReadsBack c.first c.second :=
    fun c hc => hreads c (List.mem_of_mem_filter hc)
  have hcalls := h.calls
  clear h
  generalize run.filter (·.call.tenantId = tenantId) = own at hcalls hown
  induction hcalls with
  | nil => exact fun c hc => absurd hc List.not_mem_nil
  | cons hc _ ih =>
      intro d hd
      rcases List.mem_cons.mp hd with rfl | hd
      · rw [hc.call, hc.drawn.1, hc.drawn.2]
        exact hown _ List.mem_cons_self
      · exact ih (fun c hc => hown c (List.mem_cons_of_mem _ hc)) d hd

omit [ChatLibraries] [AdvisoryHash] [TableScan] in
/-- A call of another tenant is not among the tenant's. -/
theorem Apart.others (h : Apart tenantId run alone) (hc : c.call.tenantId ≠ tenantId) :
    Apart tenantId (run ++ [c]) alone where
  calls := by
    rw [List.filter_append, List.filter_singleton, decide_eq_false hc]
    simpa using h.calls
  journal := by
    rw [h.journal, journalOf_snoc, Journal.serve_others _ _ _ hc]

omit [ChatLibraries] [AdvisoryHash] [TableScan] in
/-- A call of the tenant, made alone as well. -/
theorem Apart.own {c' : TwinCall} (h : Apart tenantId run alone)
    (hc : c.call.tenantId = tenantId) (hsame : c'.call = c.call ∧ c'.first = c.first ∧
      c'.second = c.second) (hanswered : c.Answered (journalOf run))
    (hanswered' : c'.Answered (journalOf alone)) :
    Apart tenantId (run ++ [c]) (alone ++ [c']) := by
  obtain ⟨hcall, hfirst, hsecond⟩ := hsame
  have hserve := Journal.serve_of (journalOf run) c.first c.second hc
  unfold TwinCall.Answered at hanswered'
  rw [h.journal, hcall, hfirst, hsecond, hserve, Journal.result_of _ _ _ _ hc] at hanswered'
  constructor
  · rw [List.filter_append, List.filter_singleton, decide_eq_true hc]
    exact List.rel_append h.calls (.cons ⟨hcall, ⟨hfirst, hsecond⟩,
      hanswered.1.same hanswered'.1, hanswered.2.same hanswered'.2⟩ .nil)
  · rw [journalOf_snoc, journalOf_snoc, h.journal, hcall, hfirst, hsecond, hserve]

/-- What a tenant is answered does not depend on the others. In any run of calls to both stores
with fresh identifiers, the calls of a tenant have the outcomes that they have when they are made
alone: each raises in both runs, or returns the same in both. -/
theorem tenants_isolated {s : Memory Unit × Database Unit} (h : twins.Trace run s)
    (hfresh : (run.flatMap TwinCall.drawn).Nodup)
    (hreads : ∀ c ∈ run, c.call.ReadsBack c.first c.second) (tenantId : Identifier) :
    ∃ alone s', twins.Trace alone s' ∧
      List.Forall₂ TwinCall.SeenAlike (run.filter (·.call.tenantId = tenantId)) alone := by
  suffices hboth : ∃ alone s', twins.Trace alone s' ∧ Apart tenantId run alone by
    obtain ⟨alone, s', hrun, hapart⟩ := hboth
    exact ⟨alone, s', hrun, hapart.calls⟩
  revert hfresh hreads
  refine h.invariant (fun run s => (run.flatMap TwinCall.drawn).Nodup →
    (∀ c ∈ run, c.call.ReadsBack c.first c.second) →
      ∃ alone s', twins.Trace alone s' ∧ Apart tenantId run alone) ?_ ?_
  · intro s hs _ _
    exact ⟨[], s, .start s hs, .nil, rfl⟩
  · intro run s c s₁ hrun ih hs hfresh hreads
    obtain ⟨hbefore, hfirst, hsecond, -⟩ := fresh_snoc hfresh
    have hback : ∀ c ∈ run, c.call.ReadsBack c.first c.second :=
      fun c hc => hreads c (List.mem_append_left _ hc)
    obtain ⟨alone, s', halone, hapart⟩ := ih hbefore hback
    by_cases hc : c.call.tenantId = tenantId
    · have hkept := twins_kept hrun hbefore hback
      have hkept' := twins_kept halone (hapart.fresh hbefore) (hapart.readsBack hback)
      have hdrawn : alone.flatMap TwinCall.drawn ⊆ run.flatMap TwinCall.drawn := by
        rw [hapart.drawn]
        exact (List.filter_sublist.flatMap _).subset
      let c' : TwinCall := ⟨c.call, c.first, c.second, (s'.1.serve c.call c.first c.second).1,
        (s'.2.serve c.call c.first c.second).1⟩
      have hs' : twins.step s' c' ((s'.1.serve c.call c.first c.second).2,
        (s'.2.serve c.call c.first c.second).2) := ⟨rfl, rfl⟩
      have hread : c.call.ReadsBack c.first c.second := hreads c (by simp)
      have hanswered := (hkept.step hfirst hsecond hread hs).2
      have hanswered' := (BothKeep.step (c := c') hkept' (fun hmem => hfirst (hdrawn hmem))
        (fun hmem => hsecond (hdrawn hmem)) hread hs').2
      exact ⟨alone ++ [c'], _, halone.step c' hs',
        hapart.own hc ⟨rfl, rfl, rfl⟩ hanswered hanswered'⟩
    · exact ⟨alone, s', halone, hapart.others hc⟩

end Tenants

/-! ## 4. Traces -/

section Conversations

/-- A chat turn, reserved or recorded. -/
def WorkflowEvent.ofChat (e : WorkflowEvent) : Prop :=
  e.kind = .chatTurnReserved ∨ e.kind = .chatTurnRecorded

/-- The events of an item begin with its intake, and its chat turns are its creator's. -/
structure Journal.Conversations (l : Journal) : Prop where
  ids : (l.events.map (·.eventId)).Nodup
  begins : ∀ key, ∀ e ∈ (l.trace key).head?, e.kind = .intake
  owned : ∀ e ∈ l.events, e.ofChat → ∃ item ∈ l.find e.key, item.createdBy = e.actorId

variable [Sha256] [ChatLibraries] {l : Journal} {drawn : List Uuid} {call : StoreCall}
  {first second : Uuid}

omit [Sha256] [ChatLibraries] in
theorem Journal.conversations_empty : (⟨[], []⟩ : Journal).Conversations :=
  ⟨List.nodup_nil, fun _ _ he => absurd he (Option.not_mem_none _),
    fun _ he => absurd he List.not_mem_nil⟩

omit [Sha256] [ChatLibraries] in
theorem Journal.Conversations.ids_snoc (hc : l.Conversations) {event : WorkflowEvent}
    (hid : ∀ e ∈ l.events, e.eventId ≠ event.eventId) :
    ((l.events ++ [event]).map (·.eventId)).Nodup := by
  rw [List.map_append]
  refine List.nodup_append.mpr ⟨hc.ids, List.nodup_singleton _, fun a ha b hb hab => ?_⟩
  obtain ⟨e, he, rfl⟩ := List.mem_map.mp ha
  rw [List.mem_singleton.mp hb] at hab
  exact hid e he hab

omit [Sha256] [ChatLibraries] in
/-- What stands first under a key stays there; a new event does where there was none. -/
theorem Journal.Conversations.begins_snoc (hc : l.Conversations) {event : WorkflowEvent}
    (hfirst : (∀ e ∈ l.events, e.key ≠ event.key) → event.kind = .intake) (key : ItemKey) :
    ∀ e ∈ (({ l with events := l.events ++ [event] } : Journal).trace key).head?,
      e.kind = .intake := by
  intro e he
  unfold Journal.trace at he
  dsimp only at he
  rw [List.filter_append, List.head?_append] at he
  cases hhead : (l.events.filter (·.key = key)).head? with
  | some e' =>
      rw [hhead] at he
      cases he
      exact hc.begins key e hhead
  | none =>
      rw [hhead] at he
      obtain ⟨hmem, hkey⟩ := List.mem_filter.mp (List.mem_of_head? he)
      rw [List.mem_singleton.mp hmem] at hkey ⊢
      rw [List.head?_eq_none_iff, List.filter_eq_nil_iff] at hhead
      refine hfirst fun e' he' hsame => hhead e' he' ?_
      exact decide_eq_true (hsame.trans (of_decide_eq_true hkey))

omit [Sha256] in
/-- An event under a key that has events; a chat turn is its item's creator's. -/
theorem Journal.Conversations.append (hc : l.Conversations) (hl : l.Sound drawn)
    {event : WorkflowEvent} (hid : ∀ e ∈ l.events, e.eventId ≠ event.eventId)
    (hitem : (l.find event.key).isSome = true)
    (howned : event.ofChat → ∃ item ∈ l.find event.key, item.createdBy = event.actorId) :
    ({ l with events := l.events ++ [event] } : Journal).Conversations where
  ids := hc.ids_snoc hid
  begins := hc.begins_snoc fun hnone => by
    -- the item of the event has a first event already
    obtain ⟨e, he, hkey⟩ := (Journal.exists_event_iff hl).mpr hitem
    exact absurd hkey (hnone e he)
  owned e he hchat := by
    rcases List.mem_append.mp he with he | he
    · exact hc.owned e he hchat
    · rw [List.mem_singleton.mp he] at hchat ⊢
      exact howned hchat

omit [Sha256] [ChatLibraries] in
/-- A new item with its intake. -/
theorem Journal.Conversations.opens (hc : l.Conversations) (item : WorkflowItem)
    {event : WorkflowEvent} (hid : ∀ e ∈ l.events, e.eventId ≠ event.eventId)
    (hkind : event.kind = .intake) :
    (⟨l.items ++ [item], l.events ++ [event]⟩ : Journal).Conversations where
  ids := hc.ids_snoc hid
  begins := hc.begins_snoc fun _ => hkind
  owned e he hchat := by
    rcases List.mem_append.mp he with he | he
    · obtain ⟨own, hown, hcreated⟩ := hc.owned e he hchat
      refine ⟨own, ?_, hcreated⟩
      unfold Journal.find at hown ⊢
      rw [List.find?_append, Option.mem_def.mp hown]
      rfl
    · rw [List.mem_singleton.mp he] at hchat
      rcases hchat with hchat | hchat
      · exact absurd (hkind.symm.trans hchat) (by decide)
      · exact absurd (hkind.symm.trans hchat) (by decide)

omit [Sha256] in
/-- A call that appends: its event is new, and allowed only where its item is there. -/
theorem Journal.Conversations.appends (hc : l.Conversations) (hl : l.Sound drawn)
    {event : Option WorkflowEvent} {allowed : Prop} [Decidable allowed]
    (hid : ∀ e ∈ event, ∀ e' ∈ l.events, e'.eventId ≠ e.eventId)
    (hallowed : allowed → ∀ e ∈ event, (l.find e.key).isSome = true ∧
      (e.ofChat → ∃ item ∈ l.find e.key, item.createdBy = e.actorId)) :
    (l.append event allowed).2.Conversations := by
  unfold Journal.append
  cases event with
  | none => exact hc
  | some event =>
      dsimp only
      by_cases h : allowed
      · rw [if_pos h]
        obtain ⟨hitem, howned⟩ := hallowed h event rfl
        exact hc.append hl (hid event rfl) hitem howned
      · rw [if_neg h]
        exact hc

omit [Sha256] [ChatLibraries] in
/-- What a call appends to is what its event says. -/
theorem eventAt_fields {eventId tenantId workItemId actorId : Identifier} {payload : EventPayload}
    {now : Datetime} {e : WorkflowEvent}
    (h : e ∈ eventAt eventId tenantId workItemId actorId payload now) :
    e.actorId = actorId ∧ e.payload = payload := by
  unfold eventAt at h
  cases hutc : utc now with
  | error _ =>
      rw [hutc] at h
      cases h
  | ok current =>
      rw [hutc] at h
      cases h
      exact ⟨rfl, rfl⟩

/-- A call with fresh identifiers keeps conversations. -/
theorem Journal.Conversations.serve (hc : l.Conversations) (hl : l.Sound drawn)
    (hfirst : first ∉ drawn) (hsecond : second ∉ drawn) :
    (l.serve call first second).2.Conversations := by
  have hnew : ∀ u, u ∉ drawn → ∀ {e : WorkflowEvent}, e.eventId = u.eventId →
      ∀ e' ∈ l.events, e'.eventId ≠ e.eventId := by
    intro u hu e he e' he' hsame
    exact Journal.eventId_fresh hl hu e' he' (hsame.trans he)
  cases call with
  | createIntake tenantId actorId now message repository repositories analysisProfile =>
      unfold Journal.serve
      cases hitem : (StoreCall.createIntake tenantId actorId now message repository repositories
          analysisProfile).newItem first with
      | none => exact hc
      | some item =>
          cases hevent : (StoreCall.createIntake tenantId actorId now message repository
              repositories analysisProfile).newEvent first second with
          | none => exact hc
          | some event =>
              have hkind : event.kind = .intake := by
                unfold WorkflowEvent.kind
                rw [(eventAt_fields hevent).2]
                rfl
              exact hc.opens item (hnew second hsecond (key_eventAt hevent).2) hkind
  | recordGroundedAnalysis tenantId workItemId actorId analysis now =>
      refine hc.appends hl (fun e he => hnew first hfirst (key_eventAt he).2) fun h e he => ⟨?_, ?_⟩
      · rw [(key_eventAt he).1]
        exact h
      · unfold WorkflowEvent.ofChat WorkflowEvent.kind
        rw [(eventAt_fields he).2]
        rintro (h | h) <;> cases h
  | reserveChatTurn tenantId workItemId actorId reservation limit now =>
      refine hc.appends hl (fun e he => hnew first hfirst (key_eventAt he).2) fun h e he => ?_
      rw [(key_eventAt he).1, (eventAt_fields he).1]
      exact ⟨Journal.isSome_of_own h.2.1, fun _ => h.2.1⟩
  | recordChatTurn tenantId workItemId actorId audit now =>
      refine hc.appends hl (fun e he => hnew first hfirst (key_eventAt he).2) fun h e he => ?_
      rw [(key_eventAt he).1, (eventAt_fields he).1]
      exact ⟨Journal.isSome_of_own h, fun _ => h⟩
  | addGateRequest tenantId workItemId actorId gate decision decisionDigest now =>
      refine hc.appends hl (fun e he => hnew first hfirst (key_eventAt he).2) fun h e he => ⟨?_, ?_⟩
      · rw [(key_eventAt he).1]
        exact h
      · unfold WorkflowEvent.ofChat WorkflowEvent.kind
        rw [(eventAt_fields he).2]
        rintro (h | h) <;> cases h
  | get => exact hc
  | list => exact hc
  | trace => exact hc

variable [AdvisoryHash] [TableScan] {run : List TwinCall} {s : Memory Unit × Database Unit}

theorem conversations (h : twins.Trace run s) (hfresh : (run.flatMap TwinCall.drawn).Nodup)
    (hreads : ∀ c ∈ run, c.call.ReadsBack c.first c.second) : (journalOf run).Conversations := by
  revert hfresh hreads
  refine h.invariant (fun run s => (run.flatMap TwinCall.drawn).Nodup →
    (∀ c ∈ run, c.call.ReadsBack c.first c.second) → (journalOf run).Conversations) ?_ ?_
  · exact fun s hs _ _ => Journal.conversations_empty
  · intro run s c s' hrun ih _ hfresh hreads
    obtain ⟨hbefore, hfirst, hsecond, -⟩ := fresh_snoc hfresh
    have hback : ∀ c ∈ run, c.call.ReadsBack c.first c.second :=
      fun c hc => hreads c (List.mem_append_left _ hc)
    rw [journalOf_snoc]
    exact (ih hbefore hback).serve (twins_kept hrun hbefore hback).sound hfirst hsecond

omit [ChatLibraries] [AdvisoryHash] [TableScan] in
/-- Nothing is taken out of a journal or put before what it has. -/
theorem Journal.serve_grows (l : Journal) (call : StoreCall) (first second : Uuid) :
    l.items <+: (l.serve call first second).2.items ∧
      l.events <+: (l.serve call first second).2.events := by
  have happend : ∀ (event : Option WorkflowEvent) (allowed : Prop) [Decidable allowed],
      l.items <+: (l.append event allowed).2.items ∧
        l.events <+: (l.append event allowed).2.events := by
    intro event allowed _
    unfold Journal.append
    cases event with
    | none => exact ⟨List.prefix_rfl, List.prefix_rfl⟩
    | some event =>
        dsimp only
        by_cases h : allowed
        · rw [if_pos h]
          exact ⟨List.prefix_rfl, List.prefix_append _ _⟩
        · rw [if_neg h]
          exact ⟨List.prefix_rfl, List.prefix_rfl⟩
  cases call with
  | createIntake tenantId actorId now message repository repositories analysisProfile =>
      unfold Journal.serve
      dsimp only
      split
      · exact ⟨List.prefix_append _ _, List.prefix_append _ _⟩
      · exact ⟨List.prefix_rfl, List.prefix_rfl⟩
  | recordGroundedAnalysis => exact happend _ _
  | reserveChatTurn => exact happend _ _
  | recordChatTurn => exact happend _ _
  | addGateRequest => exact happend _ _
  | get => exact ⟨List.prefix_rfl, List.prefix_rfl⟩
  | list => exact ⟨List.prefix_rfl, List.prefix_rfl⟩
  | trace => exact ⟨List.prefix_rfl, List.prefix_rfl⟩

omit [ChatLibraries] [AdvisoryHash] [TableScan] in
theorem journalOf_grows (run later : List TwinCall) :
    (journalOf run).items <+: (journalOf (run ++ later)).items ∧
      (journalOf run).events <+: (journalOf (run ++ later)).events := by
  induction later using List.reverseRecOn with
  | nil =>
      rw [List.append_nil]
      exact ⟨List.prefix_rfl, List.prefix_rfl⟩
  | append_singleton later c ih =>
      rw [← List.append_assoc, journalOf_snoc]
      have hstep := Journal.serve_grows (journalOf (run ++ later)) c.call c.first c.second
      exact ⟨ih.1.trans hstep.1, ih.2.trans hstep.2⟩

omit [ChatLibraries] [AdvisoryHash] [TableScan] in
/-- The answer to a trace is the journal's. -/
theorem TwinCall.Answered.trace {c : TwinCall} (h : c.Answered l) {tenantId : Identifier}
    {workItemId : String} (hc : c.call = .trace tenantId workItemId) :
    c.inMemory = .ok (.events (l.trace (tenantId, workItemId))) ∧
      (takesText workItemId = true →
        c.postgres = .ok (.events (l.trace (tenantId, workItemId)))) := by
  have hevents : ∀ r : Except Failure StoreResult,
      Matches (some (.events (l.trace (tenantId, workItemId)))) r →
        r = .ok (.events (l.trace (tenantId, workItemId))) := by
    intro r hr
    cases r with
    | error _ => exact hr.elim
    | ok r => exact congrArg Except.ok (Eq.symm hr)
  unfold TwinCall.Answered Journal.result at h
  rw [hc] at h
  refine ⟨hevents _ h.1, fun htext => hevents _ ?_⟩
  have hpostgres := h.2
  rw [if_pos (by exact htext)] at hpostgres
  exact hpostgres

omit [ChatLibraries] [AdvisoryHash] [TableScan] in
/-- The answer to a look for an item is the journal's. -/
theorem TwinCall.Answered.get {c : TwinCall} (h : c.Answered l) {tenantId : Identifier}
    {workItemId : String} (hc : c.call = .get tenantId workItemId) :
    c.inMemory = .ok (.found (l.find (tenantId, workItemId))) := by
  obtain ⟨h, -⟩ := h
  rw [hc] at h
  cases hr : c.inMemory with
  | error _ =>
      rw [hr] at h
      exact h.elim
  | ok r =>
      rw [hr] at h
      exact congrArg Except.ok (Eq.symm h)

omit [ChatLibraries] [AdvisoryHash] [TableScan] in
/-- What was found under a key is found there later. -/
theorem find_journalOf {earlier later : List TwinCall} {key : ItemKey} {item : WorkflowItem}
    (h : (journalOf earlier).find key = some item) :
    (journalOf (earlier ++ later)).find key = some item := by
  obtain ⟨new, hnew⟩ := (journalOf_grows earlier later).1
  unfold Journal.find at h ⊢
  rw [← hnew, List.find?_append, h]
  rfl

omit [Sha256] [ChatLibraries] [AdvisoryHash] [TableScan] in
/-- All chat turns of an item are by one user, its creator. -/
theorem Journal.Conversations.creator (h : l.Conversations) (tenantId : Identifier)
    (workItemId : String) :
    ∃ creator, (∀ e ∈ l.trace (tenantId, workItemId), e.ofChat → e.actorId = creator) ∧
      ∀ item, l.find (tenantId, workItemId) = some item → item.createdBy = creator := by
  have howned : ∀ e ∈ l.trace (tenantId, workItemId), e.ofChat →
      ∃ item, l.find (tenantId, workItemId) = some item ∧ item.createdBy = e.actorId := by
    intro e he hchat
    obtain ⟨hmem, hkey⟩ := List.mem_filter.mp he
    rw [← of_decide_eq_true hkey]
    exact h.owned e hmem hchat
  cases hfind : l.find (tenantId, workItemId) with
  | none =>
      refine ⟨tenantId, fun e he hchat => ?_, fun item hitem => by cases hitem⟩
      obtain ⟨item, hitem, -⟩ := howned e he hchat
      rw [hfind] at hitem
      cases hitem
  | some item =>
      refine ⟨item.createdBy, fun e he hchat => ?_, fun other hother => ?_⟩
      · obtain ⟨own, hown, hcreated⟩ := howned e he hchat
        rw [hfind] at hown
        cases hown
        exact hcreated.symm
      · cases hother
        rfl

/-- Traces only grow. In any run of calls to both stores with fresh identifiers, a later trace of
an item goes on from an earlier one, in both stores alike; over the database, where the identifier
that is asked for has no NUL, as that of an item has none. It begins with the intake of the item,
its events are told apart by their identifiers, and its chat turns were reserved and recorded by
one user: the one whom every look at the item before names as its creator. -/
theorem traces_grow {earlier middle later : List TwinCall} {c c' : TwinCall}
    (h : twins.Trace (earlier ++ c :: middle ++ c' :: later) s)
    (hfresh : ((earlier ++ c :: middle ++ c' :: later).flatMap TwinCall.drawn).Nodup)
    (hreads : ∀ d ∈ earlier ++ c :: middle ++ c' :: later, d.call.ReadsBack d.first d.second)
    {tenantId : Identifier} {workItemId : String} (hc : c.call = .trace tenantId workItemId)
    (hc' : c'.call = .trace tenantId workItemId) :
    ∃ seen new, c.inMemory = .ok (.events seen) ∧ c'.inMemory = .ok (.events (seen ++ new)) ∧
      (takesText workItemId = true → c.postgres = .ok (.events seen) ∧
        c'.postgres = .ok (.events (seen ++ new))) ∧
      (∀ e ∈ (seen ++ new).head?, e.kind = .intake) ∧
      ((seen ++ new).map (·.eventId)).Nodup ∧
      ∃ creator, (∀ e ∈ seen ++ new, e.ofChat → e.actorId = creator) ∧
        ∀ d ∈ earlier ++ c :: middle, d.call = .get tenantId workItemId → ∀ item,
          d.inMemory = .ok (.found (some item)) → item.createdBy = creator := by
  have hfirst : earlier ++ [c] <+: earlier ++ c :: middle ++ c' :: later :=
    ⟨middle ++ c' :: later, by simp⟩
  have hsecond : (earlier ++ c :: middle) ++ [c'] <+: earlier ++ c :: middle ++ c' :: later :=
    ⟨later, by simp⟩
  obtain ⟨hseen, hseen'⟩ := (answered h hfresh hreads hfirst).trace hc
  obtain ⟨hall, hall'⟩ := (answered h hfresh hreads hsecond).trace hc'
  -- the journal of the later trace holds the events of the earlier one
  obtain ⟨new, hnew⟩ := ((journalOf_grows earlier (c :: middle)).2.filter
    (·.key = (tenantId, workItemId)))
  obtain ⟨s₀, hbefore⟩ := h.before
  have hdrawn : ((earlier ++ c :: middle).flatMap TwinCall.drawn).Nodup := by
    rw [List.flatMap_append] at hfresh
    exact (List.nodup_append.mp hfresh).1
  have hback : ∀ d ∈ earlier ++ c :: middle, d.call.ReadsBack d.first d.second :=
    fun d hd => hreads d (List.mem_append_left _ hd)
  have hconversations := conversations hbefore hdrawn hback
  have htrace : (journalOf earlier).trace (tenantId, workItemId) ++ new =
      (journalOf (earlier ++ c :: middle)).trace (tenantId, workItemId) := hnew
  refine ⟨_, new, hseen, ?_, fun htext => ⟨hseen' htext, ?_⟩, ?_, ?_, ?_⟩
  · rw [htrace]
    exact hall
  · rw [htrace]
    exact hall' htext
  · rw [htrace]
    exact hconversations.begins _
  · rw [htrace]
    exact hconversations.ids.sublist (List.filter_sublist.map _)
  · rw [htrace]
    obtain ⟨creator, hchat, hcreator⟩ := hconversations.creator tenantId workItemId
    refine ⟨creator, hchat, fun d hd hget item hfound => hcreator item ?_⟩
    -- a look at the item finds what the journal of the later trace has of it
    obtain ⟨before, after, hsplit⟩ := List.append_of_mem hd
    have hd' : before ++ [d] <+: earlier ++ c :: middle ++ c' :: later := by
      rw [hsplit]
      exact ⟨after ++ c' :: later, by simp⟩
    have hanswer := (answered h hfresh hreads hd').get hget
    rw [hfound] at hanswer
    rw [hsplit]
    exact find_journalOf (StoreResult.found.inj (Except.ok.inj hanswer)).symm

end Conversations

/-! ## Two tenants, and one item that is traced twice -/

namespace IsolationFixture

open IntakeFixture

def other : Identifier := ⟨"tenant-b", by decide⟩

def opened : Memory Unit × Database Unit := after started intake

def peek : TwinCall := twin opened (.get other item.workItemId.text) ⟨3⟩ ⟨4⟩

def look : TwinCall := twin (after opened peek) (.trace tenant item.workItemId.text) ⟨5⟩ ⟨6⟩

def lookAgain : TwinCall :=
  twin (after (after opened peek) look) (.trace tenant item.workItemId.text) ⟨7⟩ ⟨8⟩

def ended : Memory Unit × Database Unit := after (after (after opened peek) look) lookAgain

theorem run_trace : twins.Trace [intake, peek, look, lookAgain] ended :=
  .step lookAgain (.step look (.step peek (.step intake (.start started rfl)
    (twin_steps started _ _ _)) (twin_steps opened _ _ _))
    (twin_steps (after opened peek) _ _ _)) (twin_steps (after (after opened peek) look) _ _ _)

theorem run_reads : ∀ c ∈ [intake, peek, look, lookAgain], c.call.ReadsBack c.first c.second := by
  have hreads : ∀ c : TwinCall, c.call.newItem c.first = none →
      c.call.newEvent c.first c.second = none → c.call.ReadsBack c.first c.second := by
    intro c hitem hevent
    refine ⟨fun made h => ?_, fun made h => ?_⟩
    · rw [hitem] at h
      cases h
    · rw [hevent] at h
      cases h
  intro c hc
  simp only [List.mem_cons, List.not_mem_nil, or_false] at hc
  rcases hc with rfl | rfl | rfl | rfl
  · exact intake_readsBack
  · exact hreads peek rfl rfl
  · exact hreads look rfl rfl
  · exact hreads lookAgain rfl rfl

end IsolationFixture

open IntakeFixture IsolationFixture in
theorem tenants_isolated_peek : ∃ alone s', twins.Trace alone s' ∧ List.Forall₂ TwinCall.SeenAlike
    ([intake, peek, look, lookAgain].filter (·.call.tenantId = other)) alone :=
  tenants_isolated run_trace (by decide) run_reads other

open IntakeFixture IsolationFixture in
theorem traces_grow_look : ∃ seen new, look.postgres = .ok (.events seen) ∧
    lookAgain.inMemory = .ok (.events (seen ++ new)) := by
  have hrun : twins.Trace ([intake, peek] ++ look :: [] ++ lookAgain :: []) ended := run_trace
  obtain ⟨seen, new, -, hall, hseen, -⟩ := traces_grow hrun (by decide) run_reads rfl rfl
  exact ⟨seen, new, (hseen (takesText_identifier item.workItemId)).1, hall⟩

end NokincFactory
