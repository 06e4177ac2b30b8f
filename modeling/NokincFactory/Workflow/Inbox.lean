/-
  File:      NokincFactory/Workflow/Inbox.lean
  Subject:   The inbox, along every run of its callers.

  Statements fail, commits go unheard and callers are gone at any place.

  * `InboxCall`: a call of a method, what it may change, and what it returns;
  * `received`, `processed_last`: the versions of an entry are its receipt and its mark;
  * `inbox_once`: what the inbox promises.
-/
import NokincFactory.Workflow.BoxRules

namespace NokincFactory

open WorkflowBoxes

/-! ## 1. Calls -/

inductive InboxCall where
  | record (tenantId eventId source : Identifier) (payloadDigest : Digest) (receivedAt : Datetime)
  | mark (tenantId eventId : String) (now : Datetime)

inductive InboxResult where
  | entry (entry : InboxEntry)
  | marked (accepted : Bool)
deriving DecidableEq

section Calls

variable [Sha256]

namespace InboxCall

def program : InboxCall → BoxProg InboxRow InboxResult
  | .record tenantId eventId source payloadDigest receivedAt => do
      let entry ← recordInbox tenantId eventId source payloadDigest receivedAt
      pure (.entry entry)
  | .mark tenantId eventId now => do
      let accepted ← markInboxProcessed tenantId eventId now
      pure (.marked accepted)

/-- What a call makes of a row: an entry where there was none, or a mark of one that was only
received. -/
def legal : InboxCall → Option InboxRow → InboxRow → Prop
  | .record tenantId eventId source payloadDigest receivedAt, before, after =>
      before = none ∧ ∃ current, utc receivedAt = .ok current ∧
        after = newInboxRow tenantId eventId source payloadDigest current
  | .mark tenantId eventId now, before, after =>
      ∃ row ∈ before, ∃ current, utc now = .ok current ∧
        KeyedRow.key row = (tenantId, eventId) ∧ row.status = .received ∧
        after = processedRow current row

/-- A row that is read as an entry. -/
def Readable (row : InboxRow) : Prop := ∃ entry, readInbox row = .ok entry

/-- What a call returned, by what it wrote and selected. -/
def returned : InboxCall → InboxResult → Option InboxRow → Option (BoxKey × InboxRow) → Prop
  | .record tenantId eventId source payloadDigest _, .entry entry, _, selected =>
      ∃ row, selected = some ((tenantId.text, eventId.text), row) ∧ readInbox row = .ok entry ∧
        entry.source = source ∧ entry.payloadDigest = payloadDigest
  | .mark .., .marked accepted, written, _ => accepted = written.isSome
  | _, _, _, _ => False

/-! ## 2. What a call does -/

theorem readInbox_ok {row : InboxRow} {entry : InboxEntry} : readInbox row = .ok entry ↔
    inboxIdentity row.eventId row.tenantId row.source row.payloadDigest = row.contentDigest ∧
      entry = ⟨row.eventId, row.tenantId, row.source, row.payloadDigest, row.status,
        row.receivedAt, row.processedAt⟩ := by
  unfold readInbox
  rw [Except.seq_ok, guardThat_ok, Except.pure_ok]
  exact and_congr_right fun _ => eq_comm

/-- The protocol of a call. -/
abbrev protocol (call : InboxCall) : Protocol (RowAsk BoxLook BoxKey InboxRow)
    (RowAsk.Answer Failure) (RowStage BoxKey InboxRow) :=
  rowProtocol call.legal Readable

theorem follows_record (tenantId eventId source : Identifier) (payloadDigest : Digest)
    (receivedAt : Datetime) :
    let call := InboxCall.record tenantId eventId source payloadDigest receivedAt
    call.protocol.Follows .first (recordInbox tenantId eventId source payloadDigest receivedAt)
      (Returns fun entry => call.returned (.entry entry)) := by
  intro call
  unfold recordInbox
  refine Protocol.follows_bind.mpr (Protocol.follows_ofExcept.mpr ?_)
  cases hutc : utc receivedAt with
  | error e =>
      cases e with
      | message text => exact fun value hr => (nomatch hr)
      | violation reason => exact fun value hr => (nomatch hr)
  | ok current =>
      have hlegal : call.legal none
          (newInboxRow tenantId eventId source payloadDigest current) :=
        ⟨rfl, current, hutc, rfl⟩
      have hfine : KeepsFine call.legal Readable
          (newInboxRow tenantId eventId source payloadDigest current) :=
        fun _ _ _ => ⟨_, readInbox_ok.mpr ⟨rfl, rfl⟩⟩
      refine follows_transaction ?_
      refine Protocol.follows_bind.mpr (follows_execute.mpr ⟨fun _ => ⟨rfl, hlegal⟩, fun a => ?_⟩)
      cases a with
      | error e => exact .raised rfl
      | ok written =>
          refine (follows_reread rfl fun v hv => ?_).weaken fun r st h => h
          obtain ⟨_, -, rfl⟩ := Option.map_eq_some_iff.mp hv
          exact hfine

theorem follows_mark (tenantId eventId : String) (now : Datetime) :
    let call := InboxCall.mark tenantId eventId now
    call.protocol.Follows .first (markInboxProcessed tenantId eventId now)
      (Returns fun accepted => call.returned (.marked accepted)) := by
  intro call
  unfold markInboxProcessed
  refine Protocol.follows_bind.mpr (Protocol.follows_ofExcept.mpr ?_)
  cases hutc : utc now with
  | error e =>
      cases e with
      | message text => exact fun value hr => (nomatch hr)
      | violation reason => exact fun value hr => (nomatch hr)
  | ok current =>
      have hlegal : ∀ v, KeyedRow.key v = (tenantId, eventId) →
          decide (v.status = .received) = true → call.legal (some v) (processedRow current v) :=
        fun v hkey hreceived => ⟨v, rfl, current, hutc, hkey, of_decide_eq_true hreceived, rfl⟩
      refine follows_transaction ?_
      refine Protocol.follows_bind.mpr (follows_execute.mpr
        ⟨fun _ => ⟨rfl, fun v _ hvk hp => ⟨hvk, hlegal v hvk hp⟩⟩, fun a => ?_⟩)
      cases a with
      | error e => exact .raised rfl
      | ok written =>
          refine ⟨rfl, fun value hr _ => ?_⟩
          cases hr
          refine ⟨fun v hv before hchange hfine => ?_, rfl⟩
          obtain ⟨row, hrow, _, -, -, -, rfl⟩ := hchange
          obtain ⟨entry, hread⟩ := hfine row hrow
          exact ⟨_, readInbox_ok.mpr ⟨(readInbox_ok.mp hread).1, rfl⟩⟩

/-- A call makes no change but its own, and what it returns says what it made. -/
theorem follows (call : InboxCall) :
    call.protocol.Follows .first call.program (Returns call.returned) := by
  cases call with
  | record tenantId eventId source payloadDigest receivedAt =>
      refine (follows_record tenantId eventId source payloadDigest receivedAt).seq ?_ ?_
      · exact fun e st _ => fun value hr => (nomatch hr)
      · intro entry st h value hr hknown
        cases hr
        exact h entry rfl hknown
  | mark tenantId eventId now =>
      refine (follows_mark tenantId eventId now).seq ?_ ?_
      · exact fun e st _ => fun value hr => (nomatch hr)
      · intro accepted st h value hr hknown
        cases hr
        exact h accepted rfl hknown

end InboxCall

/-! ## 3. The versions of an entry -/

section History

variable {ι : Type} {calls : ι → InboxCall} {l pre post : List (ι × InboxRow)} {i : ι}
  {row : InboxRow}

/-- What the versions of an entry are: none, its receipt, or its receipt and its mark. -/
inductive Received (calls : ι → InboxCall) : List (ι × InboxRow) → Prop where
  | none : Received calls []
  | received (i : ι) (row : InboxRow) (hi : (calls i).legal none row)
      (hstatus : row.status = .received) : Received calls [(i, row)]
  | processed (i j : ι) (row after : InboxRow) (hi : (calls i).legal none row)
      (hj : (calls j).legal (some row) after) (hreceived : row.status = .received)
      (hstatus : after.status = .processed) (hsource : after.source = row.source)
      (hpayload : after.payloadDigest = row.payloadDigest) :
      Received calls [(i, row), (j, after)]

theorem received (h : Chained (fun i => (calls i).legal) l) : Received calls l := by
  induction h with
  | nil => exact .none
  | @snoc l i after hl hlegal ih =>
      cases hcall : calls i with
      | record tenantId eventId source payloadDigest receivedAt =>
          rw [hcall] at hlegal
          obtain ⟨hnone, current, hutc, rfl⟩ := hlegal
          cases latestOf_eq_none.mp hnone
          refine .received i _ ?_ rfl
          rw [hcall]
          exact ⟨rfl, current, hutc, rfl⟩
      | mark tenantId eventId now =>
          have hmark := hlegal
          rw [hcall] at hmark
          obtain ⟨before, hbefore, current, -, -, hreceived, rfl⟩ := hmark
          cases ih with
          | none => cases hbefore
          | received j row hj hstatus =>
              cases hbefore
              exact .processed j i row _ hj hlegal hstatus rfl rfl rfl
          | processed j k row after hj hk _ hstatus hsource hpayload =>
              cases hbefore
              rw [show after.status = .received from hreceived] at hstatus
              cases hstatus

variable {k : BoxKey} {w : RowTable ι BoxKey InboxRow} {stage : ι → RowStage BoxKey InboxRow}

/-- An entry that is processed stays as it is. -/
theorem processed_last (h : Received calls (pre ++ (i, row) :: post))
    (hprocessed : row.status = .processed) : post = [] := by
  generalize hl : pre ++ (i, row) :: post = l at h
  cases h with
  | none => simp at hl
  | received j row' hj hstatus =>
      cases pre with
      | nil =>
          cases hl
          rfl
      | cons e pre => simp at hl
  | processed j k row' after hj hk hreceived hstatus hsource hpayload =>
      cases pre with
      | nil =>
          cases hl
          rw [hreceived] at hprocessed
          cases hprocessed
      | cons e pre =>
          cases pre with
          | nil =>
              cases hl
              rfl
          | cons e' pre => simp at hl

/-- All versions of an entry are of one event. -/
theorem Received.same (h : Received calls l) {e e' : ι × InboxRow} (he : e ∈ l) (he' : e' ∈ l) :
    e.2.source = e'.2.source ∧ e.2.payloadDigest = e'.2.payloadDigest := by
  cases h with
  | none => cases he
  | received j row hj hstatus =>
      rw [List.mem_singleton.mp he, List.mem_singleton.mp he']
      exact ⟨rfl, rfl⟩
  | processed j k row after hj hk hreceived hstatus hsource hpayload =>
      rcases List.mem_pair.mp he with rfl | rfl
      · rcases List.mem_pair.mp he' with rfl | rfl
        · exact ⟨rfl, rfl⟩
        · exact ⟨hsource.symm, hpayload.symm⟩
      · rcases List.mem_pair.mp he' with rfl | rfl
        · exact ⟨hsource, hpayload⟩
        · exact ⟨rfl, rfl⟩

/-- A call that records writes the first version of its own entry, or none. -/
theorem recorded_first (h : RowsSound (fun i => (calls i).legal) InboxCall.Readable w stage)
    {tenantId eventId source : Identifier} {payloadDigest : Digest} {receivedAt : Datetime}
    (hcall : calls i = .record tenantId eventId source payloadDigest receivedAt)
    (hmem : (i, row) ∈ w.versions k) :
    k = (tenantId.text, eventId.text) ∧ row.source = source ∧ row.payloadDigest = payloadDigest ∧
      ∃ post, w.versions k = (i, row) :: post := by
  obtain ⟨hkey, pre, post, hsplit, hlegal⟩ := h.version_change hmem
  rw [hcall] at hlegal
  obtain ⟨hnone, current, -, rfl⟩ := hlegal
  rw [latestOf_eq_none.mp hnone] at hsplit
  exact ⟨hkey.symm, rfl, rfl, post, hsplit⟩

/-- A mark that was accepted is right after the receipt, and is the last version. -/
theorem marked_last (h : RowsSound (fun i => (calls i).legal) InboxCall.Readable w stage)
    {tenantId eventId : String} {now : Datetime} (hcall : calls i = .mark tenantId eventId now)
    (hmem : (i, row) ∈ w.versions k) :
    k = (tenantId, eventId) ∧ ∃ j before tenantId' eventId' source payloadDigest receivedAt current,
      w.versions k = [(j, before), (i, row)] ∧
        calls j = .record tenantId' eventId' source payloadDigest receivedAt ∧
        tenantId'.text = tenantId ∧ eventId'.text = eventId ∧ utc now = .ok current ∧
        row = processedRow current before := by
  obtain ⟨hkey, pre, post, hsplit, hlegal⟩ := h.version_change hmem
  rw [hcall] at hlegal
  obtain ⟨before, hbefore, current, hutc, hkey', hreceived, rfl⟩ := hlegal
  have hversions := received (h.chained k)
  rw [hsplit] at hversions
  obtain rfl := processed_last hversions rfl
  refine ⟨hkey.symm.trans hkey', ?_⟩
  generalize hl : pre ++ [(i, processedRow current before)] = l at hversions
  cases hversions with
  | none => simp at hl
  | received j row' hj hstatus =>
      obtain ⟨rfl, -⟩ := List.append_eq_singleton_iff.mp hl |>.resolve_right (by simp)
      cases hbefore
  | processed j j' row' after hj hj' _ hstatus _ _ =>
      have hl : pre ++ [(i, processedRow current before)] = [(j, row')] ++ [(j', after)] := hl
      obtain ⟨rfl, he⟩ := List.append_inj' hl rfl
      cases hbefore
      cases hcall' : calls j with
      | record tenantId' eventId' source payloadDigest receivedAt =>
          have hfirst := hj
          rw [hcall'] at hfirst
          obtain ⟨-, current', -, rfl⟩ := hfirst
          refine ⟨j, _, tenantId', eventId', source, payloadDigest, receivedAt, current, hsplit,
            hcall', congrArg Prod.fst hkey', congrArg Prod.snd hkey', hutc, rfl⟩
      | mark tenantId' eventId' now' =>
          rw [hcall'] at hj
          obtain ⟨_, hrow, -⟩ := hj
          cases hrow

end History

/-! ## 4. Everything that the inbox promises -/

section Runs

variable {ι : Type} [DecidableEq ι]

/-- The inbox, and where each call is. -/
abbrev InboxState (ι : Type) : Type :=
  RowTable ι BoxKey InboxRow × (ι → BoxProg InboxRow InboxResult)

/-- The runs of calls, of which any may be under way at a time. -/
def inboxRuns (calls : ι → InboxCall) :
    Labelled (Deed ι (RowAsk BoxLook BoxKey InboxRow) (RowAsk.Answer Failure)) (InboxState ι) :=
  (rowSurroundings ι BoxLook BoxKey InboxRow Failure).crew fun i => (calls i).program

variable {calls : ι → InboxCall}
  {run : List (Deed ι (RowAsk BoxLook BoxKey InboxRow) (RowAsk.Answer Failure))}
  {s : InboxState ι} {i : ι}

/-- What holds at every place of every run. -/
theorem inbox_sound (h : (inboxRuns calls).Trace run s) :
    ∃ stage, RowsSound (fun i => (calls i).legal) InboxCall.Readable s.1 stage ∧
      Selected run stage ∧
      ∀ i value, s.2 i = .ret value → (stage i).phase = .over ∧
        (calls i).returned value (stage i).written (stage i).selected := by
  obtain ⟨stage, ⟨hsound, hselected⟩, hfollows⟩ := rows_sound (fun i => (calls i).follows) h
  refine ⟨stage, hsound, hselected, fun i value hi => ?_⟩
  have hend := hfollows i
  rw [hi] at hend
  exact hend value rfl (hsound.fits i).known

/-- What a recorded event gets back: its entry, as it was when it was selected. -/
theorem record_returned (h : (inboxRuns calls).Trace run s) {tenantId eventId source : Identifier}
    {payloadDigest : Digest} {receivedAt : Datetime} {entry : InboxEntry}
    (hcall : calls i = .record tenantId eventId source payloadDigest receivedAt)
    (hi : s.2 i = .ret (.entry entry)) :
    ∃ row, readInbox row = .ok entry ∧ entry.source = source ∧
      entry.payloadDigest = payloadDigest ∧
      (∃ j, (j, row) ∈ s.1.versions (tenantId.text, eventId.text)) ∧
      ∃ earlier s', earlier ++ [.asked i (.select (tenantId.text, eventId.text)) (.ok (some row))]
        <+: run ∧ (inboxRuns calls).Trace earlier s' ∧
        ∀ there ∈ s'.1.row (tenantId.text, eventId.text), there = row := by
  obtain ⟨stage, hsound, hselected, hreturned⟩ := inbox_sound h
  obtain ⟨hover, hvalue⟩ := hreturned i _ hi
  rw [hcall] at hvalue
  obtain ⟨row, hrow, hread, hsource, hpayload⟩ := hvalue
  refine ⟨row, hread, hsource, hpayload, (hsound.fits i).there hover hrow, ?_⟩
  refine selected_there (fun i => (calls i).follows) h (fun before v hlegal => ?_) hselected hrow
  rw [hcall] at hlegal
  exact hlegal.1

/-- What the inbox promises at each place of a run. -/
structure InboxOnce (calls : ι → InboxCall)
    (run : List (Deed ι (RowAsk BoxLook BoxKey InboxRow) (RowAsk.Answer Failure)))
    (s : InboxState ι) : Prop where
  /-- a mark that was accepted came right after the receipt -/
  marked : ∀ i tenantId eventId now, calls i = .mark tenantId eventId now →
    s.2 i = .ret (.marked true) →
    ∃ j before tenantId' eventId' source payloadDigest receivedAt current,
      s.1.versions (tenantId, eventId) = [(j, before), (i, processedRow current before)] ∧
        calls j = .record tenantId' eventId' source payloadDigest receivedAt ∧
        tenantId'.text = tenantId ∧ eventId'.text = eventId ∧ utc now = .ok current
  markedOnce : ∀ i i' tenantId eventId now now', calls i = .mark tenantId eventId now →
    calls i' = .mark tenantId eventId now' → s.2 i = .ret (.marked true) →
    s.2 i' = .ret (.marked true) → i = i'
  refused : ∀ i, s.2 i = .ret (.marked false) → ∀ k row, (i, row) ∉ s.1.versions k
  processed : ∀ k row, s.1.row k = some row → row.status = .processed →
    ∀ later s', (inboxRuns calls).Goes s later s' → s'.1.row k = some row
  recorded : ∀ i tenantId eventId source payloadDigest receivedAt entry,
    calls i = .record tenantId eventId source payloadDigest receivedAt →
    s.2 i = .ret (.entry entry) → ∃ row, readInbox row = .ok entry ∧ entry.source = source ∧
      entry.payloadDigest = payloadDigest ∧
      (∃ j, (j, row) ∈ s.1.versions (tenantId.text, eventId.text)) ∧
      ∃ earlier s', earlier ++ [.asked i (.select (tenantId.text, eventId.text)) (.ok (some row))]
        <+: run ∧ (inboxRuns calls).Trace earlier s' ∧
        ∀ there ∈ s'.1.row (tenantId.text, eventId.text), there = row
  unchanged : ∀ i tenantId eventId source payloadDigest receivedAt,
    calls i = .record tenantId eventId source payloadDigest receivedAt →
    ∀ k row, (i, row) ∈ s.1.versions k →
      k = (tenantId.text, eventId.text) ∧ ∃ post, s.1.versions k = (i, row) :: post
  collision : ∀ i tenantId eventId source payloadDigest receivedAt,
    calls i = .record tenantId eventId source payloadDigest receivedAt →
    ∀ e ∈ s.1.versions (tenantId.text, eventId.text),
      ¬ (e.2.source = source ∧ e.2.payloadDigest = payloadDigest) →
      (∀ result, s.2 i ≠ .ret result) ∧ ∀ k row, (i, row) ∉ s.1.versions k

/-- A row that is processed is the last version, wherever the run goes on. -/
theorem processed_kept (h : (inboxRuns calls).Trace run s) {k : BoxKey} {row : InboxRow}
    (hrow : s.1.row k = some row) (hprocessed : row.status = .processed)
    {later : List (Deed ι (RowAsk BoxLook BoxKey InboxRow) (RowAsk.Answer Failure))}
    {s' : InboxState ι} (hg : (inboxRuns calls).Goes s later s') : s'.1.row k = some row := by
  obtain ⟨e, he, rfl⟩ := Option.map_eq_some_iff.mp hrow
  obtain ⟨pre, hpre⟩ := List.getLast?_eq_some_iff.mp he
  obtain ⟨post, hpost⟩ := versions_grow h hg k
  obtain ⟨stage, hsound, -⟩ := inbox_sound (h.goes hg)
  have hversions := received (hsound.chained k)
  rw [← hpost, hpre, List.append_assoc] at hversions
  have hversions : Received calls (pre ++ (e.1, e.2) :: post) := hversions
  obtain rfl := processed_last hversions hprocessed
  unfold RowTable.row latestOf
  rw [← hpost, List.append_nil, he]
  rfl

theorem inbox_kept (h : (inboxRuns calls).Trace run s) : InboxOnce calls run s := by
  obtain ⟨stage, hsound, -, hreturned⟩ := inbox_sound h
  have hmarked : ∀ i tenantId eventId now, calls i = .mark tenantId eventId now →
      s.2 i = .ret (.marked true) →
      ∃ j before tenantId' eventId' source payloadDigest receivedAt current,
        s.1.versions (tenantId, eventId) = [(j, before), (i, processedRow current before)] ∧
          calls j = .record tenantId' eventId' source payloadDigest receivedAt ∧
          tenantId'.text = tenantId ∧ eventId'.text = eventId ∧ utc now = .ok current := by
    intro i tenantId eventId now hcall hi
    obtain ⟨hover, hvalue⟩ := hreturned i _ hi
    rw [hcall] at hvalue
    obtain ⟨row, hwritten⟩ := Option.isSome_iff_exists.mp hvalue.symm
    obtain ⟨hkey, j, before, tenantId', eventId', source, payloadDigest, receivedAt, current,
      hsplit, hrecord, htenant, hevent, hutc, rfl⟩ :=
      marked_last hsound hcall ((hsound.fits i).committed hover row hwritten)
    rw [hkey] at hsplit
    exact ⟨j, before, tenantId', eventId', source, payloadDigest, receivedAt, current, hsplit,
      hrecord, htenant, hevent, hutc⟩
  refine ⟨hmarked, ?_, ?_, fun k row hrow hprocessed later s' hg =>
    processed_kept h hrow hprocessed hg, ?_, ?_, ?_⟩
  · intro i i' tenantId eventId now now' hcall hcall' hi hi'
    obtain ⟨_, _, _, _, _, _, _, _, hsplit, -⟩ := hmarked i _ _ _ hcall hi
    obtain ⟨_, _, _, _, _, _, _, _, hsplit', -⟩ := hmarked i' _ _ _ hcall' hi'
    rw [hsplit] at hsplit'
    cases hsplit'
    rfl
  · intro i hi
    obtain ⟨-, hvalue⟩ := hreturned i _ hi
    refine hsound.wrote_nothing ?_
    cases hcall : calls i with
    | mark tenantId eventId now =>
        rw [hcall] at hvalue
        exact Option.isNone_iff_eq_none.mp (Option.isSome_eq_false_iff.mp hvalue.symm)
    | _ =>
        rw [hcall] at hvalue
        exact hvalue.elim
  · intro i tenantId eventId source payloadDigest receivedAt entry hcall hi
    exact record_returned h hcall hi
  · intro i tenantId eventId source payloadDigest receivedAt hcall k row hmem
    obtain ⟨hkey, -, -, hfirst⟩ := recorded_first hsound hcall hmem
    exact ⟨hkey, hfirst⟩
  · intro i tenantId eventId source payloadDigest receivedAt hcall e he hother
    refine ⟨fun result hi => ?_, fun k row hmem => ?_⟩
    · cases result with
      | entry entry =>
          obtain ⟨row, hread, hsource, hpayload, ⟨j, hj⟩, -⟩ := record_returned h hcall hi
          obtain ⟨-, rfl⟩ := InboxCall.readInbox_ok.mp hread
          obtain ⟨hsource', hpayload'⟩ := (received (hsound.chained _)).same he hj
          exact hother ⟨hsource'.trans hsource, hpayload'.trans hpayload⟩
      | marked accepted =>
          obtain ⟨-, hvalue⟩ := hreturned i _ hi
          rw [hcall] at hvalue
          exact hvalue
    · obtain ⟨rfl, hsource, hpayload, -⟩ := recorded_first hsound hcall hmem
      obtain ⟨hsource', hpayload'⟩ := (received (hsound.chained _)).same he hmem
      exact hother ⟨hsource'.trans hsource, hpayload'.trans hpayload⟩

end Runs

/-! ## 5. Calls that no other call interrupts -/

section Alone

variable {ι : Type} [DecidableEq ι]
  [∀ (w : RowTable ι BoxKey InboxRow) (i : ι) (k : BoxKey), Decidable (w.Free i k)]
  {w : RowTable ι BoxKey InboxRow}

/-- What an event that has an entry is answered, when no other call comes between. -/
def RecordedAgain (w : RowTable ι BoxKey InboxRow) : Prop :=
  ∀ (keys : List BoxKey) (looks : BoxLook → Bool) (i : ι) (tenantId eventId source : Identifier)
    (payloadDigest : Digest) (receivedAt : Datetime) (current : Moment) (row : InboxRow),
    looks .unsafeRole = false → utc receivedAt = .ok current →
    w.row (tenantId.text, eventId.text) = some row →
    ∃ entry w', readInbox row = .ok entry ∧
      (recordInbox tenantId eventId source payloadDigest receivedAt).run (serves keys looks i) w =
        (if entry.source = source ∧ entry.payloadDigest = payloadDigest then .ok entry
          else .error (.denied "Inbox event identity collision"), w') ∧
      ∀ k, w'.versions k = w.versions k

/-- An event that has an entry is answered with it, if it is the same event, and nothing is
written. -/
theorem run_record_again {keys : List BoxKey} {looks : BoxLook → Bool} {i : ι}
    {tenantId eventId source : Identifier} {payloadDigest : Digest} {receivedAt : Datetime}
    {current : Moment} {row : InboxRow} {entry : InboxEntry} (hrole : looks .unsafeRole = false)
    (hutc : utc receivedAt = .ok current) (hrow : w.row (tenantId.text, eventId.text) = some row)
    (hread : readInbox row = .ok entry) :
    ∃ w', (recordInbox tenantId eventId source payloadDigest receivedAt).run
        (serves keys looks i) w =
      (if entry.source = source ∧ entry.payloadDigest = payloadDigest then .ok entry
        else .error (.denied "Inbox event identity collision"), w') ∧
      ∀ k, w'.versions k = w.versions k := by
  unfold recordInbox
  rw [Prog.run_bind_ok _ _ ((Prog.run_ofExcept _ _ _).trans (by rw [hutc]; rfl))]
  refine run_transaction_served hrole ?_
  rw [Prog.run_bind_ok _ _ (run_insert_served hrow), run_reread_served hrow hread]

end Alone

end Calls

/-- The inbox. At every place of every run of calls of any callers, with any failure of the
database: one mark of an event is accepted at most, and right after its receipt; an event that is
processed stays processed, at its time; an event that is recorded again gets the entry that is
there, and is not written; and another source or payload under its identifier is denied. -/
theorem inbox_once {ι : Type} [DecidableEq ι] [Sha256]
    [∀ (w : RowTable ι BoxKey InboxRow) (i : ι) (k : BoxKey), Decidable (w.Free i k)]
    {calls : ι → InboxCall}
    {run : List (Deed ι (RowAsk BoxLook BoxKey InboxRow) (RowAsk.Answer Failure))}
    {s : InboxState ι} (h : (inboxRuns calls).Trace run s) :
    InboxOnce calls run s ∧ RecordedAgain s.1 := by
  refine ⟨inbox_kept h, ?_⟩
  intro keys looks i tenantId eventId source payloadDigest receivedAt current row hrole hutc hrow
  obtain ⟨stage, hsound, -⟩ := inbox_sound h
  obtain ⟨e, he, rfl⟩ := Option.map_eq_some_iff.mp hrow
  obtain ⟨entry, hread⟩ := hsound.fine _ e (List.mem_of_getLast? he)
  obtain ⟨w', hrun, hversions⟩ := run_record_again hrole hutc hrow hread
  exact ⟨entry, w', hread, hrun, hversions⟩

/-! ## A delivery that is recorded and processed -/

namespace InboxFixture

scoped instance sha256 : Sha256 where
  digest _ := ⟨1⟩

theorem tenant_valid : identifierPattern "tenant-a".toList = true := by decide
theorem event_valid : identifierPattern "event-1".toList = true := by decide

def calls : Bool → InboxCall
  | false => .record ⟨"tenant-a", tenant_valid⟩ ⟨"event-1", event_valid⟩ ⟨"github", by decide⟩ ⟨2⟩
      ⟨0, some 0⟩
  | true => .mark "tenant-a" "event-1" ⟨1000000, some 0⟩

def looks (question : BoxLook) : Bool := question ≠ .unsafeRole

/-- A call that no other interrupts. -/
def turn (w : RowTable Bool BoxKey InboxRow) (i : Bool) :
    Except Failure InboxResult × RowTable Bool BoxKey InboxRow :=
  (calls i).program.run (serves [] looks i) w

theorem runs_turn {run : List (Deed Bool (RowAsk BoxLook BoxKey InboxRow)
    (RowAsk.Answer Failure))} {w : RowTable Bool BoxKey InboxRow}
    {tasks : Bool → BoxProg InboxRow InboxResult} (h : (inboxRuns calls).Trace run (w, tasks))
    (i : Bool) (hi : tasks i = (calls i).program) : ∃ run', (inboxRuns calls).Trace run'
      ((turn w i).2, Function.update tasks i (.ofExcept (turn w i).1)) := by
  have hrun := Surroundings.runs_alone (serves [] looks i)
    (fun w r => RowTable.answer_answers [] looks Failure.other w i r) h
  rw [hi] at hrun
  exact hrun

/-- The two calls, one after the other. -/
theorem runs_both : ∃ run w tasks, (inboxRuns calls).Trace run (w, tasks) ∧
    tasks true = .ofExcept (turn (turn RowTable.empty false).2 true).1 := by
  have hstart : (inboxRuns calls).Trace [] (RowTable.empty, fun i => (calls i).program) :=
    .start _ ⟨rfl, rfl⟩
  obtain ⟨_, h₀⟩ := runs_turn hstart false rfl
  obtain ⟨run, h₁⟩ := runs_turn h₀ true (Function.update_of_ne (by decide) _ _)
  exact ⟨run, _, _, h₁, Function.update_self true _ _⟩

theorem mark_accepted : (turn (turn RowTable.empty false).2 true).1 = .ok (.marked true) := by
  decide +kernel

end InboxFixture

open InboxFixture in
theorem inbox_once_processed : ∃ run s, (inboxRuns calls).Trace run s ∧
    s.2 true = .ret (.marked true) ∧ InboxOnce calls run s ∧ RecordedAgain s.1 := by
  obtain ⟨run, w, tasks, h, hlast⟩ := runs_both
  rw [mark_accepted] at hlast
  exact ⟨run, _, h, hlast, inbox_once h⟩

end NokincFactory
