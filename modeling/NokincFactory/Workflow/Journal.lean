/-
  File:      NokincFactory/Workflow/Journal.lean
  Subject:   What a workflow store is for: items, and the events of each, that only grow.

  * `StoreCall.newItem`, `StoreCall.newEvent`: what a call records, if it is allowed to;
  * `Journal`, `Journal.serve`: what is recorded, and what a call does to it;
  * `Journal.result`: what a store returns that takes some calls only;
  * `Journal.Sound`: what holds of it after any calls with fresh identifiers (`Sound.serve`);
  * `numbered`: its events as rows, counted within each item (`sequences_numbered`,
    `readEvents_numbered`).
-/
import NokincFactory.Lib.Digits
import NokincFactory.Workflow.Serial

namespace NokincFactory

/-! ## 1. Fresh identifiers -/

theorem hexDigit_cancel : ∀ x < 16, ∀ y < 16, Json.hexDigit x = Json.hexDigit y → x = y := by
  decide

theorem Uuid.hex_cancel : Function.Injective Uuid.hex := by
  intro u v h
  have hbits : u.bits.toNat = v.bits.toNat :=
    eq_of_map_digits (k := 32) (by decide) hexDigit_cancel
      (u.bits.isLt.trans_le (by decide)) (v.bits.isLt.trans_le (by decide)) h
  cases u
  cases v
  exact congrArg Uuid.mk (BitVec.eq_of_toNat_eq hbits)

theorem Uuid.workItemId_text {u v : Uuid} (h : u.workItemId.text = v.workItemId.text) : u = v := by
  have htext := String.ofList_injective h
  simp only [List.cons.injEq, true_and] at htext
  exact Uuid.hex_cancel htext

theorem Uuid.eventId_injective : Function.Injective Uuid.eventId := by
  intro u v h
  have htext := String.ofList_injective (congrArg Identifier.text h)
  simp only [List.cons.injEq, true_and] at htext
  exact Uuid.hex_cancel htext

/-! ## 2. The journal -/

def WorkflowItem.key (i : WorkflowItem) : ItemKey := (i.tenantId, i.workItemId.text)

def WorkflowEvent.key (e : WorkflowEvent) : ItemKey := (e.tenantId, e.workItemId.text)

/-- The items and the events that are recorded, the latest last. -/
structure Journal where
  items : List WorkflowItem
  events : List WorkflowEvent

namespace Journal

def find (l : Journal) (key : ItemKey) : Option WorkflowItem := l.items.find? (·.key = key)

/-- The events of an item. -/
def trace (l : Journal) (key : ItemKey) : List WorkflowEvent := l.events.filter (·.key = key)

/-- The reservations of a tenant. -/
def reserved (l : Journal) (tenantId : Identifier) : List WorkflowEvent :=
  l.events.filter fun e => e.tenantId = tenantId ∧ e.kind = .chatTurnReserved

/-- An event is recorded, where there is one and it is allowed. -/
def append (l : Journal) (event : Option WorkflowEvent) (allowed : Prop) [Decidable allowed] :
    Option StoreResult × Journal :=
  match event with
  | none => (none, l)
  | some event =>
      if allowed then (some (.event event), { l with events := l.events ++ [event] })
      else (none, l)

end Journal

/-- An event at a time, where it is one. -/
def eventAt (eventId tenantId workItemId actorId : Identifier) (payload : EventPayload)
    (now : Datetime) : Option WorkflowEvent :=
  match utc now with
  | .error _ => none
  | .ok current => some ⟨eventId, tenantId, workItemId, actorId, current, payload⟩

theorem eventAt_ok {eventId tenantId workItemId actorId : Identifier} {payload : EventPayload}
    {now : Datetime} {current : Moment} (hutc : utc now = .ok current) :
    eventAt eventId tenantId workItemId actorId payload now =
      some ⟨eventId, tenantId, workItemId, actorId, current, payload⟩ := by
  unfold eventAt
  rw [hutc]

theorem eventAt_error {eventId tenantId workItemId actorId : Identifier} {payload : EventPayload}
    {now : Datetime} {e : ValueError} (hutc : utc now = .error e) :
    eventAt eventId tenantId workItemId actorId payload now = none := by
  unfold eventAt
  rw [hutc]

theorem key_eventAt {eventId tenantId workItemId actorId : Identifier} {payload : EventPayload}
    {now : Datetime} {e : WorkflowEvent}
    (h : e ∈ eventAt eventId tenantId workItemId actorId payload now) :
    e.key = (tenantId, workItemId.text) ∧ e.eventId = eventId := by
  unfold eventAt at h
  cases hutc : utc now with
  | error _ =>
      rw [hutc] at h
      cases h
  | ok current =>
      rw [hutc] at h
      cases h
      exact ⟨rfl, rfl⟩

theorem Journal.append_congr (l : Journal) (event : Option WorkflowEvent) {p q : Prop}
    [Decidable p] [Decidable q] (h : p ↔ q) : l.append event p = l.append event q := by
  unfold Journal.append
  cases event with
  | none => rfl
  | some event =>
      dsimp only
      by_cases hp : p
      · rw [if_pos hp, if_pos (h.mp hp)]
      · rw [if_neg hp, if_neg (mt h.mpr hp)]

section Records

variable [Sha256]

namespace StoreCall

/-- The item that a call records. -/
def newItem (call : StoreCall) (first : Uuid) : Option WorkflowItem :=
  match call with
  | .createIntake tenantId actorId now _ _ _ _ =>
      match utc now with
      | .error _ => none
      | .ok current =>
          some ⟨first.workItemId, tenantId, actorId, .refining, "Conversation intake", current⟩
  | _ => none

/-- The event that a call records. -/
def newEvent (call : StoreCall) (first second : Uuid) : Option WorkflowEvent :=
  match call with
  | .createIntake tenantId actorId now message repository repositories analysisProfile =>
      eventAt second.eventId tenantId first.workItemId actorId
        (.intake (intakeDigest message repository repositories analysisProfile)) now
  | .recordGroundedAnalysis tenantId workItemId actorId analysis now =>
      eventAt first.eventId tenantId workItemId actorId (.groundedAnalysisRecorded analysis) now
  | .reserveChatTurn tenantId workItemId actorId reservation _ now =>
      eventAt first.eventId tenantId workItemId actorId (.chatTurnReserved reservation) now
  | .recordChatTurn tenantId workItemId actorId audit now =>
      eventAt first.eventId tenantId workItemId actorId (.chatTurnRecorded audit) now
  | .addGateRequest tenantId workItemId actorId gate decision decisionDigest now =>
      eventAt first.eventId tenantId workItemId actorId
        (.gateRequested (gateDigest gate decision decisionDigest)) now
  | _ => none

end StoreCall

/-- What a call does, with the identifiers that it draws; `none` where it raises. -/
def Journal.serve (l : Journal) (call : StoreCall) (first second : Uuid) :
    Option StoreResult × Journal :=
  match call with
  | .createIntake .. =>
      match call.newItem first, call.newEvent first second with
      | some item, some event =>
          (some (.item item), ⟨l.items ++ [item], l.events ++ [event]⟩)
      | _, _ => (none, l)
  | .recordGroundedAnalysis tenantId workItemId _ _ _ =>
      l.append (call.newEvent first second) ((l.find (tenantId, workItemId.text)).isSome = true)
  | .reserveChatTurn tenantId workItemId actorId _ limit _ =>
      l.append (call.newEvent first second)
        ((∀ bound ∈ limit, 0 < bound) ∧
          (∃ own ∈ l.find (tenantId, workItemId.text), own.createdBy = actorId) ∧
          ∀ bound ∈ limit, ((l.reserved tenantId).length : ℤ) < bound)
  | .recordChatTurn tenantId workItemId actorId _ _ =>
      l.append (call.newEvent first second)
        (∃ own ∈ l.find (tenantId, workItemId.text), own.createdBy = actorId)
  | .addGateRequest tenantId workItemId _ _ _ _ _ =>
      l.append (call.newEvent first second) ((l.find (tenantId, workItemId.text)).isSome = true)
  | .get tenantId workItemId => (some (.found (l.find (tenantId, workItemId))), l)
  | .list tenantId => (some (.items (l.items.filter (·.tenantId = tenantId))), l)
  | .trace tenantId workItemId => (some (.events (l.trace (tenantId, workItemId))), l)

/-- What a store returns that takes some calls only; `none` where it raises. -/
def Journal.result (l : Journal) (takes : StoreCall → Bool) (call : StoreCall)
    (first second : Uuid) : Option StoreResult :=
  if takes call then (l.serve call first second).1 else none

end Records

/-! ## 3. Sound journals -/

section Sound

variable [ChatLibraries]

/-- The document of an item is read as that item. -/
def WorkflowItem.ReadsBack (i : WorkflowItem) : Prop :=
  ChatLibraries.workflowItem (ChatLibraries.workflowItemJson i) = some i

/-- The document of an event is read as that event. -/
def WorkflowEvent.ReadsBack (e : WorkflowEvent) : Prop :=
  ChatLibraries.workflowEvent (ChatLibraries.workflowEventJson e) = some e

/-- The documents that a call writes are read as what it wrote. -/
def StoreCall.ReadsBack [Sha256] (call : StoreCall) (first second : Uuid) : Prop :=
  (∀ item ∈ call.newItem first, item.ReadsBack) ∧
    ∀ event ∈ call.newEvent first second, event.ReadsBack

/-- What holds of a journal once some identifiers have been drawn. -/
structure Journal.Sound (l : Journal) (drawn : List Uuid) : Prop where
  distinct : (l.items.map WorkflowItem.key).Nodup
  itemIds : ∀ i ∈ l.items, ∃ u ∈ drawn, i.workItemId = u.workItemId
  eventIds : ∀ e ∈ l.events, ∃ u ∈ drawn, e.eventId = u.eventId
  opened : ∀ i ∈ l.items, ∃ e ∈ l.events, e.key = i.key
  placed : ∀ e ∈ l.events, ∃ i ∈ l.items, i.key = e.key
  itemsRead : ∀ i ∈ l.items, i.ReadsBack
  eventsRead : ∀ e ∈ l.events, e.ReadsBack

theorem Journal.sound_empty : (⟨[], []⟩ : Journal).Sound [] :=
  ⟨List.nodup_nil, fun _ h => (nomatch h), fun _ h => (nomatch h), fun _ h => (nomatch h),
    fun _ h => (nomatch h), fun _ h => (nomatch h), fun _ h => (nomatch h)⟩

variable {l : Journal} {drawn : List Uuid}

namespace Journal

theorem find_eq_some (hl : l.Sound drawn) {key : ItemKey} {item : WorkflowItem} :
    l.find key = some item ↔ item ∈ l.items ∧ item.key = key := by
  unfold find
  constructor
  · intro h
    exact ⟨List.mem_of_find?_eq_some h, by simpa using List.find?_some h⟩
  · intro ⟨hmem, hkey⟩
    cases hfind : l.items.find? (·.key = key) with
    | none => exact absurd (decide_eq_true hkey) (List.find?_eq_none.mp hfind item hmem)
    | some other =>
        have hother := List.mem_of_find?_eq_some hfind
        have hsame : other.key = key := by simpa using List.find?_some hfind
        exact congrArg some
          (List.inj_on_of_nodup_map hl.distinct hother hmem (hsame.trans hkey.symm))

/-- There are events under a key exactly where there is an item. -/
theorem exists_event_iff (hl : l.Sound drawn) {key : ItemKey} :
    (∃ e ∈ l.events, e.key = key) ↔ (l.find key).isSome = true := by
  rw [Option.isSome_iff_exists]
  constructor
  · intro ⟨e, he, hkey⟩
    obtain ⟨item, hitem, hsame⟩ := hl.placed e he
    exact ⟨item, (find_eq_some hl).mpr ⟨hitem, hsame.trans hkey⟩⟩
  · intro ⟨item, hfind⟩
    obtain ⟨hitem, hkey⟩ := (find_eq_some hl).mp hfind
    obtain ⟨e, he, hsame⟩ := hl.opened item hitem
    exact ⟨e, he, hsame.trans hkey⟩

omit [ChatLibraries] in
/-- An item with an owner is there. -/
theorem isSome_of_own {actorId : Identifier} {item : Option WorkflowItem}
    (h : ∃ own ∈ item, own.createdBy = actorId) : item.isSome = true := by
  obtain ⟨own, hown, -⟩ := h
  rw [hown]
  rfl

/-- A new key is no key of the journal. -/
theorem find_fresh {first : Uuid} (hl : l.Sound drawn) (hfirst : first ∉ drawn)
    (tenantId : Identifier) :
    l.find (tenantId, first.workItemId.text) = none := by
  cases hfind : l.find (tenantId, first.workItemId.text) with
  | none => rfl
  | some item =>
      obtain ⟨hitem, hkey⟩ := (find_eq_some hl).mp hfind
      obtain ⟨u, hu, hid⟩ := hl.itemIds item hitem
      have htext : item.workItemId.text = first.workItemId.text := (Prod.mk.inj hkey).2
      rw [hid] at htext
      exact absurd (Uuid.workItemId_text htext ▸ hu) hfirst

/-- A new identifier is that of no event. -/
theorem eventId_fresh {u : Uuid} (hl : l.Sound drawn) (hu : u ∉ drawn) :
    ∀ e ∈ l.events, e.eventId ≠ u.eventId := by
  intro e he hsame
  obtain ⟨v, hv, hid⟩ := hl.eventIds e he
  exact hu (Uuid.eventId_injective (hsame.symm.trans hid) ▸ hv)

theorem Sound.weaken (hl : l.Sound drawn) (later : List Uuid) : l.Sound (drawn ++ later) where
  distinct := hl.distinct
  itemIds i hi := by
    obtain ⟨u, hu, h⟩ := hl.itemIds i hi
    exact ⟨u, List.mem_append_left _ hu, h⟩
  eventIds e he := by
    obtain ⟨u, hu, h⟩ := hl.eventIds e he
    exact ⟨u, List.mem_append_left _ hu, h⟩
  opened := hl.opened
  placed := hl.placed
  itemsRead := hl.itemsRead
  eventsRead := hl.eventsRead

/-- An event of an item that is there. -/
theorem Sound.append (hl : l.Sound drawn) {event : WorkflowEvent}
    (hid : ∃ u ∈ drawn, event.eventId = u.eventId) (hread : event.ReadsBack)
    (hitem : (l.find event.key).isSome = true) :
    ({ l with events := l.events ++ [event] } : Journal).Sound drawn where
  distinct := hl.distinct
  itemIds := hl.itemIds
  eventIds e he := by
    rcases List.mem_append.mp he with he | he
    · exact hl.eventIds e he
    · rw [List.mem_singleton.mp he]
      exact hid
  opened i hi := by
    obtain ⟨e, he, h⟩ := hl.opened i hi
    exact ⟨e, List.mem_append_left _ he, h⟩
  placed e he := by
    rcases List.mem_append.mp he with he | he
    · exact hl.placed e he
    · rw [List.mem_singleton.mp he]
      obtain ⟨item, hfind⟩ := Option.isSome_iff_exists.mp hitem
      exact ⟨item, (find_eq_some hl).mp hfind⟩
  itemsRead := hl.itemsRead
  eventsRead e he := by
    rcases List.mem_append.mp he with he | he
    · exact hl.eventsRead e he
    · rw [List.mem_singleton.mp he]
      exact hread

/-- A new item with its first event. -/
theorem Sound.opens (hl : l.Sound drawn) {item : WorkflowItem} {event : WorkflowEvent}
    {first second : Uuid} (hfirst : first ∉ drawn) (hitem : item.workItemId = first.workItemId)
    (hevent : event.eventId = second.eventId) (hkey : event.key = item.key)
    (hreads : item.ReadsBack ∧ event.ReadsBack) :
    (⟨l.items ++ [item], l.events ++ [event]⟩ : Journal).Sound (drawn ++ [first, second]) where
  distinct := by
    rw [List.map_append]
    refine List.nodup_append.mpr ⟨hl.distinct, List.nodup_singleton _, fun a ha b hb hab => ?_⟩
    obtain ⟨i, hi, rfl⟩ := List.mem_map.mp ha
    obtain ⟨u, hu, hid⟩ := hl.itemIds i hi
    rw [List.mem_singleton.mp hb] at hab
    have htext : i.workItemId.text = item.workItemId.text := (Prod.mk.inj hab).2
    rw [hid, hitem] at htext
    exact hfirst (Uuid.workItemId_text htext ▸ hu)
  itemIds i hi := by
    rcases List.mem_append.mp hi with hi | hi
    · exact (hl.weaken _).itemIds i hi
    · rw [List.mem_singleton.mp hi]
      exact ⟨first, by simp, hitem⟩
  eventIds e he := by
    rcases List.mem_append.mp he with he | he
    · exact (hl.weaken _).eventIds e he
    · rw [List.mem_singleton.mp he]
      exact ⟨second, by simp, hevent⟩
  opened i hi := by
    rcases List.mem_append.mp hi with hi | hi
    · obtain ⟨e, he, h⟩ := hl.opened i hi
      exact ⟨e, List.mem_append_left _ he, h⟩
    · rw [List.mem_singleton.mp hi]
      exact ⟨event, by simp, hkey⟩
  placed e he := by
    rcases List.mem_append.mp he with he | he
    · obtain ⟨i, hi, h⟩ := hl.placed e he
      exact ⟨i, List.mem_append_left _ hi, h⟩
    · rw [List.mem_singleton.mp he]
      exact ⟨item, by simp, hkey.symm⟩
  itemsRead i hi := by
    rcases List.mem_append.mp hi with hi | hi
    · exact hl.itemsRead i hi
    · rw [List.mem_singleton.mp hi]
      exact hreads.1
  eventsRead e he := by
    rcases List.mem_append.mp he with he | he
    · exact hl.eventsRead e he
    · rw [List.mem_singleton.mp he]
      exact hreads.2

/-- A call that appends, where it is allowed to and its item is there. -/
theorem Sound.appends (hl : l.Sound drawn) {event : Option WorkflowEvent} {allowed : Prop}
    [Decidable allowed] {later : List Uuid}
    (hid : ∀ e ∈ event, ∃ u ∈ drawn ++ later, e.eventId = u.eventId)
    (hread : ∀ e ∈ event, e.ReadsBack)
    (hitem : allowed → ∀ e ∈ event, (l.find e.key).isSome = true) :
    (l.append event allowed).2.Sound (drawn ++ later) := by
  unfold Journal.append
  cases event with
  | none => exact hl.weaken later
  | some event =>
      dsimp only
      by_cases hallowed : allowed
      · rw [if_pos hallowed]
        exact (hl.weaken later).append (hid event rfl) (hread event rfl) (hitem hallowed event rfl)
      · rw [if_neg hallowed]
        exact hl.weaken later

/-- A call with fresh identifiers keeps a journal sound. -/
theorem Sound.serve [Sha256] (hl : l.Sound drawn) {call : StoreCall} {first second : Uuid}
    (hfirst : first ∉ drawn) (hreads : call.ReadsBack first second) :
    (l.serve call first second).2.Sound (drawn ++ [first, second]) := by
  have hmem : first ∈ drawn ++ [first, second] := by simp
  cases call with
  | createIntake tenantId actorId now message repository repositories analysisProfile =>
      unfold Journal.serve
      cases hitem : (StoreCall.createIntake tenantId actorId now message repository repositories
          analysisProfile).newItem first with
      | none => exact hl.weaken _
      | some item =>
          cases hevent : (StoreCall.createIntake tenantId actorId now message repository
              repositories analysisProfile).newEvent first second with
          | none => exact hl.weaken _
          | some event =>
              obtain ⟨hkey, hid⟩ := key_eventAt hevent
              have hnew : item.key = (tenantId, first.workItemId.text) ∧
                  item.workItemId = first.workItemId := by
                unfold StoreCall.newItem at hitem
                cases hutc : utc now with
                | error _ => simp [hutc] at hitem
                | ok current =>
                    simp only [hutc, Option.some.injEq] at hitem
                    rw [← hitem]
                    exact ⟨rfl, rfl⟩
              exact hl.opens hfirst hnew.2 hid (hkey.trans hnew.1.symm)
                ⟨hreads.1 item hitem, hreads.2 event hevent⟩
  | recordGroundedAnalysis tenantId workItemId actorId analysis now =>
      refine hl.appends (fun e he => ⟨first, hmem, (key_eventAt he).2⟩) hreads.2 fun h e he => ?_
      rw [(key_eventAt he).1]
      exact h
  | reserveChatTurn tenantId workItemId actorId reservation limit now =>
      refine hl.appends (fun e he => ⟨first, hmem, (key_eventAt he).2⟩) hreads.2 fun h e he => ?_
      obtain ⟨own, hown, -⟩ := h.2.1
      rw [(key_eventAt he).1, hown]
      rfl
  | recordChatTurn tenantId workItemId actorId audit now =>
      refine hl.appends (fun e he => ⟨first, hmem, (key_eventAt he).2⟩) hreads.2 fun h e he => ?_
      obtain ⟨own, hown, -⟩ := h
      rw [(key_eventAt he).1, hown]
      rfl
  | addGateRequest tenantId workItemId actorId gate decision decisionDigest now =>
      refine hl.appends (fun e he => ⟨first, hmem, (key_eventAt he).2⟩) hreads.2 fun h e he => ?_
      rw [(key_eventAt he).1]
      exact h
  | get tenantId workItemId => exact hl.weaken _
  | list tenantId => exact hl.weaken _
  | trace tenantId workItemId => exact hl.weaken _

end Journal

end Sound

/-! ## 4. What the methods build -/

/-- What a journal says of a call, against what a store returned or raised. -/
def Matches : Option StoreResult → Except Failure StoreResult → Prop
  | some r, .ok r' => r.Same r'
  | none, .error _ => True
  | _, _ => False

/-- What is returned where a text is taken, and raised where it is not. -/
theorem matches_taken (taken : Bool) {r : StoreResult} (hr : r.Same r) :
    Matches (if taken then some r else none) (if taken then .ok r else .error .other) := by
  cases taken with
  | true => exact hr
  | false => trivial

section NewRecords

variable {S W : Type} {A : S → Type} (answer : W → (r : S) → A r × W) (w : W)

@[simp] theorem run_askUuid (drawn : List Uuid) :
    (askUuid : ChatProg A Uuid).run (serially answer) (w, drawn) =
      (.ok (drawn.headD ⟨0⟩), (w, drawn.tail)) := rfl

/-- A program that makes an event, and raises where there is none to make. -/
def Makes (event : Option WorkflowEvent) (supply : List Uuid) (p : ChatProg A WorkflowEvent) :
    Prop :=
  match event with
  | some e => ∃ rest, p.run (serially answer) (w, supply) = (.ok e, (w, rest))
  | none => ∃ failure rest, p.run (serially answer) (w, supply) = (.error failure, (w, rest))

variable (first second : Uuid) (tenantId workItemId actorId : Identifier)

theorem makes_newEvent (payload : EventPayload) (now : Datetime) :
    Makes answer w (eventAt first.eventId tenantId workItemId actorId payload now) [first, second]
      (newEvent tenantId workItemId actorId payload now) := by
  unfold newEvent
  cases hutc : utc now with
  | ok current =>
      rw [eventAt_ok hutc]
      exact ⟨[second], by simp [Prog.run_bind, failing]⟩
  | error e =>
      rw [eventAt_error hutc]
      cases e with
      | message text => exact ⟨.value text, [second], by simp [Prog.run_bind, failing]⟩
      | violation reason => exact ⟨.other, [second], by simp [Prog.run_bind, failing]⟩

theorem makes_newGateRequest [Sha256] (gate : String) (decision : GateDecision)
    (decisionDigest : String) (now : Datetime) :
    Makes answer w (eventAt first.eventId tenantId workItemId actorId
        (.gateRequested (gateDigest gate decision decisionDigest)) now) [first, second]
      (newGateRequest tenantId workItemId actorId gate decision decisionDigest now) := by
  unfold newGateRequest
  cases hutc : utc now with
  | ok current =>
      rw [eventAt_ok hutc]
      exact ⟨[second], by simp [Prog.run_bind, failing]⟩
  | error e =>
      rw [eventAt_error hutc]
      cases e with
      | message text => exact ⟨.value text, [first, second], by simp [Prog.run_bind, failing]⟩
      | violation reason => exact ⟨.other, [first, second], by simp [Prog.run_bind, failing]⟩

end NewRecords

section NewIntakes

variable [Sha256] {S W : Type} {A : S → Type} (answer : W → (r : S) → A r × W) (w : W)
  (first second : Uuid) (tenantId actorId : Identifier) {now : Datetime} (message : String)
  (repository : Option String) (repositories : List String)
  (analysisProfile : Option AnalysisProfile)

theorem run_newIntake_ok {current : Moment} (hutc : utc now = .ok current) :
    (newIntake tenantId actorId now message repository repositories analysisProfile :
        ChatProg A (WorkflowItem × WorkflowEvent)).run (serially answer) (w, [first, second]) =
      (.ok (⟨first.workItemId, tenantId, actorId, .refining, "Conversation intake", current⟩,
        ⟨second.eventId, tenantId, first.workItemId, actorId, current,
          .intake (intakeDigest message repository repositories analysisProfile)⟩), (w, [])) := by
  unfold newIntake
  simp [Prog.run_bind, hutc, failing]

theorem run_newIntake_error {e : ValueError} (hutc : utc now = .error e) :
    ∃ failure, (newIntake tenantId actorId now message repository repositories analysisProfile :
        ChatProg A (WorkflowItem × WorkflowEvent)).run (serially answer) (w, [first, second]) =
      (.error failure, (w, [first, second])) := by
  unfold newIntake
  cases e with
  | message text => exact ⟨.value text, by simp [Prog.run_bind, hutc, failing]⟩
  | violation reason => exact ⟨.other, by simp [Prog.run_bind, hutc, failing]⟩

end NewIntakes

/-! ## 5. Numbered events -/

section Numbered

variable [Sha256] [ChatLibraries]

/-- The events as rows, each with its number among the events of its item; some are before. -/
def numbered : List WorkflowEvent → List WorkflowEvent → List WorkflowEventRow
  | _, [] => []
  | before, e :: es =>
      PostgresWorkflowStore.eventRow e ((before.filter (·.key = e.key)).length + 1) ::
        numbered (before ++ [e]) es

theorem numbered_append (e : WorkflowEvent) : ∀ before es, numbered before (es ++ [e]) =
    numbered before es ++
      [PostgresWorkflowStore.eventRow e (((before ++ es).filter (·.key = e.key)).length + 1)]
  | before, [] => by
      rw [List.append_nil]
      rfl
  | before, e' :: es => by
      rw [List.cons_append, numbered, numbered, numbered_append e (before ++ [e']) es,
        List.append_assoc]
      rfl

theorem exists_of_mem_numbered {row : WorkflowEventRow} : ∀ {before es},
    row ∈ numbered before es → ∃ e ∈ es, row.eventId = e.eventId
  | _, [], h => nomatch h
  | before, e :: es, h => by
      rcases List.mem_cons.mp h with rfl | h
      · exact ⟨e, List.mem_cons_self, rfl⟩
      · obtain ⟨e', he', hid⟩ := exists_of_mem_numbered h
        exact ⟨e', List.mem_cons_of_mem _ he', hid⟩

/-- The rows of an item among rows. -/
def rowsAt (key : ItemKey) (rows : List WorkflowEventRow) : List WorkflowEventRow :=
  rows.filter fun row => row.tenantId = key.1 ∧ row.workItemId = key.2

/-- The rows of an item, counted on. -/
def countedOn (n : ℕ) : List WorkflowEvent → List WorkflowEventRow
  | [] => []
  | e :: es => PostgresWorkflowStore.eventRow e (n + 1) :: countedOn (n + 1) es

omit [Sha256] [ChatLibraries] in
theorem key_iff {e : WorkflowEvent} {key : ItemKey} :
    (e.tenantId = key.1 ∧ e.workItemId.text = key.2) ↔ e.key = key :=
  Prod.mk_inj.symm

/-- The rows of an item are its events, counted. -/
theorem rowsAt_numbered (key : ItemKey) : ∀ before es, rowsAt key (numbered before es) =
    countedOn (before.filter (·.key = key)).length (es.filter (·.key = key))
  | before, [] => rfl
  | before, e :: es => by
      have ih := rowsAt_numbered key (before ++ [e]) es
      rw [List.filter_append] at ih
      unfold rowsAt at ih ⊢
      rw [numbered]
      by_cases hkey : e.key = key
      · have hrow : e.tenantId = key.1 ∧ e.workItemId.text = key.2 := key_iff.mpr hkey
        rw [List.filter_cons_of_pos (by exact decide_eq_true hrow), ih,
          List.filter_cons_of_pos (by simpa using hkey),
          List.filter_cons_of_pos (by simpa using hkey), hkey]
        simp [countedOn]
      · have hrow : ¬ (e.tenantId = key.1 ∧ e.workItemId.text = key.2) := mt key_iff.mp hkey
        rw [List.filter_cons_of_neg (by exact mt of_decide_eq_true hrow), ih,
          List.filter_cons_of_neg (by simpa using hkey),
          List.filter_cons_of_neg (by simpa using hkey)]
        simp

theorem sequences_countedOn : ∀ n es,
    (countedOn n es).map (·.sequence) = List.range' (n + 1) es.length
  | _, [] => rfl
  | n, e :: es => by
      rw [countedOn, List.map_cons, sequences_countedOn (n + 1) es, List.length_cons,
        List.range'_succ]
      rfl

theorem sorted_countedOn (n : ℕ) (es : List WorkflowEvent) :
    (countedOn n es).Pairwise fun row other => row.sequence ≤ other.sequence := by
  refine List.pairwise_map.mp ?_
  rw [sequences_countedOn]
  exact List.pairwise_le_range'

/-- What the events of rows are, where each document is read as its event. -/
theorem readEvents_countedOn : ∀ n es, (∀ e ∈ es, e.ReadsBack) →
    PostgresWorkflowStore.readEvents (n + 1) (countedOn n es) = .ok es
  | _, [], _ => rfl
  | n, e :: es, h => by
      have hread : PostgresWorkflowStore.readEvent
          (PostgresWorkflowStore.eventRow e (n + 1)) (n + 1) = .ok e := by
        have hback := h e List.mem_cons_self
        unfold WorkflowEvent.ReadsBack at hback
        unfold PostgresWorkflowStore.readEvent PostgresWorkflowStore.eventRow
        dsimp only
        rw [hback]
        exact (Except.ok_bind).trans (by rw [guardThat_pass ⟨rfl, rfl, rfl, rfl, rfl, rfl⟩]; rfl)
      rw [countedOn, PostgresWorkflowStore.readEvents, hread,
        readEvents_countedOn (n + 1) es fun e he => h e (List.mem_cons_of_mem _ he)]
      rfl

end Numbered

end NokincFactory
