/-
  File:      NokincFactory/Api/Tenancy.lean
  Subject:   Requests of many tenants at once, over one store.

  A store may refuse a call for a text that it does not take (`takes`), never for what another
  tenant stored. How long an answer takes is not observed.

  * `Serving`: a store that serves calls as a journal does; both workflow stores are such;
  * `served`, `journalled`: the handlers over a store, and over a journal;
  * `Foreign`: whom a handler serves, as far as a run shows it;
  * `api_isolated`: the handlers of a tenant are answered as if the others were not there.
-/
import NokincFactory.Api.Guard
import NokincFactory.Lib.Unwinding

namespace NokincFactory.Api

open Protocol

/-! ## 1. Stores that serve -/

section Serving

variable [Sha256] [ChatLibraries]

/-- A store that takes some calls, and whose calls return, or raise, and record what a journal
says. -/
structure Serving (W : Type) where
  empty : W
  takes : StoreCall → Bool
  serve : W → StoreCall → Uuid → Uuid → Except Failure StoreResult × W
  Keeps : W → Journal → Prop
  starts : Keeps empty ⟨[], []⟩
  refines : ∀ w l drawn first second call, Keeps w l → l.Sound drawn → first ∉ drawn →
    second ∉ drawn → Matches (l.result takes call first second) (serve w call first second).1 ∧
      Keeps (serve w call first second).2 (l.serve call first second).2

/-- `InMemoryWorkflowStore`. -/
def inMemoryServing : Serving (Memory Unit) where
  empty := Memory.empty
  takes _ := true
  serve := Memory.serve
  Keeps := Memory.Keeps
  starts := ⟨rfl, rfl, rfl⟩
  refines _ _ _ _ _ call hkeeps hsound hfirst _ := Memory.refines hkeeps hsound hfirst call

/-- `PostgresWorkflowStore`. -/
def postgresServing [AdvisoryHash] [TableScan] : Serving (Database Unit) where
  empty := Database.empty
  takes := StoreCall.sendable
  serve := Database.serve
  Keeps := Database.Keeps
  starts := ⟨rfl, rfl, rfl⟩
  refines _ _ _ _ _ call hkeeps hsound hfirst hsecond :=
    Database.refines hkeeps hsound hfirst hsecond call

variable {ι W : Type}

/-- The ports of the handlers over a store. It serves a call with fresh identifiers, and what it
writes is read as what it wrote; all else may be answered anyhow, and changes nothing. -/
def served (store : Serving W) :
    Surroundings ι (AppAsk StoreCall) (AppAsk.Answer Port) (W × List Uuid) where
  start w := w = (store.empty, [])
  answers w _
    | .turn (.store call), answer, w' => ∃ first second, first ∉ w.2 ∧ second ∉ w.2 ∧
        first ≠ second ∧ call.ReadsBack first second ∧
          store.serve w.1 call first second = (answer, w'.1) ∧ w'.2 = w.2 ++ [first, second]
    | _, _, w' => w' = w
  changes _ _ := False

/-- The ports of the handlers over a journal, where some calls are taken. -/
def journalled (takes : StoreCall → Bool) :
    Surroundings ι (AppAsk StoreCall) (AppAsk.Answer Port) Journal where
  start l := l = ⟨[], []⟩
  answers l _
    | .turn (.store call), answer, l' => ∃ first second,
        Matches (l.result takes call first second) answer ∧ l' = (l.serve call first second).2
    | _, _, l' => l' = l
  changes _ _ := False

end Serving

/-! ## 2. Tenants -/

section Tenants

variable {ι W : Type} [DecidableEq ι] [Sha256] [ChatLibraries] {store : Serving W}
  {settings : AppSettings} {requests : ι → AuthRequest} {calls : ι → ApiCall}
  {tenantId : Identifier}

/-- The handler is known to serve another tenant. -/
def Foreign (tenantId : Identifier)
    (run : List (Deed ι (AppAsk StoreCall) (AppAsk.Answer Port))) (i : ι) : Prop :=
  ∃ current ∈ (knownIn run i).current, current.tenantId ≠ tenantId

/-- What a tenant sees of a store: its part of the journal that the store keeps. -/
def SeesPart (store : Serving W) (tenantId : Identifier) (w : W × List Uuid) (v : Journal) : Prop :=
  ∃ l, store.Keeps w.1 l ∧ l.Sound w.2 ∧ v = l.of tenantId

omit [DecidableEq ι] [Sha256] [ChatLibraries] in
/-- A call of the store is for the tenant of the principal that is known. -/
theorem permits_tenant {request : AuthRequest} {call : ApiCall} {known : Known}
    {stored : StoreCall} (h : Permits settings request call known (.turn (.store stored))) :
    ∃ current, known.current = some current ∧ stored.tenantId = current.tenantId := by
  dsimp only [Permits] at h
  cases hcurrent : known.current with
  | none =>
      rw [hcurrent] at h
      cases h.2
  | some current =>
      rw [hcurrent] at h
      refine ⟨current, rfl, ?_⟩
      cases call with
      | chat body => exact h.1
      | _ => exact h.1

omit [DecidableEq ι] [Sha256] [ChatLibraries] in
/-- A principal that is known stays. -/
theorem after_current {request : AuthRequest} {call : ApiCall} {known : Known}
    {current : VerifiedPrincipal} {asked : AppAsk StoreCall} (answer : AppAsk.Answer Port asked)
    (hcurrent : known.current = some current) (h : Permits settings request call known asked) :
    (known.after asked answer).current = some current := by
  cases asked with
  | verify token now =>
      rw [h.1] at hcurrent
      cases hcurrent
  | turn asked =>
      dsimp only [Known.after]
      rw [hcurrent]
  | _ => exact hcurrent

/-- The guards of the handlers unwind: what another tenant asks is not seen. -/
theorem handlers_unwind (store : Serving W) (settings : AppSettings)
    (requests : ι → AuthRequest) (calls : ι → ApiCall) (tenantId : Identifier) :
    Surroundings.Unwinds (served store) (journalled store.takes)
      (fun i => guard settings (requests i) (calls i)) (Foreign tenantId)
      (SeesPart store tenantId) fun run stage => stage = knownIn run where
  asked run w stage i request answer w' v hI hallowed hanswer hsees := by
    obtain ⟨l, hkeeps, hsound, rfl⟩ := hsees
    have hunchanged : w' = w → SeesPart store tenantId w' (l.of tenantId) := by
      rintro rfl
      exact ⟨l, hkeeps, hsound, rfl⟩
    cases request with
    | verify token now =>
        exact ⟨fun _ => hunchanged hanswer, fun _ => ⟨_, rfl, hunchanged hanswer⟩⟩
    | tokenFor repository =>
        exact ⟨fun _ => hunchanged hanswer, fun _ => ⟨_, rfl, hunchanged hanswer⟩⟩
    | readRepository repository =>
        exact ⟨fun _ => hunchanged hanswer, fun _ => ⟨_, rfl, hunchanged hanswer⟩⟩
    | turn asked =>
        cases asked with
        | store call =>
            obtain ⟨first, second, hfirst, hsecond, hne, hreads, hserve, hdrawn⟩ := hanswer
            have hpermits : Permits settings (requests i) (calls i) (stage i)
                (.turn (.store call)) := hallowed
            obtain ⟨current, hcurrent, howner⟩ := permits_tenant hpermits
            obtain ⟨hmatches, hkeeps'⟩ :=
              store.refines w.1 l w.2 first second call hkeeps hsound hfirst hsecond
            rw [hserve] at hmatches hkeeps'
            have hsound' : (l.serve call first second).2.Sound w'.2 := by
              rw [hdrawn]
              exact hsound.serve hfirst hreads
            rw [hI] at hcurrent
            refine ⟨fun hforeign => ?_, fun hown => ?_⟩
            · obtain ⟨other, hother, hne⟩ := hforeign
              rw [hcurrent, Option.mem_some_iff] at hother
              refine ⟨_, hkeeps', hsound', (Journal.serve_others l first second ?_).symm⟩
              rw [howner, hother]
              exact hne
            · have hsame : call.tenantId = tenantId := by
                by_contra hother
                exact hown ⟨current, hcurrent, howner ▸ hother⟩
              refine ⟨_, ⟨first, second, ?_, rfl⟩, _, hkeeps', hsound', ?_⟩
              · rw [Journal.result_of l store.takes first second hsame]
                exact hmatches
              · rw [Journal.serve_of l first second hsame]
        | _ => exact ⟨fun _ => hunchanged hanswer, fun _ => ⟨_, rfl, hunchanged hanswer⟩⟩
  changed w w' v hchanged _ := hchanged.elim
  stays run stage i request answer hI hallowed := by
    rw [hI] at hallowed ⊢
    refine ⟨(knownIn_asked i request answer).symm, fun hforeign => ?_, fun j hj => ?_⟩
    · obtain ⟨current, hcurrent, hne⟩ := hforeign
      refine ⟨current, ?_, hne⟩
      rw [knownIn_asked, Function.update_self]
      have hpermits : Permits settings (requests i) (calls i) (knownIn run i) request := hallowed
      exact after_current answer hcurrent hpermits
    · unfold Foreign
      rw [knownIn_asked, Function.update_of_ne hj]
  waits run stage hI := by
    refine ⟨hI.trans knownIn_changed.symm, fun j => ?_⟩
    unfold Foreign
    rw [knownIn_changed]

end Tenants

/-- **Tenants of the API**: whatever handlers of whatever requests run side by side over either
store, interleaved in any way, the handlers that serve a tenant, or have not shown whom they serve,
are where they are in the run without the deeds of the others; that is a run over a store that
keeps the tenant's part of the journal and nothing else and takes the same calls, with every answer
the same. -/
theorem api_isolated {ι W : Type} [DecidableEq ι] [Sha256] [ChatLibraries] (store : Serving W)
    (settings : AppSettings) (requests : ι → AuthRequest) (calls : ι → ApiCall)
    (tenantId : Identifier) :
    ∀ run s, ((served store).crew (handlers settings requests calls)).Trace run s →
      ∃ own l tasks, Purged (Foreign tenantId) run own ∧ store.Keeps s.1.1 l ∧
        ((journalled store.takes).crew (handlers settings requests calls)).Trace own
          (l.of tenantId, tasks) ∧
        ∀ i, ¬ Foreign tenantId run i → tasks i = s.2 i := by
  intro run s h
  obtain ⟨own, v, tasks, hpurged, htrace, ⟨l, hkeeps, -, rfl⟩, hsame⟩ :=
    Surroundings.crew_unwinds (handlers_unwind store settings requests calls tenantId) ⟨none, none⟩
      (fun i => handle_guarded settings (requests i) (calls i)) rfl
      (fun w hw => by
        obtain rfl : w = (store.empty, []) := hw
        exact ⟨⟨[], []⟩, rfl, ⟨[], []⟩, store.starts, Journal.sound_empty, rfl⟩) h
  exact ⟨own, l, tasks, hpurged, hkeeps, htrace, hsame⟩

open ApiFixture IntakeFixture in
theorem api_isolated_twoTenants : ∃ own, ∃ l : Journal, ∃ tasks,
    Purged (Foreign tenant) twoTenants own ∧
      ((journalled inMemoryServing.takes).crew
        (handlers settings (fun _ => request) fun _ => .statusView)).Trace own
          (l.of tenant, tasks) ∧ tasks true = .ret (.status []) := by
  have hreads : (StoreCall.list tenant).ReadsBack ⟨0⟩ ⟨1⟩ :=
    ⟨fun _ h => (by cases h), fun _ h => (by cases h)⟩
  obtain ⟨ps, h, hlisted⟩ := twoTenants_trace (served inMemoryServing)
    (Memory.empty, []) (Memory.empty, [⟨0⟩, ⟨1⟩]) rfl (fun _ => rfl)
    (fun _ _ => rfl) ⟨⟨0⟩, ⟨1⟩, by simp, by simp, by decide, hreads, rfl, rfl⟩
  obtain ⟨own, l, tasks, hpurged, -, htrace, hsame⟩ := api_isolated inMemoryServing settings
    (fun _ => request) (fun _ => .statusView) tenant _ _ h
  have hours : ¬ Foreign tenant twoTenants true := by
    rintro ⟨current, hcurrent, hne⟩
    obtain rfl : verified tenant = current := Option.some.inj hcurrent
    exact hne rfl
  exact ⟨own, l, tasks, hpurged, htrace, (hsame true hours).trans hlisted⟩

end NokincFactory.Api
