/-
  File:      NokincFactory/Lifecycle/Gates.lean
  Subject:   Which human approvals a run of the lifecycle holds when it arrives somewhere.

  `validate_against` looks at one edge; a gate that guards a state must be met on every path
  to it.

  * `lifecycle`: a work item from NEW on, one accepted transition after the other;
  * `early_gates_iff`: both early approvals stand before every arrival at IMPLEMENTING exactly
    when nothing resumes from BLOCKED into IMPLEMENTING that had not been there before;
  * `late_gates`: an arrival at RELEASING has both late approvals since the most recent
    arrival at IMPLEMENTING.
-/
import NokincFactory.Domain.States
import NokincFactory.Lib.Traces

namespace NokincFactory

/-! ## 1. The lifecycle as a system -/

/-- One work item: it starts NEW, and a transition is applied when it is accepted. -/
def lifecycle : Labelled Transition WorkItemState where
  start s := s = .new
  step s t s' := t.validateAgainst s = .ok () ∧ s' = t.target

/-- The run left `s` for `s'` by a transition that carries an approval. -/
def ApprovedExit (run : List Transition) (s s' : WorkItemState) : Prop :=
  ∃ t ∈ run, t.expectedCurrent = s ∧ t.target = s' ∧ t.approved = true

/-- The run arrived at `s`. -/
def Visited (run : List Transition) (s : WorkItemState) : Prop :=
  ∃ t ∈ run, t.target = s

variable {run : List Transition} {s s' : WorkItemState} {t : Transition}

theorem ApprovedExit.append (h : ApprovedExit run s s') (later : List Transition) :
    ApprovedExit (run ++ later) s s' := by
  obtain ⟨t, ht, hx⟩ := h
  exact ⟨t, List.mem_append_left later ht, hx⟩

theorem ApprovedExit.visited (h : ApprovedExit run s s') : Visited run s' := by
  obtain ⟨t, ht, -, htarget, -⟩ := h
  exact ⟨t, ht, htarget⟩

theorem Visited.append (h : Visited run s) (later : List Transition) :
    Visited (run ++ later) s := by
  obtain ⟨t, ht, hx⟩ := h
  exact ⟨t, List.mem_append_left later ht, hx⟩

theorem approvedExit_last (hs : s = t.expectedCurrent) (hs' : s' = t.target)
    (ht : t.approved = true) : ApprovedExit (run ++ [t]) s s' :=
  ⟨t, List.mem_append_right run List.mem_cons_self, hs.symm, hs'.symm, ht⟩

/-- An accepted exit from a gate is an approved one. -/
theorem approvedExit_of_step (h : lifecycle.step s t s') (hg : s ∈ humanGates) :
    ApprovedExit (run ++ [t]) s s' := by
  obtain ⟨hv, htarget⟩ := h
  obtain ⟨hcurrent, -, happ⟩ := Transition.validateAgainst_ok.mp hv
  exact approvedExit_last hcurrent htarget (happ hg)

theorem lifecycle_step_allowed (h : lifecycle.step s t s') : s' ∈ allowedFrom s := by
  obtain ⟨hv, rfl⟩ := h
  exact (Transition.validateAgainst_ok.mp hv).2.1

/-- One more accepted transition. -/
theorem lifecycle_extend (h : lifecycle.Trace run s) (ht : t.validateAgainst s = .ok ()) :
    lifecycle.Trace (run ++ [t]) t.target :=
  .step t h ⟨ht, rfl⟩

/-- The transition along one edge, with an approval. -/
def approvedEdge (s s' : WorkItemState) : Transition where
  workItemId := "4711"
  expectedCurrent := s
  target := s'
  eventId := "evt"
  approvalId := some "approval"

/-- The approved transitions along a path that starts in `s`. -/
def route : WorkItemState → List WorkItemState → List Transition
  | _, [] => []
  | s, s' :: path => approvedEdge s s' :: route s' path

/-- Each state of the path is allowed from the one before it. -/
def LawfulRoute : WorkItemState → List WorkItemState → Prop
  | _, [] => True
  | s, s' :: path => s' ∈ allowedFrom s ∧ LawfulRoute s' path

instance decidableLawfulRoute : ∀ s path, Decidable (LawfulRoute s path)
  | _, [] => isTrue trivial
  | s, s' :: path =>
      have := decidableLawfulRoute s' path
      inferInstanceAs (Decidable (s' ∈ allowedFrom s ∧ LawfulRoute s' path))

theorem approvedEdge_accepted (h : s' ∈ allowedFrom s) :
    (approvedEdge s s').validateAgainst s = .ok () :=
  Transition.validateAgainst_ok.mpr ⟨rfl, h, fun _ => rfl⟩

theorem trace_route (path : List WorkItemState) (h : lifecycle.Trace run s)
    (hp : LawfulRoute s path) : lifecycle.Trace (run ++ route s path) (path.getLastD s) := by
  induction path generalizing run s with
  | nil => rwa [route, List.append_nil]
  | cons s' path ih =>
      have h' := ih (lifecycle_extend h (approvedEdge_accepted hp.1)) hp.2
      rw [List.append_assoc] at h'
      rw [List.getLastD_cons]
      exact h'

/-- A run along a lawful path from NEW. -/
theorem trace_route_new (path : List WorkItemState) (hp : LawfulRoute .new path) :
    lifecycle.Trace (route .new path) (path.getLastD .new) :=
  trace_route path (.start _ rfl) hp

/-! ## 2. The early gates -/

/-- Every arrival at IMPLEMENTING has both early approvals in the run up to it. -/
def EarlyGated (run : List Transition) : Prop :=
  ∀ earlier t, earlier ++ [t] <+: run → t.target = .implementing →
    ApprovedExit (earlier ++ [t]) .businessReady .designing ∧
      ApprovedExit (earlier ++ [t]) .solutionReady .implementing

/-- Whatever resumes from BLOCKED into IMPLEMENTING had arrived at IMPLEMENTING before. -/
def ResumesImplementation (run : List Transition) : Prop :=
  ∀ earlier t, earlier ++ [t] <+: run → t.expectedCurrent = .blocked →
    t.target = .implementing → Visited earlier .implementing

/-- States that lie behind gate 1 on every path. -/
def behindGateOne : WorkItemState → Bool
  | .new | .refining | .businessReady | .rejected => false
  | _ => true

/-- States that lie behind IMPLEMENTING on every path that is not a resumption. -/
def behindImplementing : WorkItemState → Bool
  | .implementing | .devVerifying | .devVerified | .preprodVerifying | .preprodVerified
  | .releasing | .done | .rolledBack => true
  | _ => false

theorem behindGateOne_enter (h : s' ∈ allowedFrom s) (hs' : behindGateOne s' = true) :
    behindGateOne s = true ∨ (s = .businessReady ∧ s' = .designing) := by
  cases s <;> cases s' <;> first | (exfalso; revert h hs'; decide) | decide

theorem behindImplementing_enter (h : s' ∈ allowedFrom s) (hs' : behindImplementing s' = true) :
    behindImplementing s = true ∨ (s' = .implementing ∧ (s = .solutionReady ∨ s = .blocked)) := by
  cases s <;> cases s' <;> first | (exfalso; revert h hs'; decide) | decide

/-- The approvals a run holds, told from the state it is in and the states it has seen. -/
structure EarlyApprovals (run : List Transition) (s : WorkItemState) : Prop where
  one : behindGateOne s = true → ApprovedExit run .businessReady .designing
  visited : behindImplementing s = true → Visited run .implementing
  both : Visited run .implementing → ApprovedExit run .businessReady .designing ∧
    ApprovedExit run .solutionReady .implementing

theorem earlyApprovals_start : EarlyApprovals [] .new :=
  ⟨fun h => absurd h (by decide), fun h => absurd h (by decide),
    fun ⟨_, h, _⟩ => absurd h List.not_mem_nil⟩

/-- Arriving at IMPLEMENTING, when a resumption resumes what was there before. -/
theorem EarlyApprovals.arrive (h : EarlyApprovals run s)
    (hresume : s = .blocked → Visited run .implementing)
    (hstep : lifecycle.step s t .implementing) :
    ApprovedExit (run ++ [t]) .businessReady .designing ∧
      ApprovedExit (run ++ [t]) .solutionReady .implementing := by
  have hb := behindImplementing_enter (lifecycle_step_allowed hstep) rfl
  rcases hb with hb | ⟨-, rfl | rfl⟩
  · obtain ⟨h₁, h₂⟩ := h.both (h.visited hb)
    exact ⟨h₁.append [t], h₂.append [t]⟩
  · exact ⟨(h.one rfl).append [t], approvedExit_of_step hstep (by decide)⟩
  · obtain ⟨h₁, h₂⟩ := h.both (hresume rfl)
    exact ⟨h₁.append [t], h₂.append [t]⟩

theorem EarlyApprovals.step (h : EarlyApprovals run s)
    (hresume : s = .blocked → s' = .implementing → Visited run .implementing)
    (hstep : lifecycle.step s t s') : EarlyApprovals (run ++ [t]) s' := by
  have hallowed := lifecycle_step_allowed hstep
  refine ⟨fun hs' => ?_, fun hs' => ?_, ?_⟩
  · rcases behindGateOne_enter hallowed hs' with hs | ⟨rfl, rfl⟩
    · exact (h.one hs).append [t]
    · exact approvedExit_of_step hstep (by decide)
  · rcases behindImplementing_enter hallowed hs' with hs | ⟨rfl, -⟩
    · exact (h.visited hs).append [t]
    · exact ⟨t, List.mem_append_right run List.mem_cons_self, hstep.2.symm⟩
  · rintro ⟨visit, hmem, hvisit⟩
    rcases List.mem_append.mp hmem with hmem | hmem
    · obtain ⟨h₁, h₂⟩ := h.both ⟨visit, hmem, hvisit⟩
      exact ⟨h₁.append [t], h₂.append [t]⟩
    · obtain rfl := List.mem_singleton.mp hmem
      obtain rfl : s' = .implementing := hstep.2.trans hvisit
      exact h.arrive (fun hs => hresume hs rfl) hstep

theorem ResumesImplementation.earlier {later : List Transition}
    (h : ResumesImplementation (run ++ later)) : ResumesImplementation run :=
  fun earlier t hp => h earlier t (hp.trans (List.prefix_append run later))

theorem ResumesImplementation.last (h : ResumesImplementation (run ++ [t]))
    (hstep : lifecycle.step s t s') :
    s = .blocked → s' = .implementing → Visited run .implementing := by
  intro hs hs'
  have hcurrent := (Transition.validateAgainst_ok.mp hstep.1).1
  exact h run t (List.prefix_refl _) (hcurrent.symm.trans hs) (hstep.2.symm.trans hs')

theorem earlyApprovals_of_resumes (h : lifecycle.Trace run s) :
    ResumesImplementation run → EarlyApprovals run s := by
  refine h.invariant (fun run s => ResumesImplementation run → EarlyApprovals run s)
    (fun s hs _ => ?_) (fun run s t s' _ ih hstep hresume => ?_)
  · cases hs
    exact earlyApprovals_start
  · exact (ih hresume.earlier).step (hresume.last hstep) hstep

/-- Both early approvals stand before every arrival at IMPLEMENTING exactly when nothing
resumes from BLOCKED into an implementation that was never begun. -/
theorem early_gates_iff (h : lifecycle.Trace run s) :
    EarlyGated run ↔ ResumesImplementation run := by
  constructor
  · intro hgated earlier t hp hcurrent htarget
    obtain ⟨u, hu, husource, hutarget, -⟩ := (hgated earlier t hp htarget).2
    rcases List.mem_append.mp hu with hu | hu
    · exact ⟨u, hu, hutarget⟩
    · obtain rfl := List.mem_singleton.mp hu
      rw [hcurrent] at husource
      cases husource
  · intro hresume earlier t hp htarget
    obtain ⟨s₀, s₁, h₀, hstep, -⟩ := h.takes hp
    obtain rfl : s₁ = .implementing := hstep.2.trans htarget
    have hlast : ResumesImplementation (earlier ++ [t]) :=
      fun earlier' t' hp' => hresume earlier' t' (hp'.trans hp)
    exact (earlyApprovals_of_resumes h₀ hlast.earlier).arrive
      (fun hs => hlast.last hstep hs rfl) hstep

/-- Through BLOCKED from DESIGNING: an arrival at IMPLEMENTING that gate 2 never saw. -/
def unapprovedSolution : List WorkItemState :=
  [.refining, .businessReady, .designing, .blocked, .implementing]

theorem early_gates_bypassed :
    ¬ ∀ (run : List Transition) (s : WorkItemState), lifecycle.Trace run s → EarlyGated run := by
  intro h
  have htrace := trace_route_new unapprovedSolution (by decide)
  have hlast : route .new unapprovedSolution =
      route .new unapprovedSolution.dropLast ++ [approvedEdge .blocked .implementing] := rfl
  rw [hlast] at htrace
  obtain ⟨t, ht, hexit⟩ := (h _ _ htrace _ _ (List.prefix_refl _) rfl).2
  rw [← hlast] at ht
  revert t
  decide

/-- BLOCKED in the middle of an implementation, and resumed. -/
def resumedImplementation : List WorkItemState :=
  [.refining, .businessReady, .designing, .solutionReady, .implementing, .blocked, .implementing]

theorem early_gates_iff_resumed :
    EarlyGated (route .new resumedImplementation) ↔
      ResumesImplementation (route .new resumedImplementation) :=
  early_gates_iff (trace_route_new resumedImplementation (by decide))

/-! ## 3. The late gates -/

/-- The part of a run after its most recent arrival at IMPLEMENTING. -/
def SinceImplementing (run after : List Transition) : Prop :=
  ∃ before visit, run = before ++ visit :: after ∧ visit.target = .implementing ∧
    ∀ u ∈ after, u.target ≠ .implementing

theorem SinceImplementing.append {after : List Transition} (h : SinceImplementing run after)
    (ht : t.target ≠ .implementing) : SinceImplementing (run ++ [t]) (after ++ [t]) := by
  obtain ⟨before, visit, rfl, hvisit, hafter⟩ := h
  refine ⟨before, visit, by simp, hvisit, fun u hu => ?_⟩
  rcases List.mem_append.mp hu with hu | hu
  · exact hafter u hu
  · obtain rfl := List.mem_singleton.mp hu
    exact ht

theorem sinceImplementing_arrive (ht : t.target = .implementing) :
    SinceImplementing (run ++ [t]) [] :=
  ⟨run, t, rfl, ht, fun _ hu => absurd hu List.not_mem_nil⟩

/-- The approved exits made since the arrival at IMPLEMENTING, for the states between it and
RELEASING. -/
def lateExits : WorkItemState → Option (List (WorkItemState × WorkItemState))
  | .implementing | .devVerifying | .devVerified => some []
  | .preprodVerifying | .preprodVerified => some [(.devVerified, .preprodVerifying)]
  | .releasing => some [(.devVerified, .preprodVerifying), (.preprodVerified, .releasing)]
  | _ => none

/-- Going on from IMPLEMENTING, each new exit on the list is the step just made. -/
theorem lateExits_enter {exits' : List (WorkItemState × WorkItemState)}
    (h : s' ∈ allowedFrom s) (hs' : s' ≠ .implementing) (hexits : lateExits s' = some exits') :
    ∃ exits, lateExits s = some exits ∧
      ∀ e ∈ exits', e ∈ exits ∨ (e = (s, s') ∧ s ∈ humanGates) := by
  cases s' <;> cases hexits <;> cases s <;>
    first | (exfalso; revert h hs'; decide) | exact ⟨_, rfl, by decide⟩

theorem lateExits_of_trace (h : lifecycle.Trace run s) :
    ∀ exits, lateExits s = some exits → ∃ after, SinceImplementing run after ∧
      ∀ e ∈ exits, ApprovedExit after e.1 e.2 := by
  refine h.invariant (fun run s => ∀ exits, lateExits s = some exits → ∃ after,
    SinceImplementing run after ∧ ∀ e ∈ exits, ApprovedExit after e.1 e.2)
    (fun s hs exits hexits => ?_) (fun run s t s' _ ih hstep exits' hexits => ?_)
  · cases hs
    cases hexits
  · by_cases hs' : s' = .implementing
    · subst hs'
      cases hexits
      exact ⟨[], sinceImplementing_arrive hstep.2.symm,
        fun _ he => absurd he List.not_mem_nil⟩
    · obtain ⟨exits, hbefore, hmem⟩ :=
        lateExits_enter (lifecycle_step_allowed hstep) hs' hexits
      obtain ⟨after, hsince, hheld⟩ := ih exits hbefore
      have ht : t.target ≠ .implementing := fun ht => hs' (hstep.2.trans ht)
      refine ⟨after ++ [t], hsince.append ht, fun e he => ?_⟩
      rcases hmem e he with he | ⟨rfl, hg⟩
      · exact (hheld e he).append [t]
      · exact approvedExit_of_step hstep hg

/-- An arrival at RELEASING has both late approvals since the most recent arrival at
IMPLEMENTING. -/
theorem late_gates (h : lifecycle.Trace run s) (earlier : List Transition) (t : Transition)
    (hp : earlier ++ [t] <+: run) (ht : t.target = .releasing) :
    ∃ before visit after, earlier ++ [t] = before ++ visit :: after ∧
      visit.target = .implementing ∧ (∀ u ∈ after, u.target ≠ .implementing) ∧
      ApprovedExit after .devVerified .preprodVerifying ∧
      ApprovedExit after .preprodVerified .releasing := by
  obtain ⟨_, s₁, -, hstep, h₁⟩ := h.takes hp
  obtain rfl : s₁ = .releasing := hstep.2.trans ht
  obtain ⟨after, ⟨before, visit, heq, hvisit, hafter⟩, hheld⟩ := lateExits_of_trace h₁ _ rfl
  exact ⟨before, visit, after, heq, hvisit, hafter, hheld _ List.mem_cons_self,
    hheld _ (List.mem_cons_of_mem _ List.mem_cons_self)⟩

/-- The path of a work item that is rolled back and released again. -/
def releasedTwice : List WorkItemState :=
  [.refining, .businessReady, .designing, .solutionReady, .implementing, .devVerifying,
    .devVerified, .preprodVerifying, .preprodVerified, .releasing, .rolledBack, .implementing,
    .devVerifying, .devVerified, .preprodVerifying, .preprodVerified, .releasing]

theorem late_gates_rolledBack :
    ∃ before visit after, route .new releasedTwice = before ++ visit :: after ∧
      visit.target = .implementing ∧ (∀ u ∈ after, u.target ≠ .implementing) ∧
      ApprovedExit after .devVerified .preprodVerifying ∧
      ApprovedExit after .preprodVerified .releasing :=
  late_gates (trace_route_new releasedTwice (by decide)) (route .new releasedTwice.dropLast)
    (approvedEdge .preprodVerified .releasing) (List.prefix_refl _) rfl

end NokincFactory
