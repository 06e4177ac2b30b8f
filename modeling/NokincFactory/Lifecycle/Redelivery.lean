/-
  File:      NokincFactory/Lifecycle/Redelivery.lean
  Subject:   What the comparison with the expected state does to an event delivered twice.

  * `applyEvent`: apply an event when it is accepted, drop it otherwise;
  * `TakesEffectOnce`: however much is delivered in between, the event delivered again after it
    took effect changes nothing;
  * `takes_effect_once_iff`: this is so exactly for events that are never accepted, that leave
    NEW, or that end the item; from every other target the lifecycle leads back.
-/
import NokincFactory.Lifecycle.Gates

namespace NokincFactory

/-! ## 1. Deliveries -/

/-- Apply the event to the state when it is accepted. -/
def applyEvent (s : WorkItemState) (t : Transition) : WorkItemState :=
  match t.validateAgainst s with
  | .ok _ => t.target
  | .error _ => s

/-- The state after a list of deliveries to a new work item. -/
def stateAfter (run : List Transition) : WorkItemState :=
  run.foldl applyEvent .new

/-- The same event once more: what the lifecycle reads of it is the same, but for the item that
messages name. -/
structure SameEvent (t t' : Transition) : Prop where
  event : t'.eventId = t.eventId
  expected : t'.expectedCurrent = t.expectedCurrent
  target : t'.target = t.target
  approval : t'.approvalId = t.approvalId

/-- Delivered again after it took effect, the event changes nothing, at any later point of any
run. -/
def TakesEffectOnce (t : Transition) : Prop :=
  ∀ (before between : List Transition) (t' : Transition), SameEvent t t' →
    applyEvent (stateAfter before) t ≠ stateAfter before →
    applyEvent (stateAfter (before ++ t :: between)) t' = stateAfter (before ++ t :: between)

variable {run : List Transition} {s : WorkItemState} {t t' : Transition}

theorem SameEvent.refl (t : Transition) : SameEvent t t :=
  ⟨rfl, rfl, rfl, rfl⟩

theorem applyEvent_accepted (h : t.validateAgainst s = .ok ()) : applyEvent s t = t.target := by
  unfold applyEvent
  rw [h]

theorem applyEvent_cases (s : WorkItemState) (t : Transition) :
    (t.validateAgainst s = .ok () ∧ applyEvent s t = t.target) ∨ applyEvent s t = s := by
  cases h : t.validateAgainst s with
  | ok u => exact .inl ⟨rfl, applyEvent_accepted h⟩
  | error e =>
      right
      unfold applyEvent
      rw [h]

theorem stateAfter_append (run later : List Transition) :
    stateAfter (run ++ later) = later.foldl applyEvent (stateAfter run) :=
  List.foldl_append

theorem stateAfter_of_trace (h : lifecycle.Trace run s) : stateAfter run = s := by
  refine h.invariant (fun run s => stateAfter run = s) (fun s hs => ?_)
    (fun run s t s' _ ih hstep => ?_)
  · cases hs
    rfl
  rw [stateAfter_append, ih]
  exact (applyEvent_accepted hstep.1).trans hstep.2.symm

/-- Whatever the state was, the deliveries after it keep what every accepted step keeps. -/
theorem delivered_stable (I : WorkItemState → Prop)
    (hstep : ∀ s s', I s → s' ∈ allowedFrom s → I s') (h : I s) (later : List Transition) :
    I (later.foldl applyEvent s) := by
  induction later generalizing s with
  | nil => exact h
  | cons t later ih =>
      refine ih ?_
      rcases applyEvent_cases s t with ⟨hv, htarget⟩ | hsame
      · rw [htarget]
        exact hstep s _ h (Transition.validateAgainst_ok.mp hv).2.1
      · rwa [hsame]

/-! ## 2. Events that cannot match twice -/

theorem takesEffectOnce_of_gone
    (h : ∀ (between : List Transition), t.validateAgainst t.expectedCurrent = .ok () →
      between.foldl applyEvent t.target ≠ t.expectedCurrent) : TakesEffectOnce t := by
  intro before between t' hsame heffect
  rcases applyEvent_cases (stateAfter before) t with ⟨hv, htarget⟩ | hnot
  · rw [stateAfter_append, List.foldl_cons, htarget]
    rcases applyEvent_cases (between.foldl applyEvent t.target) t' with ⟨hv', -⟩ | hdrop
    · have hcurrent := (Transition.validateAgainst_ok.mp hv').1
      rw [hsame.expected] at hcurrent
      rw [(Transition.validateAgainst_ok.mp hv).1] at hv
      exact absurd hcurrent (h between hv)
    · exact hdrop
  · exact absurd hnot heffect

theorem takesEffectOnce_of_refused (h : t.validateAgainst t.expectedCurrent ≠ .ok ()) :
    TakesEffectOnce t :=
  takesEffectOnce_of_gone fun _ hv => absurd hv h

/-- Nothing leads back to NEW. -/
theorem new_never_again (s s' : WorkItemState) (h : s' ∈ allowedFrom s) : s' ≠ .new := by
  cases s <;> cases s' <;> first | (exfalso; revert h; decide) | decide

theorem takesEffectOnce_of_new (h : t.expectedCurrent = .new) : TakesEffectOnce t := by
  refine takesEffectOnce_of_gone fun between hv => ?_
  have htarget := new_never_again _ _ (Transition.validateAgainst_ok.mp hv).2.1
  rw [h]
  exact delivered_stable (fun s => s ≠ .new) (fun s s' _ => new_never_again s s') htarget between

/-- A state with no way out. -/
theorem takesEffectOnce_of_final (h : allowedFrom t.target = []) : TakesEffectOnce t := by
  refine takesEffectOnce_of_gone fun between hv hback => ?_
  have hstays := delivered_stable (fun s => s = t.target)
    (fun s s' hs hs' => by rw [hs, h] at hs'; cases hs') rfl between
  have hmoves := (Transition.validateAgainst_ok.mp hv).2.1
  rw [← hback, hstays, h] at hmoves
  cases hmoves

/-! ## 3. Every other state comes again -/

/-- A path from REFINING to the state. -/
def fromRefining : WorkItemState → List WorkItemState
  | .businessReady => [.businessReady]
  | .designing => [.businessReady, .designing]
  | .blocked => [.businessReady, .designing, .blocked]
  | .solutionReady => [.businessReady, .designing, .solutionReady]
  | .implementing => [.businessReady, .designing, .solutionReady, .implementing]
  | .devVerifying =>
      [.businessReady, .designing, .solutionReady, .implementing, .devVerifying]
  | .devVerified =>
      [.businessReady, .designing, .solutionReady, .implementing, .devVerifying, .devVerified]
  | .preprodVerifying =>
      [.businessReady, .designing, .solutionReady, .implementing, .devVerifying, .devVerified,
        .preprodVerifying]
  | .preprodVerified =>
      [.businessReady, .designing, .solutionReady, .implementing, .devVerifying, .devVerified,
        .preprodVerifying, .preprodVerified]
  | .releasing =>
      [.businessReady, .designing, .solutionReady, .implementing, .devVerifying, .devVerified,
        .preprodVerifying, .preprodVerified, .releasing]
  | .rolledBack =>
      [.businessReady, .designing, .solutionReady, .implementing, .devVerifying, .devVerified,
        .preprodVerifying, .preprodVerified, .releasing, .rolledBack]
  | _ => []

/-- A path from the state back to REFINING. -/
def toRefining : WorkItemState → List WorkItemState
  | .businessReady => [.refining]
  | .designing => [.blocked, .refining]
  | .blocked => [.refining]
  | .solutionReady => [.designing, .blocked, .refining]
  | .implementing => [.blocked, .refining]
  | .devVerifying | .devVerified | .preprodVerifying | .preprodVerified | .rolledBack =>
      [.implementing, .blocked, .refining]
  | .releasing => [.rolledBack, .implementing, .blocked, .refining]
  | _ => []

/-- The states between NEW and the ends of the lifecycle. -/
def UnderWay (s : WorkItemState) : Prop :=
  s ≠ .new ∧ s ≠ .done ∧ s ≠ .rejected

theorem UnderWay.reached (h : UnderWay s) :
    LawfulRoute .new (.refining :: fromRefining s) ∧
      (WorkItemState.refining :: fromRefining s).getLastD .new = s := by
  obtain ⟨hnew, hdone, hrejected⟩ := h
  cases s <;> first | contradiction | decide

theorem UnderWay.again (hs : UnderWay s) {s' : WorkItemState} (hs' : UnderWay s') :
    LawfulRoute s (toRefining s ++ fromRefining s') ∧
      (toRefining s ++ fromRefining s').getLastD s = s' := by
  obtain ⟨hnew, hdone, hrejected⟩ := hs
  obtain ⟨hnew', hdone', hrejected'⟩ := hs'
  cases s <;> first | contradiction | (cases s' <;> first | contradiction | decide)

theorem UnderWay.trace (h : UnderWay s) : ∃ before, lifecycle.Trace before s := by
  obtain ⟨hroute, hlast⟩ := h.reached
  have hbefore := trace_route_new _ hroute
  rw [hlast] at hbefore
  exact ⟨_, hbefore⟩

theorem UnderWay.trace_again (h : lifecycle.Trace run s) (hs : UnderWay s) {s' : WorkItemState}
    (hs' : UnderWay s') : ∃ between, lifecycle.Trace (run ++ between) s' := by
  obtain ⟨hroute, hlast⟩ := hs.again hs'
  have hbetween := trace_route _ h hroute
  rw [hlast] at hbetween
  exact ⟨_, hbetween⟩

/-- From a target under way the lifecycle leads back to the expected state, where the event is
accepted again. -/
theorem not_takesEffectOnce (hv : t.validateAgainst t.expectedCurrent = .ok ())
    (hs : UnderWay t.expectedCurrent) (ht : UnderWay t.target) : ¬ TakesEffectOnce t := by
  intro honce
  obtain ⟨before, hbefore⟩ := hs.trace
  obtain ⟨between, hbetween⟩ := UnderWay.trace_again (lifecycle_extend hbefore hv) ht hs
  rw [List.append_assoc, List.singleton_append] at hbetween
  have hmoved : t.target ≠ t.expectedCurrent := by
    intro heq
    have hmem := (Transition.validateAgainst_ok.mp hv).2.1
    rw [heq] at hmem
    exact allowedFrom_moves _ hmem
  have heffect : applyEvent (stateAfter before) t ≠ stateAfter before := by
    rw [stateAfter_of_trace hbefore, applyEvent_accepted hv]
    exact hmoved
  have hagain := honce before between t (.refl t) heffect
  rw [stateAfter_of_trace hbetween, applyEvent_accepted hv] at hagain
  exact hmoved hagain

/-- Not allowed from its expected state, or out of a gate without an approval. -/
def NeverAccepted (t : Transition) : Prop :=
  t.target ∉ allowedFrom t.expectedCurrent ∨
    (t.expectedCurrent ∈ humanGates ∧ t.approved = false)

theorem neverAccepted_iff :
    NeverAccepted t ↔ t.validateAgainst t.expectedCurrent ≠ .ok () := by
  unfold NeverAccepted
  rw [Ne, Transition.validateAgainst_ok]
  by_cases hmem : t.target ∈ allowedFrom t.expectedCurrent
  · simp [hmem]
  · simp [hmem]

/-- An event takes effect at most once exactly when it is never accepted, leaves NEW, or ends
the item. -/
theorem takes_effect_once_iff (t : Transition) : TakesEffectOnce t ↔
    NeverAccepted t ∨ t.expectedCurrent = .new ∨ t.target = .done ∨ t.target = .rejected := by
  constructor
  · intro honce
    by_contra hnot
    obtain ⟨hv, hnew, hdone, hrejected⟩ : t.validateAgainst t.expectedCurrent = .ok () ∧
        t.expectedCurrent ≠ .new ∧ t.target ≠ .done ∧ t.target ≠ .rejected := by
      simpa only [neverAccepted_iff, not_or, not_not] using hnot
    have hmem := (Transition.validateAgainst_ok.mp hv).2.1
    have hs : UnderWay t.expectedCurrent := by
      refine ⟨hnew, fun h => ?_, fun h => ?_⟩
      · rw [h] at hmem
        cases hmem
      · rw [h] at hmem
        cases hmem
    exact not_takesEffectOnce hv hs ⟨new_never_again _ _ hmem, hdone, hrejected⟩ honce
  · intro h
    rcases h with hrefused | hnew | hdone | hrejected
    · exact takesEffectOnce_of_refused (neverAccepted_iff.mp hrefused)
    · exact takesEffectOnce_of_new hnew
    · exact takesEffectOnce_of_final (by rw [hdone]; rfl)
    · exact takesEffectOnce_of_final (by rw [hrejected]; rfl)

/-- An approval of gate 1, delivered again after the item was sent back for refinement. -/
theorem takes_effect_once_fails : ¬ ∀ t : Transition, TakesEffectOnce t := by
  intro h
  have hagain := h (approvedEdge .businessReady .designing)
    (route .new [.refining, .businessReady])
    (route .designing [.blocked, .refining, .businessReady]) _ (.refl _) (by decide)
  revert hagain
  decide

end NokincFactory
