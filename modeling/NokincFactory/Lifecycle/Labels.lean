/-
  File:      NokincFactory/Lifecycle/Labels.lean
  Subject:   What concurrent transitions of one issue do to its lifecycle labels.

  A transition is four requests, and others run between them. What a request may do is little:
  add the target, or delete the label that was read.

  Every request is one of a transition: labels that somebody sets by hand are not covered.

  * `Performed`: the next request of a call, case by case;
  * `Labelling`: the invariant of every run, which tells the calls by their requests so far;
  * `exits_separated`: two calls that both left a state removed its label in two different
    stays of this label on the issue;
  * `settled_moves`: between two moments with one lifecycle label, the old one was removed by a
    transition out of it and the new one added by a transition into it.
-/
import NokincFactory.Adapters.GithubIssues
import NokincFactory.Lifecycle.Gates

namespace NokincFactory

section Labels

variable [GitHub]

/-! ## 1. Labels and states -/

variable {labels rest : List GitHubLabel} {label : GitHubLabel} {s : WorkItemState}

theorem stateOf_spelling (label : GitHubLabel) : stateOf (GitHub.spelling label) = stateOf label :=
  GitHub.key_state _ _ (GitHub.key_spelling label)

/-- An addition brings the state of the label and no other. -/
theorem mem_addLabel (h : s ∈ lifecycleStates (addLabel labels label)) :
    s ∈ lifecycleStates labels ∨ stateOf label = some s := by
  unfold addLabel at h
  by_cases hc : carries labels label = true
  · rw [if_pos hc] at h
    exact .inl h
  · rw [if_neg hc] at h
    obtain ⟨other, hother, hs⟩ := List.mem_filterMap.mp h
    rcases List.mem_append.mp hother with hother | hother
    · exact .inl (List.mem_filterMap.mpr ⟨other, hother, hs⟩)
    · obtain rfl := List.mem_singleton.mp hother
      exact .inr ((stateOf_spelling label).symm.trans hs)

theorem subset_addLabel (h : s ∈ lifecycleStates labels) :
    s ∈ lifecycleStates (addLabel labels label) := by
  unfold addLabel
  by_cases hc : carries labels label = true
  · rwa [if_pos hc]
  · rw [if_neg hc]
    obtain ⟨other, hother, hs⟩ := List.mem_filterMap.mp h
    exact List.mem_filterMap.mpr ⟨other, List.mem_append_left _ hother, hs⟩

/-- What can be removed was there. -/
theorem mem_of_removeLabel (h : removeLabel labels label = some rest)
    (hs : stateOf label = some s) : s ∈ lifecycleStates labels := by
  unfold removeLabel at h
  by_cases hc : carries labels label = true
  · obtain ⟨other, hother, hkey⟩ := List.any_eq_true.mp hc
    have hstate := GitHub.key_state other label (of_decide_eq_true hkey)
    exact List.mem_filterMap.mpr ⟨other, hother, hstate.trans hs⟩
  · rw [if_neg hc] at h
    cases h

/-- A removal takes the state of the label and no other. -/
theorem removeLabel_keeps (h : removeLabel labels label = some rest)
    (hs : s ∈ lifecycleStates labels) : s ∈ lifecycleStates rest ∨ stateOf label = some s := by
  unfold removeLabel at h
  by_cases hc : carries labels label = true
  · rw [if_pos hc] at h
    obtain rfl := Option.some.inj h
    obtain ⟨other, hother, hstate⟩ := List.mem_filterMap.mp hs
    by_cases hkey : GitHub.key other.name = GitHub.key label.name
    · exact .inr ((GitHub.key_state other label hkey).symm.trans hstate)
    · refine .inl (List.mem_filterMap.mpr ⟨other, List.mem_filter.mpr ⟨hother, ?_⟩, hstate⟩)
      exact decide_eq_true hkey
  · rw [if_neg hc] at h
    cases h

theorem subset_of_removeLabel (h : removeLabel labels label = some rest)
    (hs : s ∈ lifecycleStates rest) : s ∈ lifecycleStates labels := by
  unfold removeLabel at h
  by_cases hc : carries labels label = true
  · rw [if_pos hc] at h
    obtain rfl := Option.some.inj h
    obtain ⟨other, hother, hstate⟩ := List.mem_filterMap.mp hs
    exact List.mem_filterMap.mpr ⟨other, (List.mem_filter.mp hother).1, hstate⟩
  · rw [if_neg hc] at h
    cases h

/-! ## 2. One request -/

/-- What the next request of a call may be, and where it leaves the call. -/
inductive Performed (t : Transition) (issue : GitHubIssue) :
    ApplyPhase → Request → List GitHubLabel → ApplyPhase → Prop
  | read (current : GitHubLabel) (h : prepare t issue = .ok current) :
      Performed t issue .ready .read issue.labels (.validated current)
  | unread (error : AdapterError) : Performed t issue .ready .read issue.labels (.raised error)
  | add (current : GitHubLabel)
      (h : checkAddition t current (addLabel issue.labels (ownedLabel t.target)) = .ok ()) :
      Performed t issue (.validated current) .add (addLabel issue.labels (ownedLabel t.target))
        (.added current)
  | addFailed (current : GitHubLabel) (labels : List GitHubLabel) (error : AdapterError)
      (h : labels = issue.labels ∨ labels = addLabel issue.labels (ownedLabel t.target)) :
      Performed t issue (.validated current) .add labels (.recovering error)
  | remove (current : GitHubLabel) (rest : List GitHubLabel)
      (h : removeLabel issue.labels current = some rest) (hc : checkRemoval t rest = .ok ()) :
      Performed t issue (.added current) .remove rest .removed
  | removeFailed (current : GitHubLabel) (labels : List GitHubLabel) (error : AdapterError)
      (h : labels = issue.labels ∨ removeLabel issue.labels current = some labels) :
      Performed t issue (.added current) .remove labels (.recovering error)
  | reread (state : WorkItemState) (h : reread t issue.labels = .ok state) :
      Performed t issue .removed .reread issue.labels (.returned state)
  | rereadFailed (error : AdapterError) :
      Performed t issue .removed .reread issue.labels (.raised error)
  | recover (cause error : AdapterError) :
      Performed t issue (.recovering cause) .recover issue.labels (.raised error)
  | crash (phase : ApplyPhase) (h : phase.running = true) :
      Performed t issue phase .crash issue.labels .crashed

variable {t : Transition} {issue : GitHubIssue} {phase phase' : ApplyPhase} {delivery : Delivery}
  {request : Request}

omit [GitHub] in
theorem Delivery.answer_ok {answered : List GitHubLabel}
    (h : delivery.answer labels = .ok answered) : answered = labels := by
  cases delivery with
  | answered => exact (Except.ok.inj h).symm
  | lost message => cases h
  | refused message => cases h

theorem Delivery.adds_cases (labels : List GitHubLabel) (label : GitHubLabel)
    (delivery : Delivery) :
    delivery.adds labels label = labels ∨ delivery.adds labels label = addLabel labels label := by
  cases delivery with
  | answered => exact .inr rfl
  | lost message => exact .inr rfl
  | refused message => exact .inl rfl

/-- An addition that is answered is in effect. -/
theorem Delivery.adds_of_answer {answered : List GitHubLabel}
    (h : delivery.answer labels = .ok answered) (label : GitHubLabel) :
    delivery.adds rest label = addLabel rest label := by
  cases delivery with
  | answered => rfl
  | lost message => cases h
  | refused message => cases h

theorem Delivery.removes_cases (labels : List GitHubLabel) (label : GitHubLabel)
    (delivery : Delivery) :
    (delivery.removes labels label).1 = labels ∨
      removeLabel labels label = some (delivery.removes labels label).1 := by
  unfold Delivery.removes
  cases hr : removeLabel labels label with
  | none => cases delivery <;> exact .inl rfl
  | some rest => cases delivery <;> first | exact .inl rfl | exact .inr rfl

/-- A removal that is answered is in effect. -/
theorem Delivery.removes_of_answer {answered : List GitHubLabel}
    (h : (delivery.removes labels label).2 = .ok answered) :
    removeLabel labels label = some answered ∧ (delivery.removes labels label).1 = answered := by
  unfold Delivery.removes at h ⊢
  cases hr : removeLabel labels label with
  | none =>
      rw [hr] at h
      cases delivery <;> cases h
  | some rest =>
      rw [hr] at h
      cases delivery with
      | answered => exact ⟨congrArg some (Except.ok.inj h), Except.ok.inj h⟩
      | lost message => cases h
      | refused message => cases h

theorem performed_read : Performed t issue .ready .read issue.labels
    (afterRead t issue.number (delivery.answer issue.labels)) := by
  unfold afterRead
  cases hp : (delivery.answer issue.labels >>= fun labels => prepare t ⟨issue.number, labels⟩) with
  | error e => exact .unread e
  | ok current =>
      obtain ⟨answered, hanswer, hprepare⟩ := Except.bind_ok.mp hp
      obtain rfl := Delivery.answer_ok hanswer
      exact .read current hprepare

theorem performed_add (current : GitHubLabel) :
    Performed t issue (.validated current) .add (delivery.adds issue.labels (ownedLabel t.target))
      (afterAddition t current
        (delivery.answer (delivery.adds issue.labels (ownedLabel t.target)))) := by
  unfold afterAddition
  cases hp : (delivery.answer (delivery.adds issue.labels (ownedLabel t.target)) >>=
      checkAddition t current) with
  | error e => exact .addFailed current _ e (Delivery.adds_cases _ _ _)
  | ok u =>
      obtain ⟨answered, hanswer, hcheck⟩ := Except.bind_ok.mp hp
      obtain rfl := Delivery.answer_ok hanswer
      rw [Delivery.adds_of_answer hanswer] at hcheck ⊢
      exact .add current hcheck

theorem performed_remove (current : GitHubLabel) :
    Performed t issue (.added current) .remove (delivery.removes issue.labels current).1
      (afterRemoval t (delivery.removes issue.labels current).2) := by
  unfold afterRemoval
  cases hp : ((delivery.removes issue.labels current).2 >>= checkRemoval t) with
  | error e => exact .removeFailed current _ e (Delivery.removes_cases _ _ _)
  | ok u =>
      obtain ⟨answered, hanswer, hcheck⟩ := Except.bind_ok.mp hp
      obtain ⟨hremove, heffect⟩ := Delivery.removes_of_answer hanswer
      rw [heffect]
      exact .remove current answered hremove hcheck

theorem performed_reread : Performed t issue .removed .reread issue.labels
    (afterReread t (delivery.answer issue.labels)) := by
  unfold afterReread
  cases hp : (delivery.answer issue.labels >>= reread t) with
  | error e => exact .rereadFailed e
  | ok state =>
      obtain ⟨answered, hanswer, hreread⟩ := Except.bind_ok.mp hp
      obtain rfl := Delivery.answer_ok hanswer
      exact .reread state hreread

theorem performed_of_proceed {delivered : Option Delivery}
    (h : phase.proceed t issue delivered = some (request, labels, phase')) :
    Performed t issue phase request labels phase' := by
  cases delivered with
  | none =>
      unfold ApplyPhase.proceed at h
      by_cases hr : phase.running = true
      · rw [if_pos hr] at h
        cases h
        exact .crash phase hr
      · rw [if_neg hr] at h
        cases h
  | some delivery =>
      cases phase with
      | ready =>
          cases h
          exact performed_read
      | validated current =>
          cases h
          exact performed_add current
      | added current =>
          cases h
          exact performed_remove current
      | removed =>
          cases h
          exact performed_reread
      | recovering cause =>
          cases h
          exact .recover cause _
      | returned state => cases h
      | raised error => cases h
      | crashed => cases h

omit [GitHub] in
/-- What was read for a transition that is prepared. -/
theorem prepare_ok {current : GitHubLabel} (h : prepare t issue = .ok current) :
    lifecycleStates issue.labels = [t.expectedCurrent] ∧
      stateOf current = some t.expectedCurrent ∧
      t.validateAgainst t.expectedCurrent = .ok () := by
  obtain ⟨requested, -, h⟩ := Except.bind_ok.mp h
  obtain ⟨-, h⟩ := Except.seq_ok.mp h
  obtain ⟨label, hlabel, h⟩ := Except.bind_ok.mp h
  obtain ⟨state, hstate, h⟩ := Except.bind_ok.mp h
  obtain ⟨hvalid, h⟩ := Except.seq_ok.mp h
  obtain rfl := Except.pure_ok.mp h
  have hvalid := Except.liftWith_ok.mp hvalid
  have hstates := lifecycleState_ok hstate
  obtain ⟨-, s, hs, hone⟩ := lifecycleLabel_ok hlabel
  obtain rfl := (Transition.validateAgainst_ok.mp hvalid).1
  rw [hstates] at hone
  obtain rfl := List.head_eq_of_cons_eq hone
  exact ⟨hstates, hs, hvalid⟩

omit [GitHub] in
theorem checkRemoval_ok {u : Unit} (h : checkRemoval t labels = .ok u) :
    lifecycleStates labels = [t.target] :=
  requireMutationLifecycleLabels_single h

/-! ## 3. Runs -/

variable {ι : Type} [DecidableEq ι] {config : ι → Transition} {number : ℕ}
  {initial : List GitHubLabel} {run earlier between later : List (ApplyEvent ι)}
  {w w' : IssueWorld ι} {e : ApplyEvent ι} {i : ι}

omit [GitHub] [DecidableEq ι] in
@[simp] theorem carried_concat : carried initial (earlier ++ [e]) = e.labels := by
  unfold carried
  rw [List.getLast?_concat]
  rfl

/-- The call read the issue with exactly the label it expects, and its transition from there
passed. -/
def ValidatedIn (config : ι → Transition) (initial : List GitHubLabel)
    (run : List (ApplyEvent ι)) (i : ι) : Prop :=
  ∃ earlier e, earlier ++ [e] <+: run ∧ e.caller = i ∧ e.request = .read ∧
    lifecycleStates (carried initial earlier) = [(config i).expectedCurrent] ∧
    (config i).validateAgainst (config i).expectedCurrent = .ok ()

/-- The call deleted the label it expects, which was there, and left its target alone. -/
def Exits (config : ι → Transition) (initial : List GitHubLabel)
    (earlier : List (ApplyEvent ι)) (e : ApplyEvent ι) : Prop :=
  e.request = .remove ∧
    (config e.caller).expectedCurrent ∈ lifecycleStates (carried initial earlier) ∧
    lifecycleStates e.labels = [(config e.caller).target]

/-- The call has read and validated, and has not failed since. -/
def ApplyPhase.validates : ApplyPhase → Bool
  | .validated _ | .added _ | .removed | .returned _ => true
  | _ => false

/-- The removal is done and its response accepted. -/
def ApplyPhase.exited : ApplyPhase → Bool
  | .removed | .returned _ => true
  | _ => false

/-- The invariant of the calls on one issue. -/
structure Labelling (config : ι → Transition) (initial : List GitHubLabel)
    (run : List (ApplyEvent ι)) (w : IssueWorld ι) : Prop where
  labels : w.issue.labels = carried initial run
  validated : ∀ i, (w.phase i).validates = true → ValidatedIn config initial run i
  current : ∀ i current, w.phase i = .validated current ∨ w.phase i = .added current →
    stateOf current = some (config i).expectedCurrent
  exited : ∀ i, (w.phase i).exited = true →
    ∃ earlier e, earlier ++ [e] <+: run ∧ e.caller = i ∧ Exits config initial earlier e

omit [DecidableEq ι] [GitHub] in
theorem ValidatedIn.append (h : ValidatedIn config initial run i) (later : List (ApplyEvent ι)) :
    ValidatedIn config initial (run ++ later) i := by
  obtain ⟨earlier, e, hp, hx⟩ := h
  exact ⟨earlier, e, hp.trans (List.prefix_append run later), hx⟩

/-- What one step is. -/
theorem advance_some {delivered : Option Delivery}
    (h : w.advance config i delivered = some (e, w')) :
    e.caller = i ∧ Performed (config i) w.issue (w.phase i) e.request e.labels (w'.phase i) ∧
      w'.issue.labels = e.labels ∧ ∀ j ≠ i, w'.phase j = w.phase j := by
  obtain ⟨⟨request, labels, phase⟩, hproceed, heq⟩ := Option.map_eq_some_iff.mp h
  cases heq
  refine ⟨rfl, ?_, rfl, fun j hj => Function.update_of_ne hj _ _⟩
  show Performed _ _ _ _ _ (Function.update w.phase i phase i)
  rw [Function.update_self]
  exact performed_of_proceed hproceed

/-! ### The step lemma -/

/-- A call comes to have validated by its read. -/
theorem Performed.validates (h : Performed t issue phase request labels phase')
    (hv : phase'.validates = true) :
    phase.validates = true ∨ (request = .read ∧
      lifecycleStates issue.labels = [t.expectedCurrent] ∧
      t.validateAgainst t.expectedCurrent = .ok ()) := by
  cases h with
  | read current h =>
      obtain ⟨hstates, -, hvalid⟩ := prepare_ok h
      exact .inr ⟨rfl, hstates, hvalid⟩
  | unread error => cases hv
  | add current h => exact .inl rfl
  | addFailed current labels error h => cases hv
  | remove current rest h hc => exact .inl rfl
  | removeFailed current labels error h => cases hv
  | reread state h => exact .inl rfl
  | rereadFailed error => cases hv
  | recover cause error => cases hv
  | crash phase h => cases hv

/-- The label a call holds is the one it read. -/
theorem Performed.current {current : GitHubLabel}
    (h : Performed t issue phase request labels phase')
    (hc : phase' = .validated current ∨ phase' = .added current) :
    phase = .validated current ∨ stateOf current = some t.expectedCurrent := by
  cases h with
  | read current' h =>
      rcases hc with hc | hc
      · cases hc
        exact .inr (prepare_ok h).2.1
      · cases hc
  | add current' h =>
      rcases hc with hc | hc
      · cases hc
      · cases hc
        exact .inl rfl
  | unread error => rcases hc with hc | hc <;> cases hc
  | addFailed current labels error h => rcases hc with hc | hc <;> cases hc
  | remove current rest h hc => rcases hc with hc | hc <;> cases hc
  | removeFailed current labels error h => rcases hc with hc | hc <;> cases hc
  | reread state h => rcases hc with hc | hc <;> cases hc
  | rereadFailed error => rcases hc with hc | hc <;> cases hc
  | recover cause error => rcases hc with hc | hc <;> cases hc
  | crash phase h => rcases hc with hc | hc <;> cases hc

/-- A call exits by a removal that took effect and left the target alone. -/
theorem Performed.exited (h : Performed t issue phase request labels phase')
    (hx : phase'.exited = true) :
    phase.exited = true ∨ (∃ current, phase = .added current ∧ request = .remove ∧
      removeLabel issue.labels current = some labels ∧ lifecycleStates labels = [t.target]) := by
  cases h with
  | remove current rest h hc => exact .inr ⟨current, rfl, rfl, h, checkRemoval_ok hc⟩
  | reread state h => exact .inl rfl
  | read current h => cases hx
  | unread error => cases hx
  | add current h => cases hx
  | addFailed current labels error h => cases hx
  | removeFailed current labels error h => cases hx
  | rereadFailed error => cases hx
  | recover cause error => cases hx
  | crash phase h => cases hx

/-- A state comes to the issue by an addition. -/
theorem Performed.appears (h : Performed t issue phase request labels phase')
    (h₀ : s ∉ lifecycleStates issue.labels) (h₁ : s ∈ lifecycleStates labels) :
    request = .add ∧ t.target = s ∧ phase.validates = true := by
  have hadds : s ∈ lifecycleStates (addLabel issue.labels (ownedLabel t.target)) →
      t.target = s := by
    intro h
    rcases mem_addLabel h with h | h
    · exact absurd h h₀
    · exact Option.some.inj ((stateOf_ownedLabel t.target).symm.trans h)
  cases h with
  | add current h => exact ⟨rfl, hadds h₁, rfl⟩
  | addFailed current labels error h =>
      rcases h with rfl | rfl
      · exact absurd h₁ h₀
      · exact ⟨rfl, hadds h₁, rfl⟩
  | remove current rest h hc => exact absurd (subset_of_removeLabel h h₁) h₀
  | removeFailed current labels error h =>
      rcases h with rfl | h
      · exact absurd h₁ h₀
      · exact absurd (subset_of_removeLabel h h₁) h₀
  | read current h => exact absurd h₁ h₀
  | unread error => exact absurd h₁ h₀
  | reread state h => exact absurd h₁ h₀
  | rereadFailed error => exact absurd h₁ h₀
  | recover cause error => exact absurd h₁ h₀
  | crash phase h => exact absurd h₁ h₀

/-- A state goes from the issue by a removal. -/
theorem Performed.vanishes (h : Performed t issue phase request labels phase')
    (h₀ : s ∈ lifecycleStates issue.labels) (h₁ : s ∉ lifecycleStates labels) :
    request = .remove ∧ phase.validates = true ∧
      ∃ current, phase = .added current ∧ stateOf current = some s := by
  have hremoves : ∀ {current : GitHubLabel} {rest : List GitHubLabel},
      removeLabel issue.labels current = some rest → s ∉ lifecycleStates rest →
      stateOf current = some s := by
    intro current rest h hrest
    rcases removeLabel_keeps h h₀ with h | h
    · exact absurd h hrest
    · exact h
  cases h with
  | remove current rest h hc => exact ⟨rfl, rfl, current, rfl, hremoves h h₁⟩
  | removeFailed current labels error h =>
      rcases h with rfl | h
      · exact absurd h₀ h₁
      · exact ⟨rfl, rfl, current, rfl, hremoves h h₁⟩
  | add current h => exact absurd (subset_addLabel h₀) h₁
  | addFailed current labels error h =>
      rcases h with rfl | rfl
      · exact absurd h₀ h₁
      · exact absurd (subset_addLabel h₀) h₁
  | read current h => exact absurd h₀ h₁
  | unread error => exact absurd h₀ h₁
  | reread state h => exact absurd h₀ h₁
  | rereadFailed error => exact absurd h₀ h₁
  | recover cause error => exact absurd h₀ h₁
  | crash phase h => exact absurd h₀ h₁

theorem Labelling.step (h : Labelling config initial run w)
    (hs : (applying config number initial).step w e w') :
    Labelling config initial (run ++ [e]) w' := by
  obtain ⟨delivered, hadvance⟩ := hs
  obtain ⟨-, hperformed, hlabels, hothers⟩ := advance_some hadvance
  refine ⟨?_, fun i hv => ?_, fun i current hc => ?_, fun i hx => ?_⟩
  · rw [carried_concat]
    exact hlabels
  · by_cases hi : i = e.caller
    · subst hi
      rcases hperformed.validates hv with hv | ⟨hread, hstates, hvalid⟩
      · exact (h.validated _ hv).append [e]
      · rw [h.labels] at hstates
        exact ⟨run, e, List.prefix_refl _, rfl, hread, hstates, hvalid⟩
    · rw [hothers i hi] at hv
      exact (h.validated i hv).append [e]
  · by_cases hi : i = e.caller
    · subst hi
      rcases hperformed.current hc with hc | hc
      · exact h.current _ current (.inl hc)
      · exact hc
    · rw [hothers i hi] at hc
      exact h.current i current hc
  · by_cases hi : i = e.caller
    · subst hi
      rcases hperformed.exited hx with hx | ⟨current, hphase, hremove, hrest, hstates⟩
      · obtain ⟨earlier, e', hp, hx⟩ := h.exited _ hx
        exact ⟨earlier, e', hp.trans (List.prefix_append run [e]), hx⟩
      · have hcurrent := h.current _ current (.inr hphase)
        have hthere := mem_of_removeLabel hrest hcurrent
        rw [h.labels] at hthere
        exact ⟨run, e, List.prefix_refl _, rfl, hremove, hthere, hstates⟩
    · rw [hothers i hi] at hx
      obtain ⟨earlier, e', hp, hx⟩ := h.exited i hx
      exact ⟨earlier, e', hp.trans (List.prefix_append run [e]), hx⟩

/-- Every run keeps the invariant. -/
theorem labelling_of_trace (h : (applying config number initial).Trace run w) :
    Labelling config initial run w := by
  refine h.invariant (Labelling config initial) (fun w hw => ?_)
    fun run w e w' _ hl hs => hl.step hs
  cases hw
  refine ⟨rfl, fun i hv => ?_, fun i current hc => ?_, fun i hx => ?_⟩
  · cases hv
  · rcases hc with hc | hc <;> cases hc
  · cases hx

/-! ## 4. Labels that come and go -/

/-- What added a state to the issue. -/
theorem added_of_appears (h : (applying config number initial).Trace run w)
    (hp : earlier ++ [e] <+: run) (h₀ : s ∉ lifecycleStates (carried initial earlier))
    (h₁ : s ∈ lifecycleStates e.labels) :
    e.request = .add ∧ (config e.caller).target = s ∧
      ValidatedIn config initial earlier e.caller := by
  obtain ⟨w₀, w₁, htrace, ⟨delivered, hadvance⟩, -⟩ := h.takes hp
  have hl := labelling_of_trace htrace
  obtain ⟨-, hperformed, -, -⟩ := advance_some hadvance
  rw [← hl.labels] at h₀
  obtain ⟨hadd, htarget, hv⟩ := hperformed.appears h₀ h₁
  exact ⟨hadd, htarget, hl.validated _ hv⟩

/-- What removed a state from the issue. -/
theorem removed_of_vanishes (h : (applying config number initial).Trace run w)
    (hp : earlier ++ [e] <+: run) (h₀ : s ∈ lifecycleStates (carried initial earlier))
    (h₁ : s ∉ lifecycleStates e.labels) :
    e.request = .remove ∧ (config e.caller).expectedCurrent = s ∧
      ValidatedIn config initial earlier e.caller := by
  obtain ⟨w₀, w₁, htrace, ⟨delivered, hadvance⟩, -⟩ := h.takes hp
  have hl := labelling_of_trace htrace
  obtain ⟨-, hperformed, -, -⟩ := advance_some hadvance
  rw [← hl.labels] at h₀
  obtain ⟨hremove, hv, current, hphase, hstate⟩ := hperformed.vanishes h₀ h₁
  have hcurrent := hl.current _ current (.inr hphase)
  exact ⟨hremove, Option.some.inj (hcurrent.symm.trans hstate), hl.validated _ hv⟩

/-- Between these moments a call that had validated a transition into `s` added it. -/
def Added (config : ι → Transition) (initial : List GitHubLabel)
    (earlier between : List (ApplyEvent ι)) (s : WorkItemState) : Prop :=
  ∃ before e after, between = before ++ e :: after ∧ e.request = .add ∧
    (config e.caller).target = s ∧ ValidatedIn config initial (earlier ++ before) e.caller ∧
    s ∉ lifecycleStates (carried initial (earlier ++ before)) ∧ s ∈ lifecycleStates e.labels

/-- Between these moments a call that had validated a transition out of `s` deleted it. -/
def Removed (config : ι → Transition) (initial : List GitHubLabel)
    (earlier between : List (ApplyEvent ι)) (s : WorkItemState) : Prop :=
  ∃ before e after, between = before ++ e :: after ∧ e.request = .remove ∧
    (config e.caller).expectedCurrent = s ∧
    ValidatedIn config initial (earlier ++ before) e.caller ∧
    s ∈ lifecycleStates (carried initial (earlier ++ before)) ∧ s ∉ lifecycleStates e.labels

omit [GitHub] [DecidableEq ι] in
theorem prefix_of_between {before after : List (ApplyEvent ι)}
    (hp : earlier ++ (before ++ e :: after) <+: run) : earlier ++ before ++ [e] <+: run := by
  refine List.IsPrefix.trans ⟨after, ?_⟩ hp
  simp

theorem added_between (h : (applying config number initial).Trace run w)
    (hp : earlier ++ between <+: run) (h₀ : s ∉ lifecycleStates (carried initial earlier))
    (h₁ : s ∈ lifecycleStates (carried initial (earlier ++ between))) :
    Added config initial earlier between s := by
  obtain ⟨before, e, after, rfl, hb, he⟩ :=
    exists_turn (fun moment => s ∈ lifecycleStates (carried initial moment)) h₀ h₁
  rw [← List.append_assoc, carried_concat] at he
  obtain ⟨hadd, htarget, hv⟩ := added_of_appears h (prefix_of_between hp) hb he
  exact ⟨before, e, after, rfl, hadd, htarget, hv, hb, he⟩

theorem removed_between (h : (applying config number initial).Trace run w)
    (hp : earlier ++ between <+: run) (h₀ : s ∈ lifecycleStates (carried initial earlier))
    (h₁ : s ∉ lifecycleStates (carried initial (earlier ++ between))) :
    Removed config initial earlier between s := by
  obtain ⟨before, e, after, rfl, hb, he⟩ :=
    exists_turn (fun moment => s ∉ lifecycleStates (carried initial moment))
      (not_not.mpr h₀) h₁
  rw [← List.append_assoc, carried_concat] at he
  have hb := not_not.mp hb
  obtain ⟨hremove, hexpected, hv⟩ := removed_of_vanishes h (prefix_of_between hp) hb he
  exact ⟨before, e, after, rfl, hremove, hexpected, hv, hb, he⟩

/-! ## 5. Exits -/

omit [GitHub] [DecidableEq ι] in
/-- An exit leaves the issue without the label it removed. -/
theorem not_mem_of_exit (hi : ValidatedIn config initial run e.caller)
    (hx : Exits config initial earlier e) :
    (config e.caller).expectedCurrent ∉ lifecycleStates e.labels := by
  obtain ⟨-, -, -, -, -, -, hvalid⟩ := hi
  have hallowed := (Transition.validateAgainst_ok.mp hvalid).2.1
  intro hmem
  rw [hx.2.2, List.mem_singleton] at hmem
  rw [← hmem] at hallowed
  exact allowedFrom_moves _ hallowed

omit [GitHub] [DecidableEq ι] in
/-- Of the steps of two calls one comes first. -/
theorem first_of_two {first second : List (ApplyEvent ι)} {x y : ApplyEvent ι}
    (hx : first ++ [x] <+: run) (hy : second ++ [y] <+: run) (hne : x ≠ y) :
    first ++ [x] <+: second ∨ second ++ [y] <+: first := by
  rcases List.prefix_or_prefix_of_prefix hx hy with hp | hp
  · rcases List.prefix_concat_iff.mp hp with heq | hp
    · exact absurd (List.append_inj' heq rfl).2 (by simpa using hne)
    · exact .inl hp
  · rcases List.prefix_concat_iff.mp hp with heq | hp
    · exact absurd (List.append_inj' heq rfl).2.symm (by simpa using hne)
    · exact .inr hp

/-- The two calls left `s` one after the other, and `s` was added again in between. -/
def ExitInTurn (config : ι → Transition) (initial : List GitHubLabel)
    (run : List (ApplyEvent ι)) (i j : ι) (s : WorkItemState) : Prop :=
  ∃ earlier x between y, earlier ++ [x] ++ between ++ [y] <+: run ∧ x.caller = i ∧ y.caller = j ∧
    Exits config initial earlier x ∧ Exits config initial (earlier ++ [x] ++ between) y ∧
    Added config initial (earlier ++ [x]) between s

theorem exitInTurn_prefixes (h : (applying config number initial).Trace run w)
    {first second : List (ApplyEvent ι)} {x y : ApplyEvent ι} (hp : first ++ [x] <+: second)
    (hy : second ++ [y] <+: run) (hv : ValidatedIn config initial run x.caller)
    (hxe : Exits config initial first x) (hye : Exits config initial second y)
    (hsx : (config x.caller).expectedCurrent = s) (hsy : (config y.caller).expectedCurrent = s) :
    ExitInTurn config initial run x.caller y.caller s := by
  obtain ⟨between, rfl⟩ := hp
  refine ⟨first, x, between, y, hy, rfl, rfl, hxe, hye, ?_⟩
  refine added_between h ((List.prefix_append _ _).trans hy) ?_ ?_
  · rw [carried_concat, ← hsx]
    exact not_mem_of_exit hv hxe
  · rw [← hsy]
    exact hye.2.1

end Labels

section Runs

variable {ι : Type} [DecidableEq ι] [GitHub] {config : ι → Transition} {number : ℕ}
  {initial : List GitHubLabel} {run earlier between : List (ApplyEvent ι)} {w : IssueWorld ι}

/-- **Separate stays**: when two calls that expected one state both return, each deleted the
label of this state where it was and left its own target alone, one after the other, and in
between the label was added again by a call that had validated a transition into the state. -/
theorem exits_separated (h : (applying config number initial).Trace run w) {i j : ι}
    (hij : i ≠ j) {s si sj : WorkItemState} (hi : w.phase i = .returned si)
    (hj : w.phase j = .returned sj) (hsi : (config i).expectedCurrent = s)
    (hsj : (config j).expectedCurrent = s) :
    ExitInTurn config initial run i j s ∨ ExitInTurn config initial run j i s := by
  have hl := labelling_of_trace h
  have hvi := hl.validated i (by rw [hi]; rfl)
  have hvj := hl.validated j (by rw [hj]; rfl)
  obtain ⟨first, x, hx, rfl, hxe⟩ := hl.exited i (by rw [hi]; rfl)
  obtain ⟨second, y, hy, rfl, hye⟩ := hl.exited j (by rw [hj]; rfl)
  have hne : x ≠ y := fun heq => hij (congrArg ApplyEvent.caller heq)
  rcases first_of_two hx hy hne with hp | hp
  · exact .inl (exitInTurn_prefixes h hp hy hvi hxe hye hsi hsj)
  · exact .inr (exitInTurn_prefixes h hp hx hvj hye hxe hsj hsi)

/-- **Settled labels**: between a moment at which the issue carries the one lifecycle state `L`
and a later one at which it carries the one state `L'`, a call that had validated a transition
out of `L` deleted `L`, and a call that had validated a transition into `L'` added `L'`. -/
theorem settled_moves (h : (applying config number initial).Trace run w)
    (hp : earlier ++ between <+: run) {L L' : WorkItemState}
    (hL : lifecycleStates (carried initial earlier) = [L])
    (hL' : lifecycleStates (carried initial (earlier ++ between)) = [L']) (hne : L ≠ L') :
    Removed config initial earlier between L ∧ Added config initial earlier between L' := by
  refine ⟨removed_between h hp ?_ ?_, added_between h hp ?_ ?_⟩
  · rw [hL]
    exact List.mem_cons_self
  · rw [hL', List.mem_singleton]
    exact hne
  · rw [hL, List.mem_singleton]
    exact hne.symm
  · rw [hL']
    exact List.mem_cons_self

/-! ## 6. Three and four calls -/

/-- The calls make their requests in this order. -/
def interleave (config : ι → Transition) : IssueWorld ι → List (ι × Option Delivery) →
    Option (List (ApplyEvent ι) × IssueWorld ι)
  | w, [] => some ([], w)
  | w, (i, delivered) :: rest =>
      (w.advance config i delivered).bind fun (e, w') =>
        (interleave config w' rest).map fun (later, w'') => (e :: later, w'')

theorem trace_interleave {schedule : List (ι × Option Delivery)} {w' : IssueWorld ι}
    {later : List (ApplyEvent ι)} (h : (applying config number initial).Trace run w)
    (hs : interleave config w schedule = some (later, w')) :
    (applying config number initial).Trace (run ++ later) w' := by
  induction schedule generalizing run w later with
  | nil =>
      cases hs
      rwa [List.append_nil]
  | cons next rest ih =>
      obtain ⟨i, delivered⟩ := next
      obtain ⟨⟨e, w₁⟩, hadvance, hs⟩ := Option.bind_eq_some_iff.mp hs
      obtain ⟨⟨later', w₂⟩, hrest, heq⟩ := Option.map_eq_some_iff.mp hs
      cases heq
      have hcaller := (advance_some hadvance).1
      have hstep : (applying config number initial).step w e w₁ :=
        ⟨delivered, by rw [hcaller]; exact hadvance⟩
      have htrace := ih (h.step e hstep) hrest
      rwa [List.append_assoc] at htrace

/-- Calls that both return and expected one state are separated by a moment with this state
alone. -/
def SeparatedByMoment (config : ι → Transition) (run : List (ApplyEvent ι))
    (w : IssueWorld ι) : Prop :=
  ∀ i j s si sj, i ≠ j → w.phase i = .returned si → w.phase j = .returned sj →
    (config i).expectedCurrent = s → (config j).expectedCurrent = s →
    ∀ earlier x between y, earlier ++ [x] ++ between ++ [y] <+: run →
      x.caller = i → x.request = .remove → y.caller = j → y.request = .remove →
      ∃ moment ∈ x :: between, lifecycleStates moment.labels = [s]

/-- From one lifecycle state alone to the next one alone some call had validated the
transition. -/
def MovesValidated (config : ι → Transition) (initial : List GitHubLabel)
    (run : List (ApplyEvent ι)) : Prop :=
  ∀ earlier between L L', earlier ++ between <+: run →
    lifecycleStates (carried initial earlier) = [L] →
    lifecycleStates (carried initial (earlier ++ between)) = [L'] → L ≠ L' →
    (∀ before, before <+: between → before ≠ [] → before ≠ between →
      (lifecycleStates (carried initial (earlier ++ before))).length ≠ 1) →
    ∃ i, ValidatedIn config initial run i ∧ (config i).expectedCurrent = L ∧
      (config i).target = L'

end Runs

namespace Fixture

/-- A provider that does not tell the case of labels. -/
scoped instance folding : GitHub where
  key := casefold
  spelling := id
  key_spelling := fun _ => rfl
  key_state := fun _ _ h => congrArg stateOfLabel h

/-- Two calls leave IMPLEMENTING, one comes back to it. -/
def leaving : Fin 3 → Transition
  | 0 | 1 => approvedEdge .implementing .devVerifying
  | 2 => approvedEdge .devVerifying .implementing

instance zeroLeaver : NeZero 3 := ⟨by decide⟩

def leavingOrder : List (Fin 3 × Option Delivery) :=
  [0, 1, 0, 1, 0, 2, 2, 1, 1, 0].map fun i => (i, some .answered)

/-- Both leave; in between the issue is DEV_VERIFYING, and then also IMPLEMENTING. -/
def leavingRun : List (ApplyEvent (Fin 3)) :=
  let implementing := ownedLabel .implementing
  let verifying := ownedLabel .devVerifying
  [⟨0, .read, [implementing]⟩, ⟨1, .read, [implementing]⟩,
    ⟨0, .add, [implementing, verifying]⟩, ⟨1, .add, [implementing, verifying]⟩,
    ⟨0, .remove, [verifying]⟩, ⟨2, .read, [verifying]⟩, ⟨2, .add, [verifying, implementing]⟩,
    ⟨1, .remove, [verifying]⟩, ⟨1, .reread, [verifying]⟩, ⟨0, .reread, [verifying]⟩]

theorem leaving_interleave :
    (interleave leaving ⟨⟨4711, [ownedLabel .implementing]⟩, fun _ => .ready⟩ leavingOrder).map
      (fun (run, w) => (run, w.phase 0, w.phase 1)) =
      some (leavingRun, .returned .devVerifying, .returned .devVerifying) := by
  decide +kernel

/-- Two calls leave REFINING, one comes back to it, and one that read in between goes on. -/
def moving : Fin 4 → Transition
  | 0 | 1 => approvedEdge .refining .businessReady
  | 2 => approvedEdge .businessReady .refining
  | 3 => approvedEdge .businessReady .designing

def movingOrder : List (Fin 4 × Option Delivery) :=
  [0, 1, 0, 1, 1, 2, 3, 2, 2, 3, 0].map fun i => (i, some .answered)

/-- The issue is REFINING again. -/
def movingBack : List (ApplyEvent (Fin 4)) :=
  let refining := ownedLabel .refining
  let ready := ownedLabel .businessReady
  [⟨0, .read, [refining]⟩, ⟨1, .read, [refining]⟩, ⟨0, .add, [refining, ready]⟩,
    ⟨1, .add, [refining, ready]⟩, ⟨1, .remove, [ready]⟩, ⟨2, .read, [ready]⟩,
    ⟨3, .read, [ready]⟩, ⟨2, .add, [ready, refining]⟩, ⟨2, .remove, [refining]⟩]

/-- A late addition and a late removal. -/
def movingOn : List (ApplyEvent (Fin 4)) :=
  [⟨3, .add, [ownedLabel .refining, ownedLabel .designing]⟩,
    ⟨0, .remove, [ownedLabel .designing]⟩]

theorem moving_interleave :
    (interleave moving ⟨⟨4711, [ownedLabel .refining]⟩, fun _ => .ready⟩ movingOrder).map
      (fun (run, _) => run) = some (movingBack ++ movingOn) := by
  decide +kernel

theorem lifecycleStates_owned (s : WorkItemState) : lifecycleStates [ownedLabel s] = [s] := by
  simp [lifecycleStates, stateOf_ownedLabel]

theorem leaving_trace : ∃ w, (applying leaving 4711 [ownedLabel .implementing]).Trace leavingRun w ∧
    w.phase 0 = .returned .devVerifying ∧ w.phase 1 = .returned .devVerifying := by
  obtain ⟨⟨run, w⟩, hrun, heq⟩ := Option.map_eq_some_iff.mp leaving_interleave
  obtain ⟨rfl, hphases⟩ := Prod.mk.inj heq
  obtain ⟨h₀, h₁⟩ := Prod.mk.inj hphases
  exact ⟨w, trace_interleave (.start _ rfl) hrun, h₀, h₁⟩

theorem moving_trace : ∃ w, (applying moving 4711 [ownedLabel .refining]).Trace
    (movingBack ++ movingOn) w := by
  obtain ⟨⟨run, w⟩, hrun, rfl⟩ := Option.map_eq_some_iff.mp moving_interleave
  have h := trace_interleave (.start _ rfl) hrun
  exact ⟨w, h⟩

end Fixture

open Fixture

theorem exits_separated_leaving :
    ExitInTurn leaving [ownedLabel .implementing] leavingRun 0 1 .implementing ∨
      ExitInTurn leaving [ownedLabel .implementing] leavingRun 1 0 .implementing := by
  obtain ⟨w, h, h₀, h₁⟩ := leaving_trace
  exact exits_separated h (by decide) h₀ h₁ rfl rfl

/-- The label comes back beside another one, and is removed again: the issue was never
IMPLEMENTING alone in between. -/
theorem exits_unseparated : ∃ run w,
    (applying leaving 4711 [ownedLabel .implementing]).Trace run w ∧
      lifecycleStates [ownedLabel .implementing] = [.implementing] ∧
      ¬ SeparatedByMoment leaving run w := by
  obtain ⟨w, h, h₀, h₁⟩ := leaving_trace
  refine ⟨leavingRun, w, h, lifecycleStates_owned _, fun hsep => ?_⟩
  obtain ⟨moment, hm, hs⟩ := hsep 0 1 .implementing _ _ (by decide) h₀ h₁ rfl rfl
    (leavingRun.take 4) ⟨0, .remove, [ownedLabel .devVerifying]⟩ ((leavingRun.drop 5).take 2)
    ⟨1, .remove, [ownedLabel .devVerifying]⟩ ⟨leavingRun.drop 8, rfl⟩ rfl rfl rfl rfl
  have hnone : ∀ moment ∈ (⟨0, .remove, [ownedLabel .devVerifying]⟩ : ApplyEvent (Fin 3)) ::
      (leavingRun.drop 5).take 2, lifecycleStates moment.labels ≠ [.implementing] := by
    decide +kernel
  exact hnone moment hm hs

theorem settled_moves_moving :
    Removed moving [ownedLabel .refining] movingBack movingOn .refining ∧
      Added moving [ownedLabel .refining] movingBack movingOn .designing := by
  obtain ⟨w, h⟩ := moving_trace
  exact settled_moves h (List.prefix_refl _) (lifecycleStates_owned _) (lifecycleStates_owned _)
    (by decide)

/-- REFINING becomes DESIGNING, which no call had asked for. -/
theorem moves_unvalidated : ∃ run w, (applying moving 4711 [ownedLabel .refining]).Trace run w ∧
    lifecycleStates [ownedLabel .refining] = [.refining] ∧
    ¬ MovesValidated moving [ownedLabel .refining] run := by
  obtain ⟨w, h⟩ := moving_trace
  refine ⟨movingBack ++ movingOn, w, h, lifecycleStates_owned _, fun hmoves => ?_⟩
  have hnext : ∀ before, before <+: movingOn → before ≠ [] → before ≠ movingOn →
      (lifecycleStates (carried [ownedLabel .refining] (movingBack ++ before))).length ≠ 1 := by
    intro before hb
    have hmem : before ∈ movingOn.inits := (List.mem_inits _ _).mpr hb
    clear hb
    revert before
    decide +kernel
  obtain ⟨i, -, hL, hL'⟩ := hmoves movingBack movingOn .refining .designing (List.prefix_refl _)
    (lifecycleStates_owned _) (lifecycleStates_owned _) (by decide) hnext
  revert i
  decide

end NokincFactory
