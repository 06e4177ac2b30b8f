/-
  File:      NokincFactory/Session/Stops.lean
  Subject:   What ends a session, and that it stays ended.

  * `Finished`: a session that is stopped or eligible; nothing but a delivery repeated word
    for word returns from it (`stops_absorb`);
  * `Uncredited`, `Unbound`: the little that a delivery without credit may change
    (`stops_retained`).
-/
import NokincFactory.Session.Findings

namespace NokincFactory

section Stops

variable [Sha256] [Pydantic] {seed : ReviewSeed}

/-! ## 1. Sessions that have ended -/

/-- A session that carries a terminal reason, or is idle with nothing left to ask for. -/
def Finished (session : ReviewSession) : Prop :=
  session.state.terminalReasons ≠ [] ∨
    (session.state.pending = none ∧ eligibilityReasons session.seed session.state = [])

theorem Finished.idle {session : ReviewSession} (hs : Recorded session)
    (h : Finished session) : session.state.pending = none := by
  rcases h with hstop | ⟨hidle, -⟩
  · by_contra hp
    exact hstop (hs.running hp)
  · exact hidle

omit [Pydantic] in
theorem Finished.not_reservable {session : ReviewSession} (h : Finished session)
    (invocation : Invocation) : ¬ Reservable session.seed session.state invocation := by
  intro hr
  rcases h with hstop | ⟨-, hnil⟩
  · exact hstop hr.running
  · exact hr.unfinished hnil

/-- A finished session has only itself to move on to. -/
theorem Finished.stays {session session' : ReviewSession} (hs : Recorded session)
    (h : Finished session) (hadv : Advance session session') : session' = session := by
  cases hadv with
  | redelivered => rfl
  | reserve invocation hr => exact absurd hr (h.not_reservable invocation)
  | complete earlier invocation completion state hl hc =>
      obtain ⟨pending, -, hp, -, -, -⟩ := complete_ok hc
      rw [h.idle hs] at hp
      cases hp

theorem Finished.denied {session : ReviewSession} (h : Finished session)
    (invocationId : Identifier) (kind : InvocationKind) (actor : ModelIdentity)
    (reservation : Reservation) (now : Datetime) :
    ∃ e, reserveInvocation session invocationId kind actor reservation now = .error e := by
  refine Except.error_of_not_ok fun session' hok => ?_
  obtain ⟨-, startedAt, state, -, hr, -⟩ := reserveInvocation_ok.mp hok
  exact h.not_reservable _ (reserve_ok.mp hr).1

/-- No call that returned takes a terminal reason back. -/
theorem Advance.terminal_grows {session session' : ReviewSession} (hs : Recorded session)
    (h : Advance session session') {r : ReviewReason} (hr : r ∈ session.state.terminalReasons) :
    r ∈ session'.state.terminalReasons := by
  have hstop : Finished session := Or.inl (List.ne_nil_of_mem hr)
  rw [hstop.stays hs h]
  exact hr

/-! ## 2. A delivery without credit -/

/-- What a bound report that earns no credit may change of the reports and findings: the
    records of its own stop findings are opened, under the count they had. -/
structure Uncredited (seed : ReviewSeed) (before : ReviewState) (report : ReviewReport)
    (after : ReviewState) : Prop where
  reports : after.validCompletedReports = before.validCompletedReports
  others : ∀ k, (∀ f ∈ report.findings, stopFinding seed f → f.fingerprint ≠ k) →
    recordOf after.findings k = recordOf before.findings k
  closed : ∀ k item, recordOf after.findings k = some item → item.closedBy ≠ none →
    recordOf before.findings k = some item
  counts : ∀ k item, recordOf after.findings k = some item →
    item.occurrences = ((recordOf before.findings k).map (·.occurrences)).getD 0

/-- What a delivery that is no bound report may change: nothing but the failures, and the
    terminal reasons of its failure class, of the repeated-failure rule and of exhausted
    capacity. -/
structure Unbound (seed : ReviewSeed) (before : ReviewState) (exc : ValueError)
    (after : ReviewState) : Prop where
  reports : after.validCompletedReports = before.validCompletedReports
  findings : after.findings = before.findings
  terminal : ∀ r ∈ after.terminalReasons, r ∈ before.terminalReasons ∨
    (r = exc.reason ∧ endsSession exc.reason = true) ∨
    (r = .repeatedFailure ∧
      seed.policy.sameUnresolvedFailureLimit ≤ failureCount before exc.reason) ∨
    r ∈ exhausted seed after

omit [Pydantic] in
theorem capacity_exhausted (seed : ReviewSeed) (state : ReviewState) :
    exhausted seed (capacity seed state) = exhausted seed state := by
  unfold capacity
  split <;> rfl

omit [Pydantic] in
theorem retainStops_uncredited {report : ReviewReport}
    (hn : (report.findings.map (·.fingerprint)).Nodup) (state : ReviewState)
    (invocation : Invocation) (completion : Completion) (reason : ReviewReason) :
    Uncredited seed state report (capacity seed (failure seed
      (retainStops seed (account state invocation completion).1 report) reason)) := by
  have hfindings : (capacity seed (failure seed (retainStops seed
      (account state invocation completion).1 report) reason)).findings =
        (retainStops seed (account state invocation completion).1 report).findings := by
    rw [capacity_findings, failure_findings]
  refine ⟨?_, fun k hother => ?_, fun k item hi hc => ?_, fun k item hi => ?_⟩
  · rw [capacity_validCompletedReports, failure_validCompletedReports, retainStops_frame]
    rfl
  · rw [hfindings, retainStops_recordOf hn, account_findings]
    cases hfind : report.findings.find? (fun f => f.fingerprint = k) with
    | none => rfl
    | some finding =>
        obtain ⟨hm, hfp⟩ := fingerprint_of_find hfind
        have hno : ¬ stopFinding seed finding := fun hs => hother finding hm hs hfp
        simp [retainFinding, hno]
  · rw [hfindings] at hi
    rcases retainStops_cases hn hi with hold | ⟨finding, -, -, -, rfl⟩
    · exact hold
    · exact absurd rfl hc
  · rw [hfindings] at hi
    rcases retainStops_cases hn hi with hold | ⟨finding, -, -, -, rfl⟩
    · rw [account_findings] at hold
      rw [hold]
      rfl
    · rfl

omit [Pydantic] in
theorem failure_unbound (state : ReviewState) (invocation : Invocation)
    (completion : Completion) (exc : ValueError) :
    Unbound seed state exc
      (capacity seed (failure seed (account state invocation completion).1 exc.reason)) := by
  refine ⟨?_, ?_, fun r hmem => ?_⟩
  · rw [capacity_validCompletedReports, failure_validCompletedReports,
      account_validCompletedReports]
  · rw [capacity_findings, failure_findings, account_findings]
  · rw [capacity_exhausted]
    rcases mem_capacity_terminal.mp hmem with hmem | ⟨-, hex⟩
    · rcases mem_failure_terminal.mp hmem with hold | hend | hrepeated
      · exact Or.inl hold
      · exact Or.inr (Or.inl hend)
      · exact Or.inr (Or.inr (Or.inl hrepeated))
    · exact Or.inr (Or.inr (Or.inr hex))

/-- The delivered text is a report bound to its invocation. -/
def DeliversBound (session : ReviewSession) (invocation : Invocation) (output : Option Output)
    (report : ReviewReport) : Prop :=
  ∃ text, output.map Output.json = some text ∧
    ReviewReport.modelValidateJson text = .ok report ∧
    BoundReport session.seed session.state invocation report

/-- What was raised on the way from a delivered text to a bound report. -/
def Raised (seed : ReviewSeed) (state : ReviewState) (invocation : Invocation)
    (output : Option String) (exc : ValueError) : Prop :=
  match output with
  | none => exc = .violation .malformedReport
  | some text => boundReport seed state invocation text = .error exc

/-- The report passes `validate_report` and `reconcile_findings`. -/
def Creditable (seed : ReviewSeed) (state : ReviewState) (report : ReviewReport) : Prop :=
  validateReport seed state report = .ok () ∧
    ∃ result, reconcileFindings seed state report = .ok result

omit [Pydantic] in
/-- Accounting for the completion changes nothing that credit depends on. -/
theorem creditReport_iff {state : ReviewState} (invocation : Invocation)
    (completion : Completion) {report : ReviewReport} :
    (∃ updated, creditReport seed (account state invocation completion).1 report = .ok updated) ↔
      Creditable seed state report := by
  have hvalid : validateReport seed (account state invocation completion).1 report =
      validateReport seed state report := rfl
  have hreconcile : reconcileFindings seed (account state invocation completion).1 report =
      reconcileFindings seed state report := rfl
  unfold creditReport
  rw [hvalid, hreconcile]
  constructor
  · intro h
    obtain ⟨updated, h⟩ := h
    obtain ⟨hv, h⟩ := Except.seq_ok.mp h
    obtain ⟨result, hr, -⟩ := Except.bind_ok.mp h
    exact ⟨hv, result, hr⟩
  · intro h
    obtain ⟨hv, result, hr⟩ := h
    exact ⟨_, Except.seq_ok.mpr ⟨hv, Except.bind_ok.mpr ⟨result, hr, rfl⟩⟩⟩

/-- What an accepted delivery for a pending review comes to. -/
theorem complete_delivered {state settled : ReviewState} {invocation : Invocation}
    {completion : Completion} (hp : state.pending = some invocation)
    (hclean : Clean seed state invocation completion)
    (hc : complete seed state completion = .ok settled) :
    settled = capacity seed
      (match deliver seed (account state invocation completion).1 invocation
          completion.outputJson with
        | (_, .ok updated) => updated
        | (rejected, .error exc) => failure seed rejected exc.reason) := by
  unfold complete at hc
  simp only [hp, hclean.running, hclean.faultless] at hc
  obtain ⟨-, hc⟩ := Except.seq_ok.mp hc
  cases hd : deliver seed (account state invocation completion).1 invocation
      completion.outputJson with
  | mk rejected result =>
      rw [hd] at hc
      cases result with
      | ok updated => exact (Except.pure_ok.mp hc).symm
      | error exc => exact (Except.pure_ok.mp hc).symm

/-- The delivery of a bound report retains its stops, and earns credit where it may. -/
theorem complete_bound {state settled : ReviewState} {invocation : Invocation}
    {completion : Completion} {text : String} {report : ReviewReport}
    (hp : state.pending = some invocation) (hk : invocation.kind = .review)
    (hclean : Clean seed state invocation completion)
    (hc : complete seed state completion = .ok settled)
    (ho : completion.outputJson = some text)
    (hparse : ReviewReport.modelValidateJson text = .ok report)
    (hb : BoundReport seed state invocation report) :
    (∀ r ∈ stopReasons seed report, r ∈ settled.terminalReasons) ∧
      (Creditable seed state report →
        settled.validCompletedReports = state.validCompletedReports ++ [report]) ∧
      (¬ Creditable seed state report → Uncredited seed state report settled) := by
  have hbound : boundReport seed (account state invocation completion).1 invocation text =
      .ok report := boundReport_ok.mpr ⟨hparse, hb.congr rfl⟩
  have hcredit : (∃ updated, creditReport seed (account state invocation completion).1 report =
      .ok updated) ↔ Creditable seed state report := creditReport_iff invocation completion
  have hsettled := complete_delivered hp hclean hc
  unfold deliver at hsettled
  simp only [ho, hk, hbound] at hsettled
  cases hcr : creditReport seed (account state invocation completion).1 report with
  | ok updated =>
      rw [hcr] at hsettled
      subst hsettled
      have hcredited := creditReport_ok hcr
      have hrec := reconcileFindings_ok hb.findings hb.rechecks hcredited.reconciled
      refine ⟨fun r hr => ?_, fun _ => ?_, fun hno => absurd (hcredit.mp ⟨updated, hcr⟩) hno⟩
      · exact mem_capacity_terminal.mpr (Or.inl ((hrec.terminal r).mpr (Or.inr hr)))
      · rw [capacity_validCompletedReports, hcredited.state]
        rfl
  | error exc =>
      rw [hcr] at hsettled
      subst hsettled
      refine ⟨fun r hr => ?_, fun hcreditable => ?_, fun _ => ?_⟩
      · refine mem_capacity_terminal.mpr (Or.inl (mem_failure_terminal.mpr (Or.inl ?_)))
        exact mem_retainStops_terminal.mpr (Or.inr hr)
      · obtain ⟨updated, hok⟩ := hcredit.mpr hcreditable
        rw [hcr] at hok
        cases hok
      · exact retainStops_uncredited hb.findings state invocation completion exc.reason

/-- A delivery that is no bound report counts as a failure, and as nothing else. -/
theorem complete_unbound {state settled : ReviewState} {invocation : Invocation}
    {completion : Completion} {exc : ValueError}
    (hp : state.pending = some invocation) (hk : invocation.kind = .review)
    (hclean : Clean seed state invocation completion)
    (hc : complete seed state completion = .ok settled)
    (hexc : Raised seed state invocation completion.outputJson exc) :
    Unbound seed state exc settled := by
  have hsettled : settled = capacity seed
      (failure seed (account state invocation completion).1 exc.reason) := by
    rw [complete_delivered hp hclean hc]
    unfold Raised at hexc
    unfold deliver
    cases ho : completion.outputJson with
    | none =>
        rw [ho] at hexc
        simp only [hexc]
    | some text =>
        rw [ho] at hexc
        have hraised : boundReport seed (account state invocation completion).1 invocation text =
            .error exc := hexc
        simp only [hk, hraised]
  subst hsettled
  exact failure_unbound state invocation completion exc

end Stops

/-! ## 3. The two results -/

/-- **Stops and eligibility are absorbing**: no run loses a terminal reason, and a finished
    session is all that any run from it reaches, with every reservation denied. -/
theorem stops_absorb [Sha256] [Pydantic] {session later : ReviewSession}
    (h : sessions.Reachable session) (hrun : sessions.Steps session later) :
    (∀ r ∈ session.state.terminalReasons, r ∈ later.state.terminalReasons) ∧
      (Finished session → later = session ∧
        ∀ invocationId kind actor reservation now,
          ∃ e, reserveInvocation later invocationId kind actor reservation now = .error e) := by
  refine ⟨fun r hr => ?_, fun hf => ?_⟩
  · exact System.Steps.stable (fun s s' hs hmem hstep =>
      (advance_of_step hstep).terminal_grows (recorded_of_reachable hs) hmem) h hrun hr
  · have hstays : later = session := System.Steps.stable (I := (· = session))
      (fun s s' hs heq hstep => by
        rw [heq] at hstep
        exact hf.stays (recorded_of_reachable h) (advance_of_step hstep)) h hrun rfl
    subst hstays
    exact ⟨rfl, hf.denied⟩

open Fixture in
theorem repeated_absorbs :
    ∃ e, reserveInvocation ⟨seed, [rejecting, repeating], repeated⟩ (callId 2) .repair doer
      ⟨1, 0, 1, by decide, by decide⟩ (clock 6).datetime = .error e := by
  have hstop : Finished ⟨seed, [rejecting, repeating], repeated⟩ :=
    Or.inl (List.cons_ne_nil _ _)
  exact ((stops_absorb (reachable_of_ledger ledger_repeated) .refl).2 hstop).2 _ _ _ _ _

/-- **Stop retention**: a delivery in time and in order retains every stop of a bound
    report, credited or not; without credit it helps nothing, and unbound it only fails. -/
theorem stops_retained [Sha256] [Pydantic] {session : ReviewSession} {invocation : Invocation}
    {proof : InvocationReceipt} {now : Datetime} {finishedAt : Moment}
    (h : sessions.Reachable session) (hp : session.state.pending = some invocation)
    (hk : invocation.kind = .review) (hv : validReceipt session.attempts invocation proof)
    (hheld : proof.usage.tokens ≤ invocation.reservation.tokens ∧
      proof.usage.costMicrousd ≤ invocation.reservation.costMicrousd)
    (hnow : utc now = .ok finishedAt)
    (hwindow : withinWindow session.seed session.state finishedAt)
    (hseconds : 0 ≤ totalSeconds finishedAt invocation.startedAt ∧
      totalSeconds finishedAt invocation.startedAt < invocation.reservation.seconds)
    (output : Option Output) :
    ∃ next, completeInvocation session invocation.invocationId (some proof) output now none =
        .ok next ∧
      (∀ report, DeliversBound session invocation output report →
        (∀ r ∈ stopReasons session.seed report, r ∈ next.state.terminalReasons) ∧
        (Creditable session.seed session.state report →
          next.state.validCompletedReports =
            session.state.validCompletedReports ++ [report]) ∧
        (¬ Creditable session.seed session.state report →
          Uncredited session.seed session.state report next.state)) ∧
      ∀ exc, Raised session.seed session.state invocation (output.map Output.json) exc →
        Unbound session.seed session.state exc next.state := by
  have hs := recorded_of_reachable h
  obtain ⟨earlier, hl⟩ := hs.last_of_pending hp
  have hclean : Clean session.seed session.state invocation
      (delivered invocation.invocationId (some proof) output finishedAt none) :=
    clean_of_receipt hs.executionsSeen rfl rfl hv hheld hwindow hseconds
  have hid : (delivered invocation.invocationId (some proof) output finishedAt none).invocationId =
      invocation.invocationId := rfl
  obtain ⟨state, hc⟩ : ∃ state, complete session.seed session.state _ = .ok state :=
    complete_total hp hid
  refine ⟨_, completeInvocation_ok.mpr ⟨validateSession_iff.mpr ⟨hs, rfl⟩, finishedAt,
    ⟨invocation, none⟩, hnow, hs.find_pending hl, Or.inr ⟨rfl, state, hc, rfl⟩⟩, ?_, ?_⟩
  · intro report hdelivers
    obtain ⟨text, hout, hparse, hb⟩ := hdelivers
    exact complete_bound hp hk hclean hc hout hparse hb
  · intro exc hexc
    exact complete_unbound hp hk hclean hc hexc

open Fixture in
theorem escalation_retained :
    let held := reserved (freshState seed) (invocation 0 .review "v1")
    ∃ next, completeInvocation ⟨seed, [⟨invocation 0 .review "v1", none⟩], held⟩ (callId 0)
        (some (receipt (invocation 0 .review "v1"))) (some (.str "escalation"))
        (clock 1).datetime none = .ok next ∧
      ReviewReason.reviewEscalated ∈ next.state.terminalReasons ∧
      next.state.validCompletedReports = [] := by
  intro held
  have hreject : Ledger seed ([] ++ [rejecting]) rejected := ledger_rejected
  obtain ⟨held', hheld, -⟩ := hreject.uncomplete
  obtain ⟨before, hb, -, rfl⟩ := hheld.unreserve
  obtain rfl := hb.deterministic ledger_fresh
  have hbound : BoundReport seed held (invocation 0 .review "v1") escalation := by
    have hok : validateReportBinding seed held (invocation 0 .review "v1") escalation = .ok () := by
      decide +kernel
    exact validateReportBinding_ok.mp hok
  have huncredited : ¬ Creditable seed held escalation := fun hc =>
    absurd hc.1 (by decide +kernel)
  obtain ⟨next, hnext, hdelivered, -⟩ := stops_retained (reachable_of_ledger hheld) rfl rfl
    (by decide +kernel : validReceipt _ _ (receipt (invocation 0 .review "v1")))
    (by decide) (utc_datetime (clock 1)) (by decide +kernel) (by decide +kernel)
    (some (.str "escalation"))
  obtain ⟨hstops, -, hno⟩ := hdelivered escalation ⟨"escalation", rfl, rfl, hbound⟩
  exact ⟨next, hnext, hstops _ (by decide), (hno huncredited).reports⟩

end NokincFactory
