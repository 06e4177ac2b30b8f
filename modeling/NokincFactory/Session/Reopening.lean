/-
  File:      NokincFactory/Session/Reopening.lean
  Subject:   When a closed finding is opened again, and what is remembered for that.

  * `mem_knownEvidence`: the four places evidence is known from;
  * `Observed`: in a running session every record is what a credited report reported;
  * `Ledger.known_settle`: no completion forgets evidence;
  * `reportedAgain_outcome`: what becomes of a closed record that is reported again;
  * `Remembers`: the same over every run, and whatever else the report says.
-/
import NokincFactory.Session.Provenance

namespace NokincFactory

section Reopening

variable [Sha256] [Pydantic] {seed : ReviewSeed}

/-! ## 1. What is known of a finding -/

/-- The places evidence of a finding is known from. -/
inductive Knows (state : ReviewState) (k d : Digest) : Prop where
  | record (item : FindingRecord) (h : item ∈ state.findings) (hk : item.fingerprint = k)
      (e : Evidence) (he : e ∈ item.finding.evidence) (hd : e.digest = d)
  | finding (report : ReviewReport) (h : report ∈ state.validCompletedReports) (item : Finding)
      (hi : item ∈ report.findings) (hk : item.fingerprint = k)
      (e : Evidence) (he : e ∈ item.evidence) (hd : e.digest = d)
  | recheck (report : ReviewReport) (h : report ∈ state.validCompletedReports)
      (item : FindingRecheck) (hi : item ∈ report.rechecks) (hk : item.fingerprint = k)
      (e : Evidence) (he : e ∈ item.evidence) (hd : e.digest = d)
  | resolution (record : ResolutionRecord) (h : record ∈ state.resolutions)
      (hk : record.resolution.fingerprint = k)
      (e : Evidence) (he : e ∈ record.resolution.evidence) (hd : e.digest = d)

omit [Sha256] [Pydantic] in
theorem mem_digests {α : Type} {l : List α} {p : α → Prop} [DecidablePred p]
    {evidence : α → List Evidence} {d : Digest} :
    d ∈ (l.filter (p ·)).flatMap (fun a => (evidence a).map (·.digest)) ↔
      ∃ a ∈ l, p a ∧ ∃ e ∈ evidence a, e.digest = d := by
  simp only [List.mem_flatMap, List.mem_filter, decide_eq_true_eq, List.mem_map, and_assoc]

omit [Pydantic] in
theorem mem_knownEvidence {state : ReviewState} {k d : Digest} :
    d ∈ knownEvidence state k ↔ Knows state k d := by
  unfold knownEvidence
  rw [List.mem_append, List.mem_append, mem_digests, mem_digests, List.mem_flatMap]
  constructor
  · intro h
    rcases h with (⟨item, h, hk, e, he, hd⟩ | ⟨report, h, hm⟩) | ⟨record, h, hk, e, he, hd⟩
    · exact .record item h hk e he hd
    · rcases List.mem_append.mp hm with hm | hm
      · obtain ⟨item, hi, hk, e, he, hd⟩ := mem_digests.mp hm
        exact .finding report h item hi hk e he hd
      · obtain ⟨item, hi, hk, e, he, hd⟩ := mem_digests.mp hm
        exact .recheck report h item hi hk e he hd
    · exact .resolution record h hk e he hd
  · intro h
    cases h with
    | record item h hk e he hd => exact .inl (.inl ⟨item, h, hk, e, he, hd⟩)
    | finding report h item hi hk e he hd =>
        refine .inl (.inr ⟨report, h, List.mem_append_left _ ?_⟩)
        exact mem_digests.mpr ⟨item, hi, hk, e, he, hd⟩
    | recheck report h item hi hk e he hd =>
        refine .inl (.inr ⟨report, h, List.mem_append_right _ ?_⟩)
        exact mem_digests.mpr ⟨item, hi, hk, e, he, hd⟩
    | resolution record h hk e he hd => exact .inr ⟨record, h, hk, e, he, hd⟩

/-! ## 2. Nothing is forgotten -/

/-- Every record is what some credited report reported. -/
def Observed (state : ReviewState) : Prop :=
  ∀ item ∈ state.findings, ∃ report ∈ state.validCompletedReports, item.finding ∈ report.findings

omit [Sha256] [Pydantic] in
@[simp] theorem counted_finding (item : FindingRecord) : (counted item).finding = item.finding := by
  unfold counted countOpen
  split <;> rfl

omit [Pydantic] in
theorem finding_of_applyFinding {state : ReviewState} {report : ReviewReport} {finding : Finding}
    {entry : Option FindingRecord} {item : FindingRecord}
    (h : applyFinding seed state report finding entry = some item) : item.finding = finding := by
  unfold applyFinding at h
  split at h
  · obtain rfl := Option.some.inj h
    rfl
  · split at h
    · obtain rfl := Option.some.inj h
      rfl
    · split at h
      · obtain rfl := Option.some.inj h
        rfl
      · cases h

omit [Pydantic] in
/-- A record after a credited report holds a finding of this report, or the one it held. -/
theorem Reconciled.holds {state : ReviewState} {report : ReviewReport}
    {findings : List FindingRecord} {terminal : List ReviewReason}
    (h : Reconciled seed state report findings terminal) {item : FindingRecord}
    (hi : item ∈ findings) : item.finding ∈ report.findings ∨
      ∃ previous ∈ state.findings, previous.finding = item.finding := by
  obtain ⟨entry, hre, hk⟩ := h.pointwise item.fingerprint
  rw [h.keyed.recordOf_iff.mpr ⟨hi, rfl⟩] at hk
  obtain ⟨before, hreported, rfl⟩ := Option.map_eq_some_iff.mp hk.symm
  rw [counted_finding]
  rcases Option.or_eq_some_iff.mp hreported with hnew | ⟨-, hold⟩
  · obtain ⟨finding, hf, happly⟩ := Option.bind_eq_some_iff.mp hnew
    rw [finding_of_applyFinding happly]
    exact .inl (List.mem_of_find?_eq_some hf)
  · right
    generalize hrec : recordOf state.findings (counted before).fingerprint = stored at hre
    subst hold
    cases hre with
    | kept => exact ⟨before, mem_of_recordOf hrec, rfl⟩
    | passed existing recheck resolution hp => exact ⟨existing, mem_of_recordOf hrec, rfl⟩

/-- In a session that runs, every record was reported by a credited report. -/
theorem Ledger.observed {attempts : List ReviewAttempt} {state : ReviewState}
    (h : Ledger seed attempts state) : state.terminalReasons = [] → Observed state := by
  refine Ledger.rule (motive := fun _ state => state.terminalReasons = [] → Observed state)
    ?_ ?_ ?_ h
  · intro _ _ item hi
    exact absurd hi List.not_mem_nil
  · intro attempts state invocation _ hr ih _
    exact ih hr.running
  · intro attempts state invocation completion settled hl _ hp _ ho ih hrunning item hi
    have hbefore := ih (hl.running (by rw [hp]; exact Option.some_ne_none _))
    rw [capacity_findings] at hi
    rw [capacity_validCompletedReports]
    have hopen := capacity_terminal_nil hrunning
    cases ho.inspection with
    | untouched hf hr =>
        rw [hf] at hi
        rw [hr]
        exact hbefore item hi
    | retained report hb hf hr ht =>
        -- a stop that was retained has stopped the session
        have hkeyed : Keyed (account state invocation completion).1.findings := hl.keyed
        have hkeyed' : Keyed (retainStops seed _ report).findings :=
          retainStops_keyed hb.findings hkeyed
        rw [hf] at hi
        rw [hr]
        rcases retainStops_cases hb.findings (hkeyed'.recordOf_iff.mpr ⟨hi, rfl⟩) with
          hold | ⟨finding, hm, hs, -, -⟩
        · exact hbefore item (mem_of_recordOf hold)
        · obtain ⟨r, hr'⟩ := List.exists_mem_of_ne_nil _ (stopReasons_ne_nil hm hs)
          have hmem := ht r hr'
          rw [hopen] at hmem
          exact absurd hmem List.not_mem_nil
    | credited text report hclean hk hout hparse hb hc hrec hr =>
        rw [hr]
        rcases hrec.holds hi with hnew | ⟨previous, hm, hsame⟩
        · exact ⟨report, List.mem_append_right _ (List.mem_singleton_self _), hnew⟩
        · obtain ⟨earlier, he, hf⟩ := hbefore previous hm
          rw [hsame] at hf
          exact ⟨earlier, List.mem_append_left _ he, hf⟩

theorem Inspection.reports {state settled : ReviewState} {invocation : Invocation}
    {completion : Completion} (h : Inspection seed state invocation completion settled) :
    state.validCompletedReports ⊆ settled.validCompletedReports := by
  cases h with
  | untouched hf hr => rw [hr]; exact List.Subset.refl _
  | retained report hb hf hr ht => rw [hr]; exact List.Subset.refl _
  | credited text report hclean hk ho hp hb hc h hr => rw [hr]; exact List.subset_append_left _ _

theorem Outcome.keepsResolutions {state settled : ReviewState} {invocation : Invocation}
    {completion : Completion} (h : Outcome seed state invocation completion settled) :
    state.resolutions ⊆ settled.resolutions := by
  rcases h.resolutions with heq | ⟨text, repair, resolutions, -, -, -, hr⟩
  · rw [heq]
    exact List.Subset.refl _
  · rw [hr.state]
    exact List.subset_append_left _ _

/-- A completion forgets no evidence: what a record loses, a credited report has kept. -/
theorem Ledger.known_settle {attempts : List ReviewAttempt} {state settled : ReviewState}
    {invocation : Invocation} {completion : Completion}
    (hl : Ledger seed (attempts ++ [⟨invocation, none⟩]) state)
    (ho : Outcome seed state invocation completion settled) {k d : Digest}
    (h : Knows state k d) : Knows settled k d := by
  have hreports := ho.inspection.reports
  cases h with
  | record item hi hk e he hd =>
      have hrunning := hl.running (by rw [hl.pending_last]; exact Option.some_ne_none _)
      obtain ⟨report, hr, hf⟩ := hl.observed hrunning item hi
      exact .finding report (hreports hr) item.finding hf hk e he hd
  | finding report hr item hi hk e he hd => exact .finding report (hreports hr) item hi hk e he hd
  | recheck report hr item hi hk e he hd => exact .recheck report (hreports hr) item hi hk e he hd
  | resolution record hr hk e he hd =>
      exact .resolution record (ho.keepsResolutions hr) hk e he hd

omit [Pydantic] in
/-- Only findings, credited reports and resolutions are looked at. -/
theorem Knows.congr {state state' : ReviewState} (hf : state'.findings = state.findings)
    (hr : state'.validCompletedReports = state.validCompletedReports)
    (hs : state'.resolutions = state.resolutions) {k d : Digest} (h : Knows state k d) :
    Knows state' k d := by
  cases h with
  | record item hi hk e he hd => exact .record item (hf ▸ hi) hk e he hd
  | finding report hm item hi hk e he hd => exact .finding report (hr ▸ hm) item hi hk e he hd
  | recheck report hm item hi hk e he hd => exact .recheck report (hr ▸ hm) item hi hk e he hd
  | resolution record hm hk e he hd => exact .resolution record (hs ▸ hm) hk e he hd

theorem Advance.known {session session' : ReviewSession} (hs : Recorded session)
    (h : Advance session session') {k d : Digest} (hd : Knows session.state k d) :
    Knows session'.state k d := by
  cases h with
  | redelivered => exact hd
  | reserve invocation h =>
      refine Knows.congr ?_ ?_ ?_ hd
      · rfl
      · rfl
      · rfl
  | complete earlier invocation completion state hl hc =>
      have hledger : Ledger session.seed (earlier ++ [⟨invocation, none⟩]) session.state := by
        rw [← hl]
        exact hs
      obtain ⟨pending, settled, hp, -, ho, rfl⟩ := complete_ok hc
      obtain rfl := Option.some.inj (hledger.pending_last.symm.trans hp)
      have hsettled := hledger.known_settle ho hd
      exact hsettled.congr (capacity_findings _ _) (capacity_validCompletedReports _ _)
        (capacity_resolutions _ _)

/-! ## 3. A closed finding that is reported again -/

/-- A step credits a report. -/
structure Credits (session session' : ReviewSession) (report : ReviewReport) : Prop where
  step : sessions.step session session'
  reports : session'.state.validCompletedReports =
    session.state.validCompletedReports ++ [report]

/-- A credited report reports again a finding that is closed, on the artifact on which it was
closed. -/
structure ReportedAgain (session session' : ReviewSession) (report : ReviewReport)
    (finding : Finding) (item : FindingRecord) : Prop where
  credited : Credits session session' report
  reported : finding ∈ report.findings
  stored : item ∈ session.state.findings
  fingerprint : item.fingerprint = finding.fingerprint
  closed : item.closedBy ≠ none
  artifact : item.closedArtifactDigest = some report.binding.artifactDigest

/-- All of the reported evidence is known. -/
def Familiar (state : ReviewState) (finding : Finding) : Prop :=
  ∀ e ∈ finding.evidence, Knows state finding.fingerprint e.digest

/-- The record that opens a finding again, counted afresh. -/
def reopenedRecord (seed : ReviewSeed) (report : ReviewReport) (finding : Finding)
    (item : FindingRecord) : FindingRecord :=
  let blocks := blocking seed finding || item.blocking
  { finding, reportDigest := contentDigest report, blocking := blocks,
    occurrences := if blocks then 1 else 0 }

/-- What a credited step does to the findings. -/
theorem Credits.reconciled {session session' : ReviewSession} {report : ReviewReport}
    (h : Credits session session' report) :
    (report.findings.map (·.fingerprint)).Nodup ∧ ∃ accounted terminal,
      accounted.findings = session.state.findings ∧
      accounted.validCompletedReports = session.state.validCompletedReports ∧
      accounted.resolutions = session.state.resolutions ∧
      Reconciled session.seed accounted report session'.state.findings terminal := by
  have hgrew : session'.state.validCompletedReports ≠ session.state.validCompletedReports := by
    rw [h.reports]
    simp
  cases advance_of_step h.step with
  | redelivered => exact absurd rfl hgrew
  | reserve invocation h => exact absurd rfl hgrew
  | complete earlier invocation completion state hl hc =>
      obtain ⟨pending, settled, hp, -, ho, rfl⟩ := complete_ok hc
      have hreports := h.reports
      rw [capacity_validCompletedReports] at hreports hgrew
      cases ho.inspection with
      | untouched hf hr => exact absurd hr hgrew
      | retained report hb hf hr ht => exact absurd hr hgrew
      | credited text delivered hclean hk hout hparse hb hc hrec hr =>
          obtain rfl : delivered = report := by
            rw [hr] at hreports
            simpa using hreports
          refine ⟨hb.findings, (account session.state pending completion).1,
            settled.terminalReasons, rfl, rfl, rfl, ?_⟩
          rw [capacity_findings]
          exact hrec

omit [Pydantic] in
theorem reopens_iff {state : ReviewState} {report : ReviewReport} {finding : Finding}
    {item : FindingRecord}
    (hartifact : item.closedArtifactDigest = some report.binding.artifactDigest) :
    reopens state report finding item ↔ ¬ Familiar state finding := by
  unfold reopens Familiar
  rw [not_forall]
  constructor
  · intro h
    rcases h with hne | ⟨e, he, hnew⟩
    · exact absurd hartifact hne
    · exact ⟨e, fun hall => hnew (mem_knownEvidence.mpr (hall he))⟩
  · intro ⟨e, hnot⟩
    rw [Classical.not_imp] at hnot
    exact .inr ⟨e, hnot.1, fun hknown => hnot.2 (mem_knownEvidence.mp hknown)⟩

/-- The record of a closed finding after it was reported again on its artifact. -/
theorem reportedAgain_outcome {session session' : ReviewSession} (hs : Recorded session)
    {report : ReviewReport} {finding : Finding} {item : FindingRecord}
    (h : ReportedAgain session session' report finding item) :
    (Familiar session.state finding → item ∈ session'.state.findings) ∧
      (¬ Familiar session.state finding →
        reopenedRecord session.seed report finding item ∈ session'.state.findings) := by
  obtain ⟨hnodup, accounted, terminal, hfindings, hreports, hresolutions, hrec⟩ :=
    h.credited.reconciled
  have hfamiliar : Familiar accounted finding ↔ Familiar session.state finding := by
    unfold Familiar
    exact ⟨fun hall e he => (hall e he).congr hfindings.symm hreports.symm hresolutions.symm,
      fun hall e he => (hall e he).congr hfindings hreports hresolutions⟩
  have hstored : recordOf accounted.findings finding.fingerprint = some item := by
    rw [hfindings]
    exact hs.keyed.recordOf_iff.mpr ⟨h.stored, h.fingerprint⟩
  have hfind : report.findings.find? (fun f => f.fingerprint = finding.fingerprint) =
      some finding := by
    cases hf : report.findings.find? (fun f => f.fingerprint = finding.fingerprint) with
    | none => exact absurd (List.find?_eq_none.mp hf finding h.reported) (by simp)
    | some other =>
        obtain ⟨hm, hk⟩ := fingerprint_of_find hf
        rw [List.inj_on_of_nodup_map hnodup hm h.reported hk]
  obtain ⟨entry, hre, hk⟩ := hrec.pointwise finding.fingerprint
  rw [hstored] at hre
  -- a closed record is not rechecked
  have hentry : entry = some item := by
    cases hre with
    | kept => rfl
    | passed existing recheck resolution hp => exact absurd hp.stillOpen h.closed
  have happlied : reportedRecord session.seed accounted report finding.fingerprint (some item) =
      (applyFinding session.seed accounted report finding (some item)).or (some item) := by
    unfold reportedRecord
    rw [hfind]
    rfl
  rw [hentry, happlied, applyFinding, if_neg h.closed] at hk
  refine ⟨fun hknown => ?_, fun hnew => ?_⟩
  · rw [if_neg fun hr => (reopens_iff h.artifact).mp hr (hfamiliar.mpr hknown)] at hk
    have hsame : counted item = item := counted_of_not fun hne => h.closed hne.1
    rw [Option.none_or, Option.map_some, hsame] at hk
    exact mem_of_recordOf hk
  · rw [if_pos ((reopens_iff h.artifact).mpr fun hknown => hnew (hfamiliar.mp hknown))] at hk
    have hmem := mem_of_recordOf hk
    unfold reopenedRecord
    cases hb : blocking session.seed finding || item.blocking with
    | true =>
        rw [hb, counted_of_open rfl rfl] at hmem
        exact hmem
    | false =>
        rw [hb, counted_of_not fun hne => by cases hne.2] at hmem
        exact hmem

/-- What is left of a record: its flag and its count, or nothing if it is closed. -/
def standing (findings : List FindingRecord) (k : Digest) : Option (Bool × Nat) :=
  (recordOf findings k).bind fun item =>
    if item.closedBy = none then some (item.blocking, item.occurrences) else none

/-- Two closed findings, of the same session or of two, are reported again with the same
evidence, in any order and as often as it may be, and the same of it is known. -/
structure SameNews (state state' : ReviewState) (finding finding' : Finding) : Prop where
  evidence : ∀ d, d ∈ finding.evidence.map (·.digest) ↔ d ∈ finding'.evidence.map (·.digest)
  known : ∀ d, Knows state finding.fingerprint d ↔ Knows state' finding'.fingerprint d

omit [Pydantic] in
theorem SameNews.familiar {state state' : ReviewState} {finding finding' : Finding}
    (h : SameNews state state' finding finding') (hf : Familiar state finding) :
    Familiar state' finding' := by
  intro e he
  have hd := (h.evidence e.digest).mpr (List.mem_map_of_mem he)
  obtain ⟨e', he', hsame⟩ := List.mem_map.mp hd
  rw [← hsame]
  exact (h.known e'.digest).mp (hf e' he')

omit [Pydantic] in
theorem SameNews.symm {state state' : ReviewState} {finding finding' : Finding}
    (h : SameNews state state' finding finding') : SameNews state' state finding' finding :=
  ⟨fun d => (h.evidence d).symm, fun d => (h.known d).symm⟩

theorem reportedAgain_standing {session session' : ReviewSession} (hs : Recorded session)
    {report : ReviewReport} {finding : Finding} {item : FindingRecord}
    (h : ReportedAgain session session' report finding item) :
    (Familiar session.state finding →
      standing session'.state.findings finding.fingerprint = none) ∧
    (¬ Familiar session.state finding →
      standing session'.state.findings finding.fingerprint =
        let blocks := blocking session.seed finding || item.blocking
        some (blocks, if blocks then 1 else 0)) := by
  have hkeyed := ((advance_of_step h.credited.step).recorded hs).keyed
  obtain ⟨hstale, hnew⟩ := reportedAgain_outcome hs h
  refine ⟨fun hknown => ?_, fun hunknown => ?_⟩
  · unfold standing
    rw [hkeyed.recordOf_iff.mpr ⟨hstale hknown, h.fingerprint⟩, Option.bind_some,
      if_neg h.closed]
  · have hrecord : recordOf session'.state.findings finding.fingerprint =
        some (reopenedRecord session.seed report finding item) :=
      hkeyed.recordOf_iff.mpr ⟨hnew hunknown, rfl⟩
    unfold standing
    rw [hrecord]
    rfl

/-- What a session does with findings that come back. -/
structure Remembers (session : ReviewSession) : Prop where
  /-- known evidence leaves a closed record as it is -/
  familiar : ∀ session' report finding item, ReportedAgain session session' report finding item →
    (∀ e ∈ finding.evidence, e.digest ∈ knownEvidence session.state finding.fingerprint) →
    item ∈ session'.state.findings
  /-- other evidence opens it again, counted afresh -/
  reopened : ∀ session' report finding item, ReportedAgain session session' report finding item →
    (∃ e ∈ finding.evidence, e.digest ∉ knownEvidence session.state finding.fingerprint) →
    reopenedRecord session.seed report finding item ∈ session'.state.findings
  /-- nothing else of the reports and of the sessions counts -/
  independent : ∀ other, sessions.Reachable other →
    ∀ session' report finding item, ReportedAgain session session' report finding item →
    ∀ other' report' finding' item', ReportedAgain other other' report' finding' item' →
    SameNews session.state other.state finding finding' →
    (blocking session.seed finding || item.blocking) =
      (blocking other.seed finding' || item'.blocking) →
    standing session'.state.findings finding.fingerprint =
      standing other'.state.findings finding'.fingerprint
  /-- what a credited report reports or rechecks is known after it -/
  learnt : ∀ session' report, Credits session session' report →
    (∀ finding ∈ report.findings, Familiar session'.state finding) ∧
    ∀ recheck ∈ report.rechecks, ∀ e ∈ recheck.evidence,
      Knows session'.state recheck.fingerprint e.digest
  /-- and what is known stays known -/
  kept : ∀ later, sessions.Steps session later → ∀ k,
    knownEvidence session.state k ⊆ knownEvidence later.state k

end Reopening

/-- Closed findings are opened again by new evidence only, and what was new once is not new
again. -/
theorem closed_reopens [Sha256] [Pydantic] {session : ReviewSession}
    (h : sessions.Reachable session) : Remembers session := by
  have hs := recorded_of_reachable h
  refine ⟨?_, ?_, ?_, ?_, ?_⟩
  · intro session' report finding item hagain hknown
    exact (reportedAgain_outcome hs hagain).1 fun e he => mem_knownEvidence.mp (hknown e he)
  · intro session' report finding item hagain ⟨e, he, hunknown⟩
    refine (reportedAgain_outcome hs hagain).2 fun hknown => hunknown ?_
    exact mem_knownEvidence.mpr (hknown e he)
  · intro other hother session' report finding item hagain other' report' finding' item' hagain'
      hnews hblocking
    obtain ⟨hstale, hnew⟩ := reportedAgain_standing hs hagain
    obtain ⟨hstale', hnew'⟩ := reportedAgain_standing (recorded_of_reachable hother) hagain'
    by_cases hknown : Familiar session.state finding
    · rw [hstale hknown, hstale' (hnews.familiar hknown)]
    · rw [hnew hknown, hnew' fun hknown' => hknown (hnews.symm.familiar hknown'), hblocking]
  · intro session' report hcredits
    have hmem : report ∈ session'.state.validCompletedReports := by
      rw [hcredits.reports]
      exact List.mem_append_right _ (List.mem_singleton_self _)
    refine ⟨fun finding hf e he => ?_, fun recheck hr e he => ?_⟩
    · exact .finding report hmem finding hf rfl e he rfl
    · exact .recheck report hmem recheck hr rfl e he rfl
  · intro later hsteps k d hd
    refine mem_knownEvidence.mpr (hsteps.stable (I := fun s => Knows s.state k d) ?_ h
      (mem_knownEvidence.mp hd))
    intro s s' hreach hknown hstep
    exact (advance_of_step hstep).known (recorded_of_reachable hreach) hknown

namespace ReopeningFixture

open Fixture

/-- Three reviews are asked for, so that the session goes on after the acceptance. -/
def strict : ReviewSeed :=
  { seed with policy := { policy with
      minReviewPasses := 3, maxReviewPasses := 4, minReviewPasses_ge := policy.maxReviewPasses_ge,
      maxReviewPasses_ge := by decide, reviewRange := by decide } }

def callId : Identifier := ⟨"call-3", by decide⟩

/-- The closed finding once more, with evidence that was not seen before. -/
def regression : Finding :=
  { finding with
    artifactDigest := contentDigest (artifact "v2")
    evidence := [{ evidence "v2" unit with digest := digest "failed" }, evidence "v2" unit]
    evidenceNonempty := List.cons_ne_nil _ _ }

def relapse : ReviewReport :=
  { report 0 "v2" .fail [regression] [] .changesRequired with invocationId := callId }

scoped instance (priority := 2000) pydantic : Pydantic where
  reviewReport text := if text = "relapse" then some relapse else Fixture.pydantic.reviewReport text
  repairReport text := Fixture.pydantic.repairReport text
  reviewReportJson report := Fixture.pydantic.reviewReportJson report
  repairReportJson repair := Fixture.pydantic.repairReportJson repair

def fourth : Invocation :=
  { invocation 0 .review "v2" with invocationId := callId, startedAt := clock 9 }

def relapsing : ReviewAttempt where
  invocation := fourth
  completion := some
    { completion 0 .review "v2" "relapse" with
      invocationId := callId
      finishedAt := clock 10
      receipt := some (receipt fourth) }

def relapsed : ReviewState :=
  { accepted with
    lastAt := clock 10
    budget := { invocations := 4, repairs := 1, tokensSpent := 40, costMicrousdSpent := 40 }
    invocationIds := accepted.invocationIds ++ [callId]
    executionIds := accepted.executionIds ++ [executionKey (receipt fourth)]
    validCompletedReports := [rejection, acceptance, relapse]
    findings := [reopenedRecord strict relapse regression (closeRecord acceptance record)] }

theorem ledger_closed : Ledger strict [rejecting, repairing, accepting] accepted := by
  have h : [rejecting, repairing, accepting].foldlM (replayAttempt strict) (freshState strict) =
      .ok accepted := by decide +kernel
  have hseed : validateSeed strict = .ok () := by decide +kernel
  exact Ledger.append _ (.start (validateSeed_ok.mp hseed)) h

theorem ledger_relapsed :
    Ledger strict ([rejecting, repairing, accepting] ++ [relapsing]) relapsed := by
  have h : [relapsing].foldlM (replayAttempt strict) accepted = .ok relapsed := by decide +kernel
  exact Ledger.append _ ledger_closed h

end ReopeningFixture

open Fixture ReopeningFixture in
theorem closed_reopens_relapsed : ∃ held session', Remembers held ∧
    ReportedAgain held session' relapse regression (closeRecord acceptance record) ∧
    standing session'.state.findings regression.fingerprint = some (true, 1) := by
  obtain ⟨held, hheld, -⟩ := ledger_relapsed.uncomplete
  have hbefore : held.findings = accepted.findings ∧
      held.validCompletedReports = accepted.validCompletedReports := by
    obtain ⟨before, hb, -, rfl⟩ := hheld.unreserve
    obtain rfl := hb.deterministic ledger_closed
    exact ⟨rfl, rfl⟩
  have hsame : (closeRecord acceptance record).fingerprint = regression.fingerprint := by
    decide +kernel
  refine ⟨_, _, closed_reopens (reachable_of_ledger hheld),
    ⟨⟨step_of_completed hheld ledger_relapsed, ?_⟩, List.mem_singleton_self _, ?_, hsame,
      Option.some_ne_none _, rfl⟩, by decide +kernel⟩
  · show _ = held.validCompletedReports ++ [relapse]
    rw [hbefore.2]
    rfl
  · show _ ∈ held.findings
    rw [hbefore.1]
    exact List.mem_singleton_self _

end NokincFactory
